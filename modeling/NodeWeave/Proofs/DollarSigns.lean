import NodeWeave.Proofs.TemplateRules

/-!
# What stands behind a dollar sign

Only a `$` can start a placeholder, so what a pass can do to a text shows in what
stands behind each `$` of it.  `behind` asks this of a whole text, and three tests
are used:

* in a *steady* text each `$` has a visible character behind it that is no `$`;
* in an *inert* text this character is no brace either, so nothing in it starts a
  placeholder;
* in a *closed* text it may be a brace, but then a whole placeholder stands there.

A test is `Firm` when neither text that comes behind nor a cut can spoil it.  With a
firm test, what holds behind each `$` survives every pass (`Firm.behind_apply`).  Taking
away the placeholders of a steady text leaves none (`placeholders_strip`), and of a
closed text it leaves an inert one (`isInert_strip`).
-/

namespace NodeWeave.Template

variable {test : List Char → Bool} {a b w text rest name : List Char} {c : Char}

/-- A line break or a blank that can indent a line. -/
def isWhite (c : Char) : Bool :=
  c == '\n' || isIndent c

/-- What stands behind each `$` of a text passes a test. -/
def behind (test : List Char → Bool) : List Char → Bool
  | [] => true
  | c :: rest => (c != '$' || test rest) && behind test rest

theorem behind_cons :
    behind test (c :: rest) = true ↔ (c = '$' → test rest = true) ∧ behind test rest = true := by
  simp only [behind, Bool.and_eq_true, Bool.or_eq_true, bne_iff_ne, ne_eq]
  by_cases hc : c = '$' <;> simp [hc]

/-- A visible character that is no `$`. -/
def isInk (c : Char) : Bool :=
  c != '$' && !isWhite c

/-- Does the text start with a character of some kind? -/
def startsIn (p : Char → Bool) (rest : List Char) : Bool :=
  rest.head?.any p

/-- The test for steady texts. -/
def startsSteady : List Char → Bool :=
  startsIn isInk

/-- The test for inert texts. -/
def startsInert : List Char → Bool :=
  startsIn fun c => isInk c && c != '\x7b'

/-- Does a name in braces stand behind the `$`, without a `$` in it? -/
def opensName (rest : List Char) : Bool :=
  (placeholderName? ('$' :: rest)).any fun name => !name.contains '$'

/-- The test for closed texts. -/
def startsClosed (rest : List Char) : Bool :=
  startsInert rest || opensName rest

/-- Each `$` has a visible character behind it that is no `$`. -/
def isSteady (text : List Char) : Bool :=
  behind startsSteady text

/-- No `$` starts a placeholder, whatever stands behind the text. -/
def isInert (text : List Char) : Bool :=
  behind startsInert text

/-- Each `$` that has a brace behind it starts a placeholder. -/
def isClosed (text : List Char) : Bool :=
  behind startsClosed text

/-- **A test that passes cannot spoil.**  It passes whatever comes behind the text,
and it had no need of what follows up to the next `$` and the blanks before that. -/
structure Firm (test : List Char → Bool) : Prop where
  append : ∀ {a} (b), test a = true → test (a ++ b) = true
  cut : ∀ {a w b}, (∀ x ∈ w, isWhite x = true) → test (a ++ (w ++ '$' :: b)) = true → test a = true

theorem behind_of_not_mem (hmem : '$' ∉ text) : behind test text = true := by
  induction text with
  | nil => rfl
  | cons c rest ih =>
      rw [List.mem_cons, not_or] at hmem
      exact behind_cons.mpr ⟨fun hc => absurd hc.symm hmem.1, ih hmem.2⟩

theorem behind_mono {other : List Char → Bool} (hmono : ∀ rest, test rest = true → other rest = true)
    (hbehind : behind test text = true) : behind other text = true := by
  induction text with
  | nil => rfl
  | cons c rest ih =>
      obtain ⟨hc, hrest⟩ := behind_cons.mp hbehind
      exact behind_cons.mpr ⟨fun heq => hmono rest (hc heq), ih hrest⟩

theorem behind_of_suffix (hsuffix : b <:+ text) (hbehind : behind test text = true) :
    behind test b = true := by
  obtain ⟨a, rfl⟩ := hsuffix
  induction a with
  | nil => exact hbehind
  | cons c rest ih => exact ih (behind_cons.mp hbehind).2

theorem Firm.behind_append (hfirm : Firm test) (ha : behind test a = true)
    (hb : behind test b = true) : behind test (a ++ b) = true := by
  induction a with
  | nil => exact hb
  | cons c rest ih =>
      obtain ⟨hc, hrest⟩ := behind_cons.mp ha
      exact behind_cons.mpr ⟨fun heq => hfirm.append b (hc heq), ih hrest⟩

/-- The front of a text up to a `$` and the blanks before it. -/
theorem Firm.behind_front (hfirm : Firm test) (hw : ∀ x ∈ w, isWhite x = true)
    (hbehind : behind test (a ++ (w ++ '$' :: b)) = true) : behind test a = true := by
  induction a with
  | nil => rfl
  | cons c rest ih =>
      obtain ⟨hc, hrest⟩ := behind_cons.mp hbehind
      exact behind_cons.mpr ⟨fun heq => hfirm.cut hw (hc heq), ih hrest⟩

/-! ## Passes -/

/-- What the rule takes begins with blanks and a `$`. -/
def Marked (rule : List Char → Option Cut) : Prop :=
  ∀ text cut, rule text = some cut →
    0 < cut.taken ∧ ∃ w b, (∀ x ∈ w, isWhite x = true) ∧ text = w ++ '$' :: b

variable {rule : List Char → Option Cut}

theorem Marked.advances (hmarked : Marked rule) : Advances rule :=
  fun text cut hrule => (hmarked text cut hrule).1

/-- A test that passes before a pass also passes after it. -/
theorem Firm.apply (hfirm : Firm test) (hmarked : Marked rule)
    (htest : test (a ++ text) = true) : test (a ++ Template.apply rule text) = true := by
  refine apply_induct hmarked.advances
    (motive := fun text result => ∀ a, test (a ++ text) = true → test (a ++ result) = true)
    ?_ ?_ ?_ text a htest
  · exact fun a htest => htest
  · intro c rest _ ih a htest
    have hrest := ih (a ++ [c])
    rw [List.append_assoc, List.append_assoc, List.singleton_append, List.singleton_append] at hrest
    exact hrest htest
  · intro c rest cut hrule _ a htest
    obtain ⟨_, w, b, hw, htext⟩ := hmarked _ _ hrule
    rw [htext] at htest
    exact hfirm.append _ (hfirm.cut hw htest)

/-- **A pass keeps what stands behind each `$`**, as long as what it puts in does. -/
theorem Firm.behind_apply (hfirm : Firm test) (hmarked : Marked rule)
    (hput : ∀ text cut, rule text = some cut → behind test cut.put = true)
    (hbehind : behind test text = true) : behind test (Template.apply rule text) = true := by
  revert hbehind
  refine apply_induct hmarked.advances
    (motive := fun text result => behind test text = true → behind test result = true)
    ?_ ?_ ?_ text
  · exact fun hbehind => hbehind
  · intro c rest _ ih hbehind
    obtain ⟨hc, hrest⟩ := behind_cons.mp hbehind
    exact behind_cons.mpr ⟨fun heq => hfirm.apply (a := []) hmarked (hc heq), ih hrest⟩
  · intro c rest cut hrule ih hbehind
    exact hfirm.behind_append (hput _ _ hrule) (ih (behind_of_suffix (List.drop_suffix _ _) hbehind))

theorem fillRule_marked (name put : List Char) : Marked (fillRule name put) := by
  intro text cut hrule
  obtain ⟨⟨after, hafter⟩, rfl⟩ := fillRule_eq_some.mp hrule
  refine ⟨by simp [placeholder], [], '\x7b' :: name ++ ['\x7d'] ++ after, by simp, ?_⟩
  rw [← hafter]
  rfl

theorem Firm.behind_substitute (hfirm : Firm test) {put : List Char}
    (htext : behind test text = true) (hput : behind test put = true) :
    behind test (substitute text name put) = true := by
  rw [substitute_eq_apply]
  refine hfirm.behind_apply (fillRule_marked name put) (fun text cut hrule => ?_) htext
  obtain ⟨_, rfl⟩ := fillRule_eq_some.mp hrule
  exact hput

theorem dropRule_marked : Marked dropRule := by
  intro text cut hrule
  obtain ⟨name, hname, rfl⟩ := dropRule_eq_some.mp hrule
  obtain ⟨⟨after, hafter⟩, _⟩ := placeholderName?_eq_some.mp hname
  exact ⟨by simp, [], _, by simp, hafter.symm⟩

theorem isWhite_of_isIndent (hc : isIndent c = true) : isWhite c = true := by
  simp [isWhite, hc]

theorem dropLineRule_marked : Marked dropLineRule := by
  intro text cut hrule
  obtain ⟨indent, after, name, rfl, hindent, hname, rfl⟩ := dropLineRule_eq_some.mp hrule
  obtain ⟨⟨rest, rfl⟩, _⟩ := placeholderName?_eq_some.mp hname
  refine ⟨by simp, '\n' :: indent, _, ?_, rfl⟩
  intro x hx
  rcases List.mem_cons.mp hx with rfl | hx
  · rfl
  · exact isWhite_of_isIndent (hindent x hx)

/-! ## Blocks -/

theorem isWhite_lead {newline indent : List Char} (hnewline : newline = [] ∨ newline = ['\n'])
    (hindent : ∀ x ∈ indent, isIndent x = true) : ∀ x ∈ newline ++ indent, isWhite x = true := by
  intro x hx
  rcases List.mem_append.mp hx with hx | hx
  · rcases hnewline with rfl | rfl
    · cases hx
    · rw [List.mem_singleton.mp hx]
      rfl
  · exact isWhite_of_isIndent (hindent x hx)

theorem spliceRule_marked (name block : List Char) : Marked (spliceRule name block) := by
  intro text cut hrule
  obtain ⟨newline, indent, after, rfl, hnewline, hindent, hpos, _⟩ := spliceRule_eq_some hrule
  refine ⟨hpos, newline ++ indent, '\x7b' :: name ++ ['\x7d'] ++ after,
    isWhite_lead hnewline hindent, ?_⟩
  rw [List.append_assoc]
  rfl

theorem not_mem_of_isIndent {indent : List Char} (hindent : ∀ x ∈ indent, isIndent x = true) :
    '$' ∉ indent := by
  intro hmem
  have hdollar := hindent '$' hmem
  simp [isIndent] at hdollar

theorem isInk_newline : isInk '\n' = false := rfl

variable {p : Char → Bool}

theorem startsIn_cons : startsIn p (c :: rest) = p c := rfl

theorem firm_startsIn (hp : ∀ c, p c = true → isInk c = true) : Firm (startsIn p) where
  append := by
    intro a b htest
    cases a with
    | nil => cases htest
    | cons c rest => exact htest
  cut := by
    intro a w b hw htest
    cases a with
    | cons c rest => exact htest
    | nil =>
        -- the text would start with a blank or a `$`
        cases w with
        | nil =>
            have hdollar := hp '$' htest
            simp [isInk] at hdollar
        | cons x rest =>
            have hx := hp x htest
            simp [isInk, hw x List.mem_cons_self] at hx

/-- Indenting a block keeps what stands behind each `$`: that is never a line break. -/
theorem behind_flatMap_indentChar (hp : ∀ c, p c = true → isInk c = true) {indent block : List Char}
    (hindent : ∀ x ∈ indent, isIndent x = true) (hblock : behind (startsIn p) block = true) :
    behind (startsIn p) (block.flatMap (indentChar indent)) = true := by
  induction block with
  | nil => rfl
  | cons c rest ih =>
      obtain ⟨hc, hrest⟩ := behind_cons.mp hblock
      rw [List.flatMap_cons]
      by_cases hbreak : c = '\n'
      · have hlead : behind (startsIn p) (indentChar indent c) = true := by
          apply behind_of_not_mem
          simpa [indentChar, hbreak] using not_mem_of_isIndent hindent
        exact (firm_startsIn hp).behind_append hlead (ih hrest)
      · simp only [indentChar, hbreak, if_false, List.singleton_append]
        refine behind_cons.mpr ⟨fun heq => ?_, ih hrest⟩
        have hnext := hc heq
        cases rest with
        | nil => cases hnext
        | cons d others =>
            have hd : d ≠ '\n' := by
              rintro rfl
              have hink := hp '\n' hnext
              simp [isInk_newline] at hink
            simpa [indentChar, hd, startsIn_cons] using hnext

theorem behind_placeBlock (hp : ∀ c, p c = true → isInk c = true) {newline indent block : List Char}
    (hnewline : newline = [] ∨ newline = ['\n']) (hindent : ∀ x ∈ indent, isIndent x = true)
    (hblock : behind (startsIn p) block = true) :
    behind (startsIn p) (placeBlock newline indent block) = true := by
  unfold placeBlock
  split
  · rfl
  · have hfirm := firm_startsIn hp
    have hlead : behind (startsIn p) newline = true := by
      rcases hnewline with rfl | rfl <;> rfl
    rw [indentBlock_eq]
    exact hfirm.behind_append hlead (hfirm.behind_append
      (behind_of_not_mem (not_mem_of_isIndent hindent))
      (behind_flatMap_indentChar hp hindent hblock))

/-- A block put into a text: the text may pass a weaker test than the block. -/
theorem Firm.behind_splice (hfirm : Firm test) (hp : ∀ c, p c = true → isInk c = true)
    (hweaken : ∀ rest, startsIn p rest = true → test rest = true) {block : List Char}
    (htext : behind test text = true) (hblock : behind (startsIn p) block = true) :
    behind test (splice text name block) = true := by
  refine hfirm.behind_apply (spliceRule_marked name block) (fun text cut hrule => ?_) htext
  obtain ⟨newline, indent, _, _, hnewline, hindent, _, hput⟩ := spliceRule_eq_some hrule
  rw [hput]
  exact behind_mono hweaken (behind_placeBlock hp hnewline hindent hblock)

/-! ## Steady, inert and closed texts -/

theorem firm_steady : Firm startsSteady :=
  firm_startsIn fun _ hc => hc

theorem isInk_of_inert {c : Char} (hc : (isInk c && c != '\x7b') = true) : isInk c = true :=
  (Bool.and_eq_true_iff.mp hc).1

theorem firm_inert : Firm startsInert :=
  firm_startsIn fun _ hc => isInk_of_inert hc

theorem opensName_iff :
    opensName rest = true ↔ ∃ name after, rest = '\x7b' :: (name ++ '\x7d' :: after) ∧
      name ≠ [] ∧ '\x7d' ∉ name ∧ '$' ∉ name := by
  unfold opensName
  rw [Option.any_eq_true]
  constructor
  · rintro ⟨name, hname, hdollar⟩
    obtain ⟨⟨after, hafter⟩, hne, hbrace⟩ := placeholderName?_eq_some.mp hname
    refine ⟨name, after, ?_, hne, hbrace, by simpa using hdollar⟩
    simpa [placeholder] using hafter.symm
  · rintro ⟨name, after, rfl, hne, hbrace, hdollar⟩
    refine ⟨name, placeholderName?_eq_some.mpr ⟨⟨after, ?_⟩, hne, hbrace⟩, by simpa using hdollar⟩
    simp [placeholder]

/-- Blanks at the end of a text that ends in a visible character. -/
theorem eq_nil_of_white {x mid : List Char} (heq : x ++ [c] = a ++ mid) (hc : isWhite c = false)
    (hmid : ∀ y ∈ mid, isWhite y = true) : mid = [] := by
  rcases List.eq_nil_or_concat mid with hnil | ⟨front, last, rfl⟩
  · exact hnil
  · rw [List.concat_eq_append, ← List.append_assoc] at heq
    have hlast : c = last := by simpa using (List.append_inj' heq rfl).2
    have hwhite := hmid last (by simp)
    rw [← hlast, hc] at hwhite
    cases hwhite

/-- Behind blanks and a `$` a text without `$` has ended. -/
theorem white_of_no_dollar {mid after : List Char} (heq : w ++ '$' :: b = mid ++ after)
    (hw : ∀ x ∈ w, isWhite x = true) (hmid : '$' ∉ mid) : ∀ y ∈ mid, isWhite y = true := by
  rcases List.append_eq_append_iff.mp heq with ⟨more, rfl, hmore⟩ | ⟨more, rfl, _⟩
  · cases more with
    | nil => simpa using hw
    | cons d others =>
        rw [List.cons_append, List.cons.injEq] at hmore
        rw [← hmore.1] at hmid
        exact absurd (List.mem_append_right w List.mem_cons_self) hmid
  · exact fun y hy => hw y (List.mem_append_left more hy)

/-- A name in braces cannot be cut: it has no `$`, and no blank at its end. -/
theorem firm_closed : Firm startsClosed where
  append := by
    intro a b htest
    rcases Bool.or_eq_true_iff.mp htest with hinert | hopens
    · exact Bool.or_eq_true_iff.mpr (Or.inl (firm_inert.append b hinert))
    · obtain ⟨name, after, rfl, hname⟩ := opensName_iff.mp hopens
      refine Bool.or_eq_true_iff.mpr (Or.inr (opensName_iff.mpr ⟨name, after ++ b, ?_, hname⟩))
      simp
  cut := by
    intro a w b hw htest
    rcases Bool.or_eq_true_iff.mp htest with hinert | hopens
    · exact Bool.or_eq_true_iff.mpr (Or.inl (firm_inert.cut hw hinert))
    · obtain ⟨name, after, heq, hne, hbrace, hdollar⟩ := opensName_iff.mp hopens
      refine Bool.or_eq_true_iff.mpr (Or.inr (opensName_iff.mpr ?_))
      have hwhole : a ++ (w ++ '$' :: b) = ('\x7b' :: (name ++ ['\x7d'])) ++ after := by
        simpa using heq
      rcases List.append_eq_append_iff.mp hwhole with ⟨mid, hmid, hafter⟩ | ⟨mid, hmid, hafter⟩
      · have hfree : '$' ∉ mid := fun hmem => by
          have hin : '$' ∈ '\x7b' :: (name ++ ['\x7d']) := hmid ▸ List.mem_append_right a hmem
          simp [hdollar] at hin
        have hnil : mid = [] := eq_nil_of_white (x := '\x7b' :: name) hmid rfl
          (white_of_no_dollar hafter hw hfree)
        refine ⟨name, [], ?_, hne, hbrace, hdollar⟩
        rw [hnil, List.append_nil] at hmid
        exact hmid.symm
      · exact ⟨name, mid, by simpa using hmid, hne, hbrace, hdollar⟩

/-! ## What is left when placeholders are taken away -/

theorem apply_dropRule_sublist (text : List Char) : (Template.apply dropRule text).Sublist text := by
  refine apply_sublist dropRule_marked.advances (fun text cut hrule => ?_) text
  obtain ⟨name, _, rfl⟩ := dropRule_eq_some.mp hrule
  rfl

/-- A `$` that is kept has its next character kept as well, and so it starts no
placeholder afterwards. -/
theorem placeholderName?_apply_dropRule (hrule : dropRule ('$' :: rest) = none)
    (hrest : startsSteady rest = true) :
    placeholderName? ('$' :: Template.apply dropRule rest) = none := by
  cases rest with
  | nil => cases hrest
  | cons d others =>
      have hd : d ≠ '$' := by
        rintro rfl
        cases hrest
      have hkeep : dropRule (d :: others) = none :=
        dropRule_eq_none.mpr (placeholderName?_cons_of_ne hd)
      rw [apply_of_none hkeep]
      by_cases hbrace : d = '\x7b'
      · subst hbrace
        rw [dropRule_eq_none, placeholderName?_brace_eq_none] at hrule
        rw [placeholderName?_brace_eq_none]
        rcases hrule with hempty | hopen
        · left
          obtain ⟨more, rfl⟩ : ∃ more, others = '\x7d' :: more := by
            cases others with
            | nil => cases hempty
            | cons e more => exact ⟨more, by rw [Option.some.inj hempty]⟩
          have hnone : dropRule ('\x7d' :: more) = none :=
            dropRule_eq_none.mpr (placeholderName?_cons_of_ne (by decide))
          rw [apply_of_none hnone]
          rfl
        · exact Or.inr fun hmem => hopen ((apply_dropRule_sublist others).subset hmem)
      · exact placeholderName?_dollar_of_ne hbrace

/-- **Taking away the placeholders of a steady text leaves none.** -/
theorem placeholders_apply_dropRule (hsteady : isSteady text = true) :
    placeholders (Template.apply dropRule text) = [] := by
  revert hsteady
  refine apply_induct dropRule_marked.advances
    (motive := fun text result => isSteady text = true → placeholders result = []) ?_ ?_ ?_ text
  · exact fun _ => rfl
  · intro c rest hrule ih hsteady
    obtain ⟨hc, hrest⟩ := behind_cons.mp hsteady
    have hnone : placeholderName? (c :: Template.apply dropRule rest) = none := by
      by_cases hdollar : c = '$'
      · subst hdollar
        exact placeholderName?_apply_dropRule hrule (hc rfl)
      · exact placeholderName?_cons_of_ne hdollar
    rw [placeholders_cons_of_none hnone, ih hrest]
  · intro c rest cut hrule ih hsteady
    obtain ⟨name, _, rfl⟩ := dropRule_eq_some.mp hrule
    exact ih (behind_of_suffix (List.drop_suffix _ _) hsteady)

theorem Firm.behind_apply_dropLineRule (hfirm : Firm test) (hbehind : behind test text = true) :
    behind test (Template.apply dropLineRule text) = true := by
  refine hfirm.behind_apply dropLineRule_marked (fun text cut hrule => ?_) hbehind
  obtain ⟨_, _, name, _, _, _, rfl⟩ := dropLineRule_eq_some.mp hrule
  rfl

theorem Firm.behind_strip (hfirm : Firm test) (hbehind : behind test text = true) :
    behind test (strip text) = true := by
  refine hfirm.behind_apply dropRule_marked (fun text cut hrule => ?_)
    (hfirm.behind_apply_dropLineRule hbehind)
  obtain ⟨name, _, rfl⟩ := dropRule_eq_some.mp hrule
  rfl

theorem placeholders_strip (hsteady : isSteady text = true) : placeholders (strip text) = [] :=
  placeholders_apply_dropRule (firm_steady.behind_apply_dropLineRule hsteady)

theorem startsSteady_of_inert (hrest : startsInert rest = true) : startsSteady rest = true := by
  cases rest with
  | nil => cases hrest
  | cons c others => exact isInk_of_inert hrest

theorem startsSteady_of_closed (hrest : startsClosed rest = true) : startsSteady rest = true := by
  rcases Bool.or_eq_true_iff.mp hrest with hinert | hopens
  · exact startsSteady_of_inert hinert
  · obtain ⟨name, after, rfl, _⟩ := opensName_iff.mp hopens
    rfl

theorem startsClosed_of_inert (hrest : startsInert rest = true) : startsClosed rest = true :=
  Bool.or_eq_true_iff.mpr (Or.inl hrest)

/-- A closed text without placeholders is inert. -/
theorem isInert_of_placeholders (hclosed : isClosed text = true) (hnone : placeholders text = []) :
    isInert text = true := by
  induction text with
  | nil => rfl
  | cons c rest ih =>
      obtain ⟨hc, hrest⟩ := behind_cons.mp hclosed
      have hname : placeholderName? (c :: rest) = none := by
        rw [Option.eq_none_iff_forall_ne_some]
        exact fun name hname => placeholders_ne_nil_of_some hname hnone
      rw [placeholders_cons_of_none hname] at hnone
      refine behind_cons.mpr ⟨fun heq => ?_, ih hrest hnone⟩
      rcases Bool.or_eq_true_iff.mp (hc heq) with hinert | hopens
      · exact hinert
      · rw [opensName, ← heq, hname] at hopens
        cases hopens

/-- **Taking away the placeholders of a closed text leaves an inert one.** -/
theorem isInert_strip (hclosed : isClosed text = true) : isInert (strip text) = true :=
  isInert_of_placeholders (firm_closed.behind_strip hclosed)
    (placeholders_strip (behind_mono (fun _ => startsSteady_of_closed) hclosed))

/-- No placeholder starts in an inert text, whatever stands behind it. -/
theorem placeholderName?_of_inert (hinert : isInert text = true) (hne : text ≠ [])
    (b : List Char) : placeholderName? (text ++ b) = none := by
  cases text with
  | nil => exact absurd rfl hne
  | cons c rest =>
      obtain ⟨hc, _⟩ := behind_cons.mp hinert
      by_cases hdollar : c = '$'
      · subst hdollar
        have hnext := hc rfl
        cases rest with
        | nil => cases hnext
        | cons d others =>
            apply placeholderName?_dollar_of_ne
            intro heq
            rw [heq] at hnext
            cases hnext
      · exact placeholderName?_cons_of_ne hdollar

/-- An inert text has no placeholders. -/
theorem placeholders_of_inert (hinert : isInert text = true) : placeholders text = [] := by
  induction text with
  | nil => rfl
  | cons c rest ih =>
      have hname := placeholderName?_of_inert hinert (List.cons_ne_nil c rest) []
      rw [List.append_nil] at hname
      rw [placeholders_cons_of_none hname, ih (behind_cons.mp hinert).2]

end NodeWeave.Template
