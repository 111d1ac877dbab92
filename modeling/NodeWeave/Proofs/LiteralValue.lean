import NodeWeave.Proofs.ClosedText
import NodeWeave.Proofs.PlaceholderFree

/-!
# Values are inserted as they are

The text of a value is put into a template before everything else, and all later
passes go over it again.  They leave it alone as long as nothing in it can start a
placeholder, that is, as long as it is inert: the invariant `Holds` says that the
text stands in the template between two closed texts, and each pass treats the three
parts on their own.

The pass that takes away a placeholder at the start of a line also takes the blanks
and the line break before it.  These may come from the value, and so the last line of
the value must not be blank.
-/

namespace NodeWeave

namespace Template

variable {a b value text name put : List Char}

/-- A text that holds another one, with closed texts on both sides. -/
def Holds (value text : List Char) : Prop :=
  ∃ a b, text = a ++ (value ++ b) ∧ isClosed a = true ∧ isClosed b = true

/-- Is the last line of the text not blank?  The empty text counts as well. -/
def endsInLine (text : List Char) : Bool :=
  text.isEmpty || (text.reverse.dropWhile isIndent).head?.any (· != '\n')

/-- The blanks at the end of such a text have no line break before them. -/
theorem not_blank_of_endsInLine {r : List Char} (hvalue : endsInLine value = true)
    (hne : value ≠ []) (hsuffix : '\n' :: r <:+ a ++ value) : ¬ ∀ x ∈ r, isIndent x = true := by
  intro hblank
  have hlast : (value.reverse.dropWhile isIndent).head?.any (· != '\n') = true := by
    simpa [endsInLine, hne] using hvalue
  obtain ⟨front, hfront⟩ := hsuffix
  have hreverse := congrArg (fun t => (t.reverse.dropWhile isIndent).head?) hfront
  have hline : ((front ++ '\n' :: r).reverse.dropWhile isIndent).head? = some '\n' := by
    rw [List.reverse_append, List.reverse_cons, List.append_assoc, List.dropWhile_append_of_pos]
    · rfl
    · exact fun x hx => hblank x (List.mem_reverse.mp hx)
  have hkept : ((a ++ value).reverse.dropWhile isIndent).head? =
      (value.reverse.dropWhile isIndent).head? := by
    cases hdrop : value.reverse.dropWhile isIndent with
    | nil =>
        rw [hdrop] at hlast
        cases hlast
    | cons x rest => simp [List.dropWhile_append, hdrop]
  rw [← hkept, ← hreverse, hline] at hlast
  cases hlast

/-! ## Taking placeholders away -/

theorem length_placeholder (name : List Char) : (placeholder name).length = name.length + 3 := by
  simp [placeholder]

theorem placeholderName?_append (hclosed : isClosed a = true) (hne : a ≠ []) (b : List Char) :
    placeholderName? (a ++ b) = placeholderName? a := by
  ext name
  rw [placeholderName?_eq_some, placeholderName?_eq_some]
  constructor
  · intro h
    exact ⟨placeholder_prefix_of_append hclosed hne h.2.2 h.1, h.2⟩
  · intro h
    exact ⟨h.1.trans (List.prefix_append a b), h.2⟩

theorem dropRule_decidesIn (hclosed : isClosed a = true) (b : List Char) : DecidesIn dropRule a b := by
  intro y hsuffix hne
  have hsame := placeholderName?_append (behind_of_suffix hsuffix hclosed) hne b
  refine ⟨by rw [dropRule, dropRule, hsame], fun cut hrule => ?_⟩
  obtain ⟨name, hname, rfl⟩ := dropRule_eq_some.mp hrule
  rw [← length_placeholder]
  exact (placeholderName?_eq_some.mp hname).1.length_le

/-- A placeholder with the blanks before it, where the text behind has no part in
either. -/
theorem dropLineRule_decidesIn (hclosed : isClosed a = true)
    (hline : ∀ r after, '\n' :: r <:+ a → (∀ x ∈ r, isIndent x = true) → after <:+ b →
      placeholderName? after = none) :
    DecidesIn dropLineRule a b := by
  intro y hsuffix hne
  constructor
  · ext cut
    rw [dropLineRule_eq_some, dropLineRule_eq_some]
    constructor
    · intro h
      obtain ⟨indent, after, name, htext, hindent, hname, rfl⟩ := h
      cases y with
      | nil => exact absurd rfl hne
      | cons c r =>
          rw [List.cons_append, List.cons.injEq] at htext
          obtain ⟨rfl, htext⟩ := htext
          rcases List.append_eq_append_iff.mp htext with ⟨mid, rfl, hb⟩ | ⟨mid, rfl, rfl⟩
          · -- the blanks reach into the second text
            have hblank : ∀ x ∈ r, isIndent x = true := fun x hx =>
              hindent x (List.mem_append_left mid hx)
            rw [hline r after hsuffix hblank ⟨mid, hb.symm⟩] at hname
            cases hname
          · by_cases hmid : mid = []
            · subst hmid
              rw [List.append_nil] at hsuffix
              rw [List.nil_append, hline indent b hsuffix hindent List.suffix_rfl] at hname
              cases hname
            · have hinner : mid <:+ a :=
                ((List.suffix_append indent mid).trans (List.suffix_cons _ _)).trans hsuffix
              rw [placeholderName?_append (behind_of_suffix hinner hclosed) hmid] at hname
              exact ⟨indent, mid, name, rfl, hindent, hname, rfl⟩
    · intro h
      obtain ⟨indent, after, name, rfl, hindent, hname, rfl⟩ := h
      obtain ⟨hstarts, hrest⟩ := placeholderName?_eq_some.mp hname
      refine ⟨indent, after ++ b, name, by simp, hindent, ?_, rfl⟩
      exact placeholderName?_eq_some.mpr ⟨hstarts.trans (List.prefix_append after b), hrest⟩
  · intro cut hrule
    obtain ⟨indent, after, name, rfl, _, hname, rfl⟩ := dropLineRule_eq_some.mp hrule
    have hlength := (placeholderName?_eq_some.mp hname).1.length_le
    rw [length_placeholder] at hlength
    simp only [List.length_cons, List.length_append]
    omega

theorem placeholderName?_suffix (hinert : isInert text = true) (hsuffix : b <:+ text) :
    placeholderName? b = none := by
  cases b with
  | nil => rfl
  | cons c rest =>
      have hnone := placeholderName?_of_inert (behind_of_suffix hsuffix hinert)
        (List.cons_ne_nil c rest) []
      rw [List.append_nil] at hnone
      exact hnone

theorem apply_dropRule_of_inert (hinert : isInert text = true) :
    Template.apply dropRule text = text :=
  apply_eq_self fun _ hsuffix _ => dropRule_eq_none.mpr (placeholderName?_suffix hinert hsuffix)

theorem apply_dropLineRule_of_inert (hinert : isInert text = true) :
    Template.apply dropLineRule text = text := by
  apply apply_eq_self
  intro y hsuffix _
  rw [Option.eq_none_iff_forall_ne_some]
  intro cut hrule
  obtain ⟨indent, after, name, rfl, _, hname, _⟩ := dropLineRule_eq_some.mp hrule
  have hafter : after <:+ text :=
    ((List.suffix_append indent after).trans (List.suffix_cons _ _)).trans hsuffix
  rw [placeholderName?_suffix hinert hafter] at hname
  cases hname

namespace Holds

/-- A template with the value filled in holds it. -/
theorem of_substitute (hclosed : isClosed text = true) (hmark : placeholder name <:+: text)
    (hname : '\x7d' ∉ name) (hvalue : isClosed value = true) :
    Holds value (substitute text name value) := by
  obtain ⟨a, b, rfl⟩ := hmark
  have ha : isClosed a = true := by
    refine firm_closed.behind_front (w := []) (b := '\x7b' :: name ++ ['\x7d'] ++ b) (by simp) ?_
    rw [List.append_assoc] at hclosed
    exact hclosed
  have hb : isClosed b = true := behind_of_suffix (List.suffix_append _ b) hclosed
  refine ⟨substitute a name value, substitute b name value, ?_,
    firm_closed.behind_substitute ha hvalue, firm_closed.behind_substitute hb hvalue⟩
  rw [List.append_assoc, substitute_append ha hname, substitute_placeholder_append]

/-- Filling in another name leaves the value alone. -/
theorem substitute (hholds : Holds value text) (hvalue : isInert value = true)
    (hname : '\x7d' ∉ name) (hput : isClosed put = true) :
    Holds value (substitute text name put) := by
  obtain ⟨a, b, rfl, ha, hb⟩ := hholds
  refine ⟨Template.substitute a name put, Template.substitute b name put, ?_,
    firm_closed.behind_substitute ha hput, firm_closed.behind_substitute hb hput⟩
  rw [substitute_append ha hname, substitute_append (isClosed_of_inert hvalue) hname,
    substitute_of_inert hvalue]

/-- Taking placeholders away leaves the value alone. -/
theorem infix_strip (hholds : Holds value text) (hvalue : isInert value = true)
    (hlast : endsInLine value = true) : value <:+: strip text := by
  by_cases hne : value = []
  · subst hne
    exact List.nil_infix
  · obtain ⟨a, b, rfl, ha, hb⟩ := hholds
    have hfront : isClosed (a ++ value) = true :=
      firm_closed.behind_append ha (isClosed_of_inert hvalue)
    have hlines : Template.apply dropLineRule (a ++ (value ++ b)) =
        Template.apply dropLineRule a ++ (value ++ Template.apply dropLineRule b) := by
      rw [← List.append_assoc,
        apply_append dropLineRule_marked.advances (dropLineRule_decidesIn hfront
          fun r after hsuffix hblank _ =>
            absurd hblank (not_blank_of_endsInLine hlast hne hsuffix)),
        apply_append dropLineRule_marked.advances (dropLineRule_decidesIn ha
          fun r after _ _ hafter => placeholderName?_suffix hvalue hafter),
        apply_dropLineRule_of_inert hvalue, List.append_assoc]
    refine ⟨Template.apply dropRule (Template.apply dropLineRule a),
      Template.apply dropRule (Template.apply dropLineRule b), ?_⟩
    rw [strip, hlines,
      apply_append dropRule_marked.advances
        (dropRule_decidesIn (firm_closed.behind_apply_dropLineRule ha) _),
      apply_append dropRule_marked.advances (dropRule_decidesIn (isClosed_of_inert hvalue) _),
      apply_dropRule_of_inert hvalue, List.append_assoc]

end Holds

end Template

namespace Program

open Template

variable {b : Bounds} {c : Catalog} {g : Graph} {limit : Value} {n : Node} {p : Port} {l : Link}
  {path : List Scalar} {code value text filled : List Char}

/-- One link. -/
theorem holds_applyLink (hmade : MadeOf startsClosed c g) (hnames : g.NamesAvoid ['\x7d'])
    (hvalue : isInert value = true) {room : Nat} (hholds : Holds value code)
    (happly : applyLink g (fun m q => b.under 2 fun b => expressionIn c g limit room b path m q)
      code l = .ok filled) :
    Holds value filled := by
  rcases applyLink_eq_ok.mp happly with ⟨_, rfl⟩ | ⟨input, t, text, hfeed, htext, hnamed⟩
  · exact hholds
  · rcases applyNamed_eq_ok.mp hnamed with ⟨_, rfl⟩ | ⟨key, hkey, rfl⟩
    · exact hholds
    · obtain ⟨below, _, htext⟩ := Bounds.under_eq_ok.mp htext
      have hfree := hnames.not_mem (feed?_eq_some.mp hfeed).1 hkey (List.mem_singleton_self _)
      have hinert : isInert text = true := tame_closed.behind_of_stripped
        (expressionIn_stripped tame_closed hmade room (producer_mem hfeed) htext)
      exact hholds.substitute hvalue hfree (isClosed_of_inert hinert)

/-- **A value is inserted as it is.**  The sources of the program are closed, the
text of the value itself is inert and does not end in a blank line, and no port has a
closing brace in its name. -/
theorem expression_contains_value (hmade : MadeOf startsClosed c g)
    (hnames : g.NamesAvoid ['\x7d']) (hn : n ∈ g.nodes) (hvalue : valueText? n = some value)
    (hinert : isInert value = true) (hlast : endsInLine value = true)
    (hcode : outputTemplate? c n p = some code) (hmark : placeholder "value".toList <:+: code)
    (htext : expressionWithin b c g limit path n p = .ok text) : value <:+: text := by
  obtain ⟨_, room, _, ⟨hnone, _⟩ | ⟨found, filled, hfound, _, hfilled, rfl⟩⟩ :=
    expressionIn_eq_ok.mp htext
  · rw [hcode] at hnone
    cases hnone
  · rw [hcode] at hfound
    cases hfound
    have hclosed : isClosed code = true := hmade.codes n hn code (outputTemplate?_mem hcode)
    have hstart : Holds value (applyValue n code) := by
      rw [applyValue_eq, hvalue]
      exact Holds.of_substitute hclosed hmark (by decide) (isClosed_of_inert hinert)
    have hinputs : Holds value filled :=
      foldlM_induct (motive := Holds value) hfilled hstart fun _ _ _ _ hholds happly =>
        holds_applyLink hmade hnames hinert hholds happly
    have hid : Holds value (applyId n filled) :=
      hinputs.substitute hinert (by decide) (hmade.ids n hn)
    exact hid.infix_strip hinert hlast

/-- A note with a text under an id. -/
def noteWith (value : String) (id : Int) : Node :=
  { noteNode "note" id with value := .str value }

/-- Two notes, of which the first is brought to the second. -/
def notePair (first second : String) : Graph :=
  { nodes := [noteWith first 0, noteWith second 1]
    links := [⟨.int 0, ⟨.int 0, .output, 0⟩, ⟨.int 1, .input, 0⟩⟩] }

/-- The expression of the second of two notes. -/
def pairExpression (first second : String) : Except Fault (List Char) :=
  expressionWithin Nesting.direct.ofText noteCatalog (notePair first second) (.int 256) []
    (noteWith second 1) (((noteWith second 1).ports .output).headD default)

/-- A text with a `$`, braces and a line break. -/
theorem expression_contains_value_note :
    MadeOf startsClosed noteCatalog (notePair "$5 each" "10 \x7bnet\x7d\n  of $20") ∧
      ∃ text, pairExpression "$5 each" "10 \x7bnet\x7d\n  of $20" = .ok text ∧
        "10 \x7bnet\x7d\n  of $20".toList <:+: text := by
  have hmade : MadeOf startsClosed noteCatalog (notePair "$5 each" "10 \x7bnet\x7d\n  of $20") := by
    decide +kernel
  have hnames : (notePair "$5 each" "10 \x7bnet\x7d\n  of $20").NamesAvoid ['\x7d'] := by
    decide +kernel
  have htext : pairExpression "$5 each" "10 \x7bnet\x7d\n  of $20" =
      .ok "'10 \x7bnet\x7d\n  of $20''$5 each'".toList :=
    eq_ok_of_toOption (by decide +kernel)
  have hcode : outputTemplate? noteCatalog (noteWith "10 \x7bnet\x7d\n  of $20" 1)
      (((noteWith "10 \x7bnet\x7d\n  of $20" 1).ports .output).headD default) =
        some "'$\x7bvalue\x7d'$\x7bmore\x7d$\x7bless\x7d".toList := by
    decide +kernel
  refine ⟨hmade, _, htext, ?_⟩
  exact expression_contains_value hmade hnames (List.mem_cons_of_mem _ (List.mem_singleton_self _))
    (by decide +kernel) (by decide) (by decide) hcode
    ⟨"'".toList, "'$\x7bmore\x7d$\x7bless\x7d".toList, by decide⟩ htext

/-- **Values that are not inserted as they are.**  A placeholder in a value is filled
in, or taken away when nothing fills it. -/
theorem expression_alters_value :
    (pairExpression "1" "Total: $\x7bamount\x7d").toOption = some "'Total: ''1'".toList ∧
      (pairExpression "1" "No. $\x7bnodeId\x7d of $\x7bmore\x7d").toOption =
        some "'No. 1 of '1'''1'".toList := by
  decide +kernel

end Program

end NodeWeave
