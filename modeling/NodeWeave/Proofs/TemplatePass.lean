import NodeWeave.Template

/-!
# Passes over a text

All operations on templates go over a text once, from left to right, and apply a
rule wherever it fits.  `apply_induct` is the induction that follows such a pass:
the text is empty, or its first character is kept, or the rule takes its front.
Filling in a text under a name is a pass too (`substitute_eq_apply`), although it
is defined by cutting the template into pieces.

A pass over two texts in a row is a pass over each of them as long as the rule
decides about every end of the first one without a look at the second
(`apply_append`).
-/

namespace NodeWeave.Template

variable {rule : List Char → Option Cut} {a b text rest : List Char} {c : Char} {cut : Cut}

/-- Wherever the rule fits it takes at least one character. -/
def Advances (rule : List Char → Option Cut) : Prop :=
  ∀ text cut, rule text = some cut → 0 < cut.taken

theorem applyFrom_eq_drop (rule : List Char → Option Cut) (skip : Nat) (text : List Char) :
    applyFrom rule skip text = apply rule (text.drop skip) := by
  induction text generalizing skip with
  | nil => simp [apply, applyFrom]
  | cons c rest ih =>
      cases skip with
      | zero => rfl
      | succ skip => exact ih skip

theorem apply_of_none (hrule : rule (c :: rest) = none) :
    apply rule (c :: rest) = c :: apply rule rest := by
  simp only [apply, applyFrom, hrule]

theorem apply_of_some (hadvances : Advances rule) (hrule : rule (c :: rest) = some cut) :
    apply rule (c :: rest) = cut.put ++ apply rule ((c :: rest).drop cut.taken) := by
  have hpos := hadvances _ _ hrule
  obtain ⟨taken, htaken⟩ : ∃ taken, cut.taken = taken + 1 := ⟨cut.taken - 1, by omega⟩
  simp only [apply, applyFrom, hrule, htaken, Nat.add_sub_cancel, List.drop_succ_cons]
  rw [applyFrom_eq_drop]
  rfl

/-- **Induction along a pass.** -/
theorem apply_induct (hadvances : Advances rule) {motive : List Char → List Char → Prop}
    (nil : motive [] [])
    (keep : ∀ c rest, rule (c :: rest) = none → motive rest (apply rule rest) →
      motive (c :: rest) (c :: apply rule rest))
    (take : ∀ c rest cut, rule (c :: rest) = some cut →
      motive ((c :: rest).drop cut.taken) (apply rule ((c :: rest).drop cut.taken)) →
      motive (c :: rest) (cut.put ++ apply rule ((c :: rest).drop cut.taken)))
    (text : List Char) : motive text (apply rule text) := by
  -- what is left after a cut is no tail of the text, but it is shorter
  induction hlength : text.length using Nat.strongRecOn generalizing text with
  | ind length ih =>
      cases text with
      | nil => exact nil
      | cons c rest =>
          rw [List.length_cons] at hlength
          cases hrule : rule (c :: rest) with
          | none =>
              rw [apply_of_none hrule]
              exact keep c rest hrule (ih rest.length (by omega) rest rfl)
          | some cut =>
              have hpos := hadvances _ _ hrule
              have hshorter : ((c :: rest).drop cut.taken).length < length := by
                rw [List.length_drop, List.length_cons]
                omega
              rw [apply_of_some hadvances hrule]
              exact take c rest cut hrule (ih _ hshorter _ rfl)

/-- The rule says the same of each end of the first text whether or not the second
text stands behind it, and it never takes anything of the second. -/
def DecidesIn (rule : List Char → Option Cut) (a b : List Char) : Prop :=
  ∀ y, y <:+ a → y ≠ [] → rule (y ++ b) = rule y ∧ ∀ cut, rule y = some cut → cut.taken ≤ y.length

/-- **A pass over two texts in a row.** -/
theorem apply_append (hadvances : Advances rule) (hdecides : DecidesIn rule a b) :
    apply rule (a ++ b) = apply rule a ++ apply rule b := by
  revert hdecides
  refine apply_induct hadvances
    (motive := fun a result => DecidesIn rule a b → apply rule (a ++ b) = result ++ apply rule b)
    ?_ ?_ ?_ a
  · intro _
    rfl
  · intro c rest hrule ih hdecides
    have hsame := (hdecides (c :: rest) List.suffix_rfl (List.cons_ne_nil c rest)).1
    have hrest : DecidesIn rule rest b := fun y hy hne =>
      hdecides y (hy.trans (List.suffix_cons c rest)) hne
    rw [List.cons_append, apply_of_none (by rw [← List.cons_append, hsame, hrule]), ih hrest]
    rfl
  · intro c rest cut hrule ih hdecides
    obtain ⟨hsame, hinside⟩ := hdecides (c :: rest) List.suffix_rfl (List.cons_ne_nil c rest)
    have hafter : DecidesIn rule ((c :: rest).drop cut.taken) b := fun y hy hne =>
      hdecides y (hy.trans (List.drop_suffix _ _)) hne
    have hdrop : (c :: rest ++ b).drop cut.taken = (c :: rest).drop cut.taken ++ b :=
      List.drop_append_of_le_length (hinside cut hrule)
    rw [List.cons_append] at hsame hdrop ⊢
    rw [apply_of_some hadvances (hsame.trans hrule), hdrop, ih hafter, List.append_assoc]

/-- A pass whose rule fits nowhere changes nothing. -/
theorem apply_eq_self (hnone : ∀ y, y <:+ text → y ≠ [] → rule y = none) : apply rule text = text := by
  induction text with
  | nil => rfl
  | cons c rest ih =>
      have hrest := ih fun y hy hne => hnone y (hy.trans (List.suffix_cons c rest)) hne
      rw [apply_of_none (hnone _ List.suffix_rfl (List.cons_ne_nil c rest)), hrest]

/-- A pass that puts nothing in only leaves characters out. -/
theorem apply_sublist (hadvances : Advances rule)
    (hput : ∀ text cut, rule text = some cut → cut.put = []) (text : List Char) :
    (apply rule text).Sublist text := by
  refine apply_induct hadvances (motive := fun text result => result.Sublist text) ?_ ?_ ?_ text
  · exact List.Sublist.refl []
  · intro c rest _ ih
    exact ih.cons_cons c
  · intro c rest cut hrule ih
    rw [hput _ _ hrule, List.nil_append]
    exact ih.trans (List.drop_sublist _ _)

/-! ## Filling in -/

/-- Takes the placeholder of a name and puts a text there. -/
def fillRule (name put : List Char) (text : List Char) : Option Cut :=
  if (placeholder name).isPrefixOf text then some ⟨(placeholder name).length, put⟩ else none

theorem fillRule_eq_some {name put : List Char} :
    fillRule name put text = some cut ↔
      placeholder name <+: text ∧ cut = ⟨(placeholder name).length, put⟩ := by
  rw [← List.isPrefixOf_iff_prefix]
  unfold fillRule
  split
  · rename_i hmark
    rw [Option.some.injEq]
    exact ⟨fun heq => ⟨hmark, heq.symm⟩, fun h => h.2.symm⟩
  · rename_i hmark
    exact ⟨(nomatch ·), fun h => absurd h.1 hmark⟩

theorem fillRule_eq_none {name put : List Char} :
    fillRule name put text = none ↔ ¬ placeholder name <+: text := by
  rw [← List.isPrefixOf_iff_prefix]
  unfold fillRule
  split
  · rename_i hmark
    exact ⟨(nomatch ·), fun hno => absurd hmark hno⟩
  · rename_i hmark
    exact ⟨fun _ => hmark, fun _ => rfl⟩

theorem fillRule_advances (name put : List Char) : Advances (fillRule name put) := by
  intro text cut hrule
  obtain ⟨_, rfl⟩ := fillRule_eq_some.mp hrule
  simp [placeholder]

theorem splitFrom_ne_nil (mark : List Char) (skip : Nat) (piece text : List Char) :
    splitFrom mark skip piece text ≠ [] := by
  induction text generalizing skip piece with
  | nil => simp [splitFrom]
  | cons c rest ih =>
      cases skip with
      | succ skip => exact ih skip piece
      | zero =>
          unfold splitFrom
          dsimp only
          split
          · exact List.cons_ne_nil _ _
          · exact ih 0 (c :: piece)

/-- Joining the pieces again, with another text between them. -/
theorem intercalate_splitFrom (name put : List Char) (skip : Nat) (piece text : List Char) :
    put.intercalate (splitFrom (placeholder name) skip piece text) =
      piece.reverse ++ applyFrom (fillRule name put) skip text := by
  induction text generalizing skip piece with
  | nil => simp [splitFrom, applyFrom, List.intercalate]
  | cons c rest ih =>
      cases skip with
      | succ skip => exact ih skip piece
      | zero =>
          unfold splitFrom applyFrom
          by_cases hmark : placeholder name <+: c :: rest
          · have hrule : fillRule name put (c :: rest) = some ⟨(placeholder name).length, put⟩ :=
              fillRule_eq_some.mpr ⟨hmark, rfl⟩
            simp only [List.isPrefixOf_iff_prefix.mpr hmark, if_true, hrule]
            rw [List.intercalate_cons_of_ne_nil (splitFrom_ne_nil _ _ _ _), ih]
            simp
          · have hrule : fillRule name put (c :: rest) = none := fillRule_eq_none.mpr hmark
            simp only [List.isPrefixOf_iff_prefix, hmark, if_false, hrule, ih]
            simp

/-- **Filling in a text under a name is a pass.** -/
theorem substitute_eq_apply (template name put : List Char) :
    substitute template name put = apply (fillRule name put) template := by
  simp only [substitute, split, intercalate_splitFrom, List.reverse_nil, List.nil_append, apply]

end NodeWeave.Template
