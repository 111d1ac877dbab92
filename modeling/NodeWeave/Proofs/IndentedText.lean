import NodeWeave.Proofs.ClosedText

/-!
# Indented texts

A block that is put in place of a placeholder is indented line by line.  `indented`
says so with the lines of the library, and `indentBlock_eq_indented` that the templates
do the same.  Indentations add up (`indented_indented`), and a line break is as good a
place as any to take an indented text apart (`indented_line`).

A placeholder that stands first on a line after a text without `$` is replaced by its
block and by nothing else (`splice_line`): neither the line before it nor what stands
behind it changes.
-/

namespace NodeWeave.Template

variable {head newline indent tail block name text w v : List Char}

/-- The lines of a text, each behind an indentation. -/
def indented (indent text : List Char) : List Char :=
  ['\n'].intercalate ((text.splitOn '\n').map (indent ++ ·))

theorem modifyHead_nil_append {α : Type} (ls : List (List α)) :
    ls.modifyHead ([] ++ ·) = ls := by
  cases ls <;> rfl

/-- The pieces of a text are those of the library. -/
theorem splitFrom_newline (piece text : List Char) :
    splitFrom ['\n'] 0 piece text = (text.splitOn '\n').modifyHead (piece.reverse ++ ·) := by
  induction text generalizing piece with
  | nil => simp [splitFrom]
  | cons c rest ih =>
      have hsplit : (c :: rest).splitOn '\n' = if c = '\n' then [] :: rest.splitOn '\n'
          else (rest.splitOn '\n').modifyHead (c :: ·) := by
        simp only [List.splitOn, List.splitOnP_cons_eq_if_modifyHead, beq_iff_eq]
      have hmark : ['\n'].isPrefixOf (c :: rest) = decide (c = '\n') := by
        rw [Bool.eq_iff_iff, List.isPrefixOf_iff_prefix, List.cons_prefix_cons, decide_eq_true_eq]
        exact ⟨fun h => h.1.symm, fun h => ⟨h.symm, List.nil_prefix⟩⟩
      unfold splitFrom
      rw [hsplit]
      simp only [hmark, decide_eq_true_eq, List.length_singleton, Nat.sub_self, ih]
      split
      · rw [List.reverse_nil, modifyHead_nil_append, List.modifyHead_cons, List.append_nil]
      · rw [List.modifyHead_modifyHead]
        simp [Function.comp_def]

/-- **Templates indent a block line by line.** -/
theorem indentBlock_eq_indented (indent block : List Char) :
    indentBlock indent block = indented indent block := by
  have hlines : lines block = block.splitOn '\n' := by
    rw [lines, split, splitFrom_newline]
    exact modifyHead_nil_append _
  rw [indentBlock, hlines, indented]

theorem indented_eq (indent text : List Char) :
    indented indent text = indent ++ text.flatMap (indentChar indent) := by
  rw [← indentBlock_eq_indented, indentBlock_eq]

theorem indented_append (w a b : List Char) :
    indented w (a ++ b) = indented w a ++ b.flatMap (indentChar w) := by
  simp only [indented_eq, List.flatMap_append, List.append_assoc]

/-- Two texts on lines of their own are indented on their own. -/
theorem indented_line (w a b : List Char) :
    indented w (a ++ '\n' :: b) = indented w a ++ '\n' :: indented w b := by
  simp [indented_eq, indentChar]

theorem flatMap_indentChar (hline : '\n' ∉ text) : text.flatMap (indentChar w) = text := by
  induction text with
  | nil => rfl
  | cons c rest ih =>
      rw [List.mem_cons, not_or] at hline
      rw [List.flatMap_cons, ih hline.2, indentChar, if_neg (Ne.symm hline.1)]
      rfl

/-- **Indentations add up.** -/
theorem indented_indented (hline : '\n' ∉ v) (text : List Char) :
    indented w (indented v text) = indented (w ++ v) text := by
  have hchar : ∀ c, (indentChar v c).flatMap (indentChar w) = indentChar (w ++ v) c := by
    intro c
    by_cases hc : c = '\n'
    · simp [indentChar, hc, flatMap_indentChar hline]
    · simp [indentChar, hc]
  rw [indented_eq v, indented_append, indented_eq, indented_eq, flatMap_indentChar hline,
    List.flatMap_assoc]
  simp only [hchar]

/-- A text without indentation is as it was. -/
theorem indented_nil (text : List Char) : indented [] text = text := by
  simp [indented, List.intercalate_splitOn]

/-- A line starts behind the text. -/
def OpensLine (text : List Char) : Prop :=
  text = [] ∨ ∃ lines, text = lines ++ ['\n']

theorem OpensLine.after_line (h : OpensLine text) (head : List Char) :
    OpensLine (head ++ '\n' :: text) := by
  rcases h with rfl | ⟨lines, rfl⟩
  · exact Or.inr ⟨head, rfl⟩
  · exact Or.inr ⟨head ++ '\n' :: lines, by simp⟩

/-- **What stands on lines of its own in a text stands there indented**, when the text is
indented as a whole. -/
theorem OpensLine.indented {before : List Char} (h : OpensLine before) (w text after : List Char) :
    ∃ before' after', Template.indented w (before ++ (text ++ after)) =
      before' ++ (Template.indented w text ++ after') ∧ OpensLine before' := by
  rcases h with rfl | ⟨lines, rfl⟩
  · exact ⟨[], after.flatMap (indentChar w), indented_append w text after, Or.inl rfl⟩
  · refine ⟨Template.indented w lines ++ ['\n'], after.flatMap (indentChar w), ?_, Or.inr ⟨_, rfl⟩⟩
    rw [List.append_assoc, List.singleton_append, indented_line, indented_append]
    simp

/-- An indented text has no other characters than its indentation and its text. -/
theorem not_mem_indented {c : Char} (hw : c ∉ w) (htext : c ∉ text) : c ∉ indented w text := by
  rw [indented_eq, List.mem_append, not_or, List.mem_flatMap]
  refine ⟨hw, ?_⟩
  intro hmem
  obtain ⟨d, hd, hc⟩ := hmem
  unfold indentChar at hc
  split at hc
  · rename_i hbreak
    rcases List.mem_cons.mp hc with hc | hc
    · exact htext (by rwa [hc, ← hbreak])
    · exact hw hc
  · exact htext (List.mem_singleton.mp hc ▸ hd)

theorem newline_not_mem (hindent : ∀ x ∈ indent, isIndent x = true) : '\n' ∉ indent := by
  intro hmem
  have hbreak := hindent '\n' hmem
  simp [isIndent] at hbreak

/-! ## A block on lines of its own -/

/-- The first `$` behind a line break does not follow on blanks that stand before it. -/
theorem append_newline_ne (hhead : '$' ∉ head) (hindent : ∀ x ∈ indent, isIndent x = true)
    (rest after : List Char) : head ++ '\n' :: rest ≠ indent ++ '$' :: after := by
  intro heq
  rcases List.append_eq_append_iff.mp heq with ⟨between, hindent', hrest⟩ | ⟨between, hhead', hrest⟩
  · cases between with
    | nil => cases hrest
    | cons c others =>
        cases hrest
        exact newline_not_mem hindent (by simp [hindent'])
  · cases between with
    | nil => cases hrest
    | cons c others =>
        cases hrest
        exact hhead (by simp [hhead'])

/-- What stands before a line break has no part in what is spliced behind it. -/
theorem spliceRule_before_newline (hhead : '$' ∉ head) (hne : head ≠ []) (rest : List Char) :
    spliceRule name block (head ++ '\n' :: rest) = none := by
  rw [Option.eq_none_iff_forall_ne_some]
  intro cut hrule
  obtain ⟨newline, indent, after, htext, hnewline, hindent, _⟩ := spliceRule_eq_some hrule
  rcases hnewline with hnone | hone
  · rw [hnone] at htext
    exact append_newline_ne hhead hindent rest _ htext
  · -- the line break that goes with the placeholder would be the first character
    obtain ⟨c, others, hcons⟩ := List.exists_cons_of_ne_nil hne
    rw [hone, hcons] at htext
    have hothers : '$' ∉ others := by
      intro hmem
      exact hhead (hcons ▸ List.mem_cons_of_mem c hmem)
    exact append_newline_ne hothers hindent rest _ (List.cons.inj htext).2

theorem spliceRule_of_not_mem (htext : '$' ∉ text) : spliceRule name block text = none := by
  rw [Option.eq_none_iff_forall_ne_some]
  intro cut hrule
  obtain ⟨newline, indent, after, htext', _⟩ := spliceRule_eq_some hrule
  apply htext
  rw [htext']
  simp [placeholder]

/-- The rule takes a placeholder with the blanks before it, and with the line break before
those if there is one. -/
theorem spliceRule_margin (hnewline : newline = [] ∨ newline = ['\n'])
    (hindent : ∀ x ∈ indent, isIndent x = true) (rest : List Char) :
    spliceRule name block (newline ++ (indent ++ (placeholder name ++ rest))) =
      some ⟨(newline ++ (indent ++ placeholder name)).length, placeBlock newline indent block⟩ := by
  have htake : (indent ++ (placeholder name ++ rest)).takeWhile isIndent = indent := by
    rw [List.takeWhile_append_of_pos hindent]
    simp [placeholder, isIndent]
  rcases hnewline with rfl | rfl
  · -- the text starts with a blank or with the `$`, so there is no line break to take
    cases indent with
    | nil => simp [spliceRule, placeholder, isIndent]
    | cons c others =>
        have hc : c ≠ '\n' := fun heq => newline_not_mem hindent (heq ▸ List.mem_cons_self)
        rw [List.cons_append] at htake
        simp [spliceRule, hc, htake, Nat.add_right_comm]
  · have hlength : 1 + indent.length + (placeholder name).length =
        indent.length + (placeholder name).length + 1 := by omega
    simp [spliceRule, htake, hlength]

/-- A placeholder that the text starts with, up to blanks, is replaced by its block, and the
pass goes on behind it. -/
theorem splice_margin (hnewline : newline = [] ∨ newline = ['\n'])
    (hindent : ∀ x ∈ indent, isIndent x = true) (rest : List Char) :
    splice (newline ++ (indent ++ (placeholder name ++ rest))) name block =
      placeBlock newline indent block ++ splice rest name block := by
  have hrule : spliceRule name block (newline ++ (indent ++ (placeholder name ++ rest))) = some _ :=
    spliceRule_margin hnewline hindent rest
  have hdrop : (newline ++ (indent ++ (placeholder name ++ rest))).drop
      (newline ++ (indent ++ placeholder name)).length = rest := by
    simp only [← List.append_assoc, List.drop_left]
  obtain ⟨c, others, hcons⟩ : ∃ c others,
      newline ++ (indent ++ (placeholder name ++ rest)) = c :: others :=
    List.exists_cons_of_ne_nil (by simp [placeholder])
  rw [hcons] at hrule hdrop ⊢
  rw [splice, apply_of_some (spliceRule_marked name block).advances hrule, hdrop, splice]

/-- **A placeholder on a line of its own is replaced by its block**, which is indented as
the placeholder was. -/
theorem splice_line (hhead : '$' ∉ head) (hindent : ∀ x ∈ indent, isIndent x = true)
    (htail : '$' ∉ tail) (hblock : block ≠ []) :
    splice (head ++ '\n' :: (indent ++ (placeholder name ++ tail))) name block =
      head ++ '\n' :: (indented indent block ++ tail) := by
  have hadvances : Advances (spliceRule name block) := (spliceRule_marked name block).advances
  have hbefore : Template.apply (spliceRule name block) head = head :=
    apply_eq_self fun y hsuffix _ =>
      spliceRule_of_not_mem fun hmem => hhead (hsuffix.subset hmem)
  have hdecides : DecidesIn (spliceRule name block) head
      ('\n' :: (indent ++ (placeholder name ++ tail))) := by
    intro y hsuffix hne
    have hy : '$' ∉ y := fun hmem => hhead (hsuffix.subset hmem)
    rw [spliceRule_before_newline hy hne, spliceRule_of_not_mem hy]
    exact ⟨rfl, fun cut hcut => nomatch hcut⟩
  have hafter : Template.apply (spliceRule name block) tail = tail :=
    apply_eq_self fun y hsuffix _ =>
      spliceRule_of_not_mem fun hmem => htail (hsuffix.subset hmem)
  have hput : placeBlock ['\n'] indent block = '\n' :: indented indent block := by
    simp [placeBlock, hblock, indentBlock_eq_indented]
  have hmargin : splice (['\n'] ++ (indent ++ (placeholder name ++ tail))) name block = _ :=
    splice_margin (Or.inr rfl) hindent tail
  rw [List.singleton_append, splice, splice, hput, hafter] at hmargin
  rw [splice, apply_append hadvances hdecides, hbefore, hmargin, List.cons_append]

end NodeWeave.Template
