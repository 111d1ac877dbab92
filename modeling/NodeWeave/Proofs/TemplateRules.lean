import NodeWeave.Proofs.TemplatePass

/-!
# The rules of templates

When each rule for templates fits and what it takes: a placeholder is a `$` with a
name in braces (`placeholderName?_eq_some`), a rule that takes it away takes nothing
else or the blanks before it too (`dropRule_eq_some`, `dropLineRule_eq_some`), and a
block comes with the blanks before its placeholder (`spliceRule_eq_some`) and is then
indented as a whole (`indentBlock_eq`).
-/

namespace NodeWeave.Template

variable {text rest name : List Char} {c : Char}

/-! ## Placeholders -/

theorem drop_length_takeWhile {α : Type} (p : α → Bool) (l : List α) :
    l.drop (l.takeWhile p).length = l.dropWhile p := by
  induction l with
  | nil => rfl
  | cons x rest ih => by_cases hx : p x = true <;> simp [hx, ih]

/-- A name ends at the first closing brace. -/
theorem takeWhile_name (hbrace : '\x7d' ∉ name) (rest : List Char) :
    (name ++ '\x7d' :: rest).takeWhile (· != '\x7d') = name := by
  have hpassed : ∀ x ∈ name, (x != '\x7d') = true := by
    intro x hx
    rw [bne_iff_ne]
    intro heq
    exact hbrace (heq ▸ hx)
  rw [List.takeWhile_append_of_pos hpassed]
  simp

/-- A placeholder at the front of a text is a `$` with a name in braces. -/
theorem placeholderName?_eq_some :
    placeholderName? text = some name ↔
      placeholder name <+: text ∧ name ≠ [] ∧ '\x7d' ∉ name := by
  constructor
  · intro hname
    unfold placeholderName? at hname
    split at hname
    · rename_i rest
      dsimp only at hname
      split at hname
      · cases hname
      · rename_i hok
        cases hname
        rw [drop_length_takeWhile, Bool.or_eq_true, not_or, List.isEmpty_iff, List.isEmpty_iff] at hok
        obtain ⟨hne, hclosed⟩ := hok
        have hsplit := List.takeWhile_append_dropWhile (p := (· != '\x7d')) (l := rest)
        have hhead := List.head_dropWhile_not (· != '\x7d') hclosed
        refine ⟨⟨(rest.dropWhile (· != '\x7d')).tail, ?_⟩, hne, fun hmem => ?_⟩
        · have hbrace : (rest.dropWhile (· != '\x7d')).head hclosed = '\x7d' := by simpa using hhead
          have hcons := List.cons_head_tail hclosed
          rw [hbrace] at hcons
          simp only [placeholder, List.cons_append, List.append_assoc, List.nil_append, hcons, hsplit]
        · have hpassed := List.all_eq_true.mp List.all_takeWhile _ hmem
          simp at hpassed
    · cases hname
  · rintro ⟨⟨after, rfl⟩, hne, hbrace⟩
    have htext : placeholder name ++ after = '$' :: '\x7b' :: (name ++ '\x7d' :: after) := by
      simp [placeholder]
    rw [htext]
    simp [placeholderName?, takeWhile_name hbrace, hne]

theorem placeholderName?_cons_of_ne (hc : c ≠ '$') : placeholderName? (c :: rest) = none := by
  rw [Option.eq_none_iff_forall_ne_some]
  intro name hname
  obtain ⟨⟨after, hafter⟩, _⟩ := placeholderName?_eq_some.mp hname
  simp only [placeholder, List.cons_append, List.cons.injEq] at hafter
  exact hc hafter.1.symm

theorem placeholderName?_dollar_of_ne (hc : c ≠ '\x7b') :
    placeholderName? ('$' :: c :: rest) = none := by
  rw [Option.eq_none_iff_forall_ne_some]
  intro name hname
  obtain ⟨⟨after, hafter⟩, _⟩ := placeholderName?_eq_some.mp hname
  simp only [placeholder, List.cons_append, List.cons.injEq] at hafter
  exact hc hafter.2.1.symm

/-- Behind an opening brace: an empty name, and one that no brace closes, make no
placeholder; all others do. -/
theorem placeholderName?_brace_eq_none :
    placeholderName? ('$' :: '\x7b' :: rest) = none ↔
      rest.head? = some '\x7d' ∨ '\x7d' ∉ rest := by
  constructor
  · intro hname
    by_cases hmem : '\x7d' ∈ rest
    · obtain ⟨front, back, rfl, hfront⟩ := List.eq_append_cons_of_mem hmem
      cases front with
      | nil => exact Or.inl rfl
      | cons d others =>
          have hsome : placeholderName? ('$' :: '\x7b' :: (d :: others ++ '\x7d' :: back)) =
              some (d :: others) :=
            placeholderName?_eq_some.mpr ⟨⟨back, by simp [placeholder]⟩, by simp, hfront⟩
          rw [hsome] at hname
          cases hname
    · exact Or.inr hmem
  · intro hrest
    rw [Option.eq_none_iff_forall_ne_some]
    intro name hname
    obtain ⟨⟨after, hafter⟩, hne, hbrace⟩ := placeholderName?_eq_some.mp hname
    have hafter : name ++ '\x7d' :: after = rest := by simpa [placeholder] using hafter
    subst hafter
    rcases hrest with hhead | hmem
    · cases name with
      | nil => exact hne rfl
      | cons d others =>
          cases Option.some.inj hhead
          exact hbrace List.mem_cons_self
    · exact hmem (by simp)

theorem placeholders_cons_of_none (hname : placeholderName? (c :: rest) = none) :
    placeholders (c :: rest) = placeholders rest := by
  simp only [placeholders, placeholdersFrom, hname]

theorem placeholders_ne_nil_of_some (hname : placeholderName? (c :: rest) = some name) :
    placeholders (c :: rest) ≠ [] := by
  simp [placeholders, placeholdersFrom, hname]

/-! ## Placeholders that are taken away -/

theorem dropRule_eq_some {cut : Cut} :
    dropRule text = some cut ↔
      ∃ name, placeholderName? text = some name ∧ cut = ⟨name.length + 3, []⟩ := by
  simp only [dropRule, Option.map_eq_some_iff]
  exact exists_congr fun name => and_congr_right fun _ => eq_comm

theorem dropRule_eq_none : dropRule text = none ↔ placeholderName? text = none := by
  simp [dropRule]

theorem dropLineRule_eq_some {cut : Cut} :
    dropLineRule text = some cut ↔
      ∃ indent after name, text = '\n' :: (indent ++ after) ∧ (∀ x ∈ indent, isIndent x = true) ∧
        placeholderName? after = some name ∧ cut = ⟨1 + indent.length + name.length + 3, []⟩ := by
  constructor
  · intro hrule
    unfold dropLineRule at hrule
    split at hrule
    · rename_i rest
      obtain ⟨name, hname, rfl⟩ := Option.map_eq_some_iff.mp hrule
      rw [drop_length_takeWhile] at hname
      refine ⟨rest.takeWhile isIndent, rest.dropWhile isIndent, name, ?_, ?_, hname, rfl⟩
      · rw [List.takeWhile_append_dropWhile]
      · exact List.all_eq_true.mp List.all_takeWhile
    · cases hrule
  · rintro ⟨indent, after, name, rfl, hindent, hname, rfl⟩
    obtain ⟨⟨rest, rfl⟩, _⟩ := placeholderName?_eq_some.mp hname
    have htake : (indent ++ (placeholder name ++ rest)).takeWhile isIndent = indent := by
      rw [List.takeWhile_append_of_pos hindent]
      simp [placeholder, isIndent]
    simp [dropLineRule, htake, hname]

/-! ## Blocks -/

theorem spliceRule_eq_some {block : List Char} {cut : Cut}
    (hrule : spliceRule name block text = some cut) :
    ∃ newline indent after, text = newline ++ (indent ++ (placeholder name ++ after)) ∧
      (newline = [] ∨ newline = ['\n']) ∧ (∀ x ∈ indent, isIndent x = true) ∧
      0 < cut.taken ∧ cut.put = placeBlock newline indent block := by
  have hbehind : ∀ newline after : List Char,
      (if (placeholder name).isPrefixOf (after.drop (after.takeWhile isIndent).length) then
        some (⟨newline.length + (after.takeWhile isIndent).length + (placeholder name).length,
          placeBlock newline (after.takeWhile isIndent) block⟩ : Cut) else none) = some cut →
      ∃ indent rest, newline ++ after = newline ++ (indent ++ (placeholder name ++ rest)) ∧
        (∀ x ∈ indent, isIndent x = true) ∧ 0 < cut.taken ∧
        cut.put = placeBlock newline indent block := by
    intro newline after hsome
    split at hsome
    · rename_i hmark
      cases hsome
      rw [drop_length_takeWhile] at hmark
      obtain ⟨rest, hrest⟩ := List.isPrefixOf_iff_prefix.mp hmark
      refine ⟨after.takeWhile isIndent, rest, ?_, List.all_eq_true.mp List.all_takeWhile, ?_, rfl⟩
      · rw [hrest, List.takeWhile_append_dropWhile]
      · simp only [placeholder, List.length_cons, List.cons_append]
        omega
    · cases hsome
  unfold spliceRule at hrule
  dsimp only at hrule
  split at hrule
  · rename_i rest
    obtain ⟨indent, after, htext, hrest⟩ := hbehind ['\n'] rest hrule
    exact ⟨['\n'], indent, after, htext, Or.inr rfl, hrest⟩
  · obtain ⟨indent, after, htext, hrest⟩ := hbehind [] text hrule
    exact ⟨[], indent, after, htext, Or.inl rfl, hrest⟩

/-- A character of a block where it stands behind an indentation. -/
def indentChar (indent : List Char) (c : Char) : List Char :=
  if c = '\n' then '\n' :: indent else [c]

theorem intercalate_map_splitFrom (indent piece text : List Char) :
    ['\n'].intercalate ((splitFrom ['\n'] 0 piece text).map (indent ++ ·)) =
      indent ++ (piece.reverse ++ text.flatMap (indentChar indent)) := by
  induction text generalizing piece with
  | nil => simp [splitFrom, List.intercalate]
  | cons c rest ih =>
      unfold splitFrom
      dsimp only
      by_cases hc : c = '\n'
      · subst hc
        have hmark : ['\n'].isPrefixOf ('\n' :: rest) = true := by simp
        have hne : (splitFrom ['\n'] 0 [] rest).map (indent ++ ·) ≠ [] := by
          rw [ne_eq, List.map_eq_nil_iff]
          exact splitFrom_ne_nil _ _ _ _
        simp only [hmark, if_true, List.length_singleton, Nat.sub_self, List.map_cons]
        rw [List.intercalate_cons_of_ne_nil hne, ih]
        simp [indentChar]
      · have hmark : ['\n'].isPrefixOf (c :: rest) = false := by
          simpa [List.isPrefixOf] using Ne.symm hc
        simp only [hmark, Bool.false_eq_true, if_false, ih]
        simp [indentChar, hc]

/-- **An indented block** has the indentation in front and behind each line break. -/
theorem indentBlock_eq (indent block : List Char) :
    indentBlock indent block = indent ++ block.flatMap (indentChar indent) := by
  simpa [indentBlock, lines, split] using intercalate_map_splitFrom indent [] block

end NodeWeave.Template
