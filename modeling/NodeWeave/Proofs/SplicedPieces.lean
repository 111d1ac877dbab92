import Mathlib.Data.List.DropRight
import NodeWeave.Proofs.IndentedText

/-!
# Splicing piece by piece

Splicing goes over a template once and asks at every character whether a line break,
blanks and then a placeholder start there.  What comes out can be said without such a
pass.  The placeholders cut the template into pieces (`CutAt`); each piece that stands
before a placeholder ends in a margin, which is its longest end of blanks with the line
break just before it (`Margin`); and the block takes the place of every margin and the
placeholder behind it (`splice_iff_pieces`).

The argument rests on where the rule fits.  The blanks that it takes have no `$`, so it
always takes the first placeholder that is left (`eq_lead_of_first`), and it does so from
the start of the margin on and not before (`spliceRule_before_margin`).
-/

namespace NodeWeave.Template

variable {mark before rest text block name lead y : List Char}

/-! ## Cutting a text at a mark -/

/-- **A text cut at the occurrences of a mark**: the pieces before them, and what stands
behind the last one.  Each occurrence is the first in what is left of the text, and the
next one is looked for behind it, so that they do not overlap. -/
inductive CutAt (mark : List Char) : List Char → List (List Char) → List Char → Prop
  | last {text : List Char} (hnone : ¬ mark <:+: text) : CutAt mark text [] text
  | piece {before rest last : List Char} {pieces : List (List Char)}
      (hfirst : ∀ front, front ++ mark <+: before ++ (mark ++ rest) → before.length ≤ front.length)
      (htail : CutAt mark rest pieces last) :
      CutAt mark (before ++ (mark ++ rest)) (before :: pieces) last

/-- The search for a mark finds the cut.  No occurrence starts in the current piece. -/
theorem cutAt_splitFrom (hmark : mark ≠ []) (skip : Nat) (piece text : List Char)
    (hpiece : ∀ front, front ++ mark <+: piece.reverse ++ text.drop skip →
      piece.length ≤ front.length) :
    ∃ pieces last, splitFrom mark skip piece text = pieces ++ [last] ∧
      CutAt mark (piece.reverse ++ text.drop skip) pieces last := by
  induction text generalizing skip piece with
  | nil =>
      rw [List.drop_nil, List.append_nil] at hpiece ⊢
      refine ⟨[], piece.reverse, rfl, CutAt.last ?_⟩
      rintro ⟨front, back, hback⟩
      have hle := hpiece front ⟨back, hback⟩
      have hlength := congrArg List.length hback
      have hpos := List.length_pos_iff.mpr hmark
      simp only [List.length_append, List.length_reverse] at hlength
      omega
  | cons c rest ih =>
      cases skip with
      | succ skip => exact ih skip piece hpiece
      | zero =>
          rw [List.drop_zero] at hpiece ⊢
          unfold splitFrom
          by_cases hstarts : mark <+: c :: rest
          · -- the search goes on behind the occurrence with an empty piece
            have hnone : ∀ front, front ++ mark <+: [].reverse ++ rest.drop (mark.length - 1) →
                ([] : List Char).length ≤ front.length := fun front _ => Nat.zero_le _
            obtain ⟨pieces, last, hsplit, hcut⟩ := ih (mark.length - 1) [] hnone
            have hbehind : c :: rest = mark ++ rest.drop (mark.length - 1) := by
              obtain ⟨after, hafter⟩ := hstarts
              obtain ⟨d, others, rfl⟩ := List.exists_cons_of_ne_nil hmark
              rw [List.cons_append] at hafter
              cases hafter
              simp
            refine ⟨piece.reverse :: pieces, last, ?_, ?_⟩
            · simp only [List.isPrefixOf_iff_prefix.mpr hstarts, if_true, hsplit, List.cons_append]
            · rw [hbehind] at hpiece ⊢
              exact CutAt.piece (by rwa [List.length_reverse]) hcut
          · have hlonger : (c :: piece).reverse ++ rest.drop 0 = piece.reverse ++ c :: rest := by
              simp
            have hnext : ∀ front, front ++ mark <+: (c :: piece).reverse ++ rest.drop 0 →
                (c :: piece).length ≤ front.length := by
              intro front hfront
              rw [hlonger] at hfront
              have hle := hpiece front hfront
              have hne : front.length ≠ piece.length := by
                intro heq
                obtain ⟨back, hback⟩ := hfront
                rw [List.append_assoc] at hback
                have hsame := List.append_inj_right hback (by rw [List.length_reverse, heq])
                exact hstarts ⟨back, hsame⟩
              rw [List.length_cons]
              omega
            obtain ⟨pieces, last, hsplit, hcut⟩ := ih 0 (c :: piece) hnext
            rw [hlonger] at hcut
            refine ⟨pieces, last, ?_, hcut⟩
            simp only [List.isPrefixOf_iff_prefix, hstarts, if_false, hsplit]

/-- **Every text can be cut at a mark**, and `split` does it. -/
theorem cutAt_split (hmark : mark ≠ []) (text : List Char) :
    ∃ pieces last, split mark text = pieces ++ [last] ∧ CutAt mark text pieces last :=
  cutAt_splitFrom hmark 0 [] text fun _ _ => Nat.zero_le _

/-! ## The margin of a piece -/

/-- **The margin at the end of a text**: the longest end that has only blanks, and the line
break just before it if there is one. -/
structure Margin (text : List Char) where
  front : List Char
  newline : List Char
  indent : List Char
  joined : text = front ++ (newline ++ indent)
  blank : ∀ x ∈ indent, isIndent x = true
  longest : ∀ blanks, blanks <:+ text → (∀ x ∈ blanks, isIndent x = true) →
    blanks.length ≤ indent.length
  line : newline = ['\n'] ∨ newline = [] ∧ ¬ ['\n'] <:+ front

theorem length_le_rtakeWhile {blanks : List Char} (hsuffix : blanks <:+ text)
    (hblank : ∀ x ∈ blanks, isIndent x = true) :
    blanks.length ≤ (text.rtakeWhile isIndent).length := by
  obtain ⟨front, rfl⟩ := hsuffix
  have hreverse : ∀ x ∈ blanks.reverse, isIndent x = true := fun x hx =>
    hblank x (List.mem_reverse.mp hx)
  rw [List.rtakeWhile, List.reverse_append, List.takeWhile_append_of_pos hreverse]
  simp

/-- The margin that every text has. -/
def Margin.of (text : List Char) : Margin text :=
  if hline : ['\n'] <:+ text.rdropWhile isIndent then
    { front := (text.rdropWhile isIndent).dropLast
      newline := ['\n']
      indent := text.rtakeWhile isIndent
      joined := by
        obtain ⟨front, hfront⟩ := hline
        rw [← hfront, List.dropLast_concat, ← List.append_assoc, hfront,
          List.rdropWhile_append_rtakeWhile]
      blank := fun _ => List.mem_rtakeWhile_imp
      longest := fun _ => length_le_rtakeWhile
      line := Or.inl rfl }
  else
    { front := text.rdropWhile isIndent
      newline := []
      indent := text.rtakeWhile isIndent
      joined := List.rdropWhile_append_rtakeWhile.symm
      blank := fun _ => List.mem_rtakeWhile_imp
      longest := fun _ => length_le_rtakeWhile
      line := Or.inr ⟨rfl, hline⟩ }

/-- The text with a block in place of its margin.  Each line of the block stands behind the
blanks of the margin, and an empty block leaves nothing of it. -/
def Margin.filled (m : Margin text) (block : List Char) : List Char :=
  m.front ++ if block = [] then [] else m.newline ++ indented m.indent block

theorem Margin.newline_cases (m : Margin text) : m.newline = [] ∨ m.newline = ['\n'] := by
  rcases m.line with hone | ⟨hnone, _⟩
  · exact Or.inr hone
  · exact Or.inl hnone

theorem Margin.filled_eq (m : Margin text) (block : List Char) :
    m.filled block = m.front ++ placeBlock m.newline m.indent block := by
  simp only [filled, placeBlock, indentBlock_eq_indented, List.isEmpty_iff]

/-! ## Where the rule fits -/

/-- Blanks that the rule takes reach up to the first placeholder that is left, as no `$`
is among them. -/
theorem eq_lead_of_first {rest' : List Char} (hlead : '$' ∉ lead)
    (htext : before ++ (placeholder name ++ rest) = lead ++ (placeholder name ++ rest'))
    (hfirst : before.length ≤ lead.length) : lead = before := by
  have hprefix : lead <+: before ++ (placeholder name ++ rest) := htext ▸ List.prefix_append lead _
  obtain ⟨between, rfl⟩ : before <+: lead :=
    List.prefix_of_prefix_length_le (List.prefix_append before _) hprefix hfirst
  rw [List.append_assoc, List.append_cancel_left_eq] at htext
  cases between with
  | nil => rw [List.append_nil]
  | cons c others =>
      have hc : '$' = c := (List.cons.inj htext).1
      rw [hc] at hlead
      exact absurd (List.mem_append_right before List.mem_cons_self) hlead

/-- **The rule does not fit before the margin.** -/
theorem spliceRule_before_margin (m : Margin before)
    (hfirst : ∀ front, front ++ placeholder name <+: before ++ (placeholder name ++ rest) →
      before.length ≤ front.length) (hsuffix : y <:+ m.front) (hne : y ≠ []) :
    spliceRule name block (y ++ (m.newline ++ (m.indent ++ (placeholder name ++ rest)))) = none := by
  rw [Option.eq_none_iff_forall_ne_some]
  intro cut hrule
  obtain ⟨newline, indent, after, htext, hnewline, hindent, _⟩ := spliceRule_eq_some hrule
  obtain ⟨x, hx⟩ := hsuffix
  have hbefore : before = x ++ (y ++ (m.newline ++ m.indent)) := by
    rw [← List.append_assoc, hx]
    exact m.joined
  have hlead : '$' ∉ newline ++ indent := by
    rw [List.mem_append, not_or]
    refine ⟨?_, not_mem_of_isIndent hindent⟩
    rcases hnewline with rfl | rfl <;> simp
  have htext' : y ++ (m.newline ++ m.indent) ++ (placeholder name ++ rest) =
      newline ++ indent ++ (placeholder name ++ after) := by
    simpa only [List.append_assoc] using htext
  have hlength : (y ++ (m.newline ++ m.indent)).length ≤ (newline ++ indent).length := by
    have hle := hfirst (x ++ (newline ++ indent))
      ⟨after, by rw [hbefore]; simp only [List.append_assoc] at htext' ⊢; rw [htext']⟩
    have hwhole := congrArg List.length hbefore
    simp only [List.length_append] at hle hwhole ⊢
    omega
  have hsame := eq_lead_of_first hlead htext' hlength
  -- what the rule takes is an end of the piece, and longer than the margin
  have hlongest : indent.length ≤ m.indent.length := by
    refine m.longest indent ⟨x ++ newline, ?_⟩ hindent
    rw [hbefore, ← hsame, List.append_assoc]
  have hlengths := congrArg List.length hsame
  have hpos := List.length_pos_iff.mpr hne
  simp only [List.length_append] at hlengths
  rcases hnewline with rfl | rfl
  · rw [List.length_nil] at hlengths
    omega
  · rw [List.length_singleton] at hlengths
    have hnil : m.newline = [] := List.length_eq_zero_iff.mp (by omega)
    obtain ⟨c, rfl⟩ := List.length_eq_one_iff.mp (show y.length = 1 by omega)
    have hc : '\n' = c := (List.cons.inj hsame).1
    rcases m.line with hone | ⟨_, hnone⟩
    · rw [hnil] at hone
      cases hone
    · exact hnone ⟨x, by rw [hc, hx]⟩

/-- A pass keeps what stands before the first place where its rule fits. -/
theorem apply_of_none_before {rule : List Char → Option Cut} {front : List Char}
    (hnone : ∀ y, y <:+ front → y ≠ [] → rule (y ++ rest) = none) :
    apply rule (front ++ rest) = front ++ apply rule rest := by
  induction front with
  | nil => rfl
  | cons c front ih =>
      have hfront := ih fun y hy hne => hnone y (hy.trans (List.suffix_cons c front)) hne
      have hc := hnone (c :: front) List.suffix_rfl (List.cons_ne_nil c front)
      rw [List.cons_append] at hc ⊢
      rw [apply_of_none hc, hfront, List.cons_append]

/-- **One piece.**  Up to the first placeholder the block takes the place of the margin. -/
theorem splice_piece (m : Margin before)
    (hfirst : ∀ front, front ++ placeholder name <+: before ++ (placeholder name ++ rest) →
      before.length ≤ front.length) :
    splice (before ++ (placeholder name ++ rest)) name block =
      m.filled block ++ splice rest name block := by
  have hpass : Template.apply (spliceRule name block) (m.front ++ _) = m.front ++ _ :=
    apply_of_none_before fun y hsuffix hne => spliceRule_before_margin m hfirst hsuffix hne
  have htext : before ++ (placeholder name ++ rest) =
      m.front ++ (m.newline ++ (m.indent ++ (placeholder name ++ rest))) := by
    conv_lhs => rw [m.joined]
    simp only [List.append_assoc]
  calc splice (before ++ (placeholder name ++ rest)) name block
      = m.front ++ splice (m.newline ++ (m.indent ++ (placeholder name ++ rest))) name block := by
        rw [htext]
        exact hpass
    _ = m.front ++ (placeBlock m.newline m.indent block ++ splice rest name block) := by
        rw [splice_margin m.newline_cases m.blank]
    _ = m.filled block ++ splice rest name block := by
        rw [m.filled_eq, List.append_assoc]

/-- A text without the placeholder stays as it is. -/
theorem splice_of_not_infix (hnone : ¬ placeholder name <:+: text) :
    splice text name block = text := by
  refine apply_eq_self fun y hsuffix _ => ?_
  rw [Option.eq_none_iff_forall_ne_some]
  intro cut hrule
  obtain ⟨newline, indent, after, hy, _⟩ := spliceRule_eq_some hrule
  refine hnone (List.IsInfix.trans ⟨newline ++ indent, after, ?_⟩ hsuffix.isInfix)
  simp only [hy, List.append_assoc]

/-- **All pieces.** -/
theorem CutAt.splice_eq {pieces : List (List Char)} {last : List Char}
    (hcut : CutAt (placeholder name) text pieces last) (block : List Char) :
    splice text name block =
      pieces.flatMap (fun piece => (Margin.of piece).filled block) ++ last := by
  induction hcut with
  | last hnone => exact splice_of_not_infix hnone
  | piece hfirst htail ih =>
      rw [splice_piece (Margin.of _) hfirst, ih, List.flatMap_cons, List.append_assoc]

/-- **Splicing fills in the margins.**  Cut at its placeholders, a template keeps what stands
behind the last one and all pieces before, but for their margins, where the block stands
now.  So a template without the placeholder does not change. -/
theorem splice_iff_pieces (template name block result : List Char) :
    (splice template name block = result ↔
      ∃ pieces last, CutAt (placeholder name) template pieces last ∧
        result = pieces.flatMap (fun piece => (Margin.of piece).filled block) ++ last) ∧
      (¬ placeholder name <:+: template → splice template name block = template) := by
  refine ⟨⟨?_, ?_⟩, splice_of_not_infix⟩
  · intro hresult
    have hmark : placeholder name ≠ [] := List.cons_ne_nil _ _
    obtain ⟨pieces, last, _, hcut⟩ := cutAt_split hmark template
    exact ⟨pieces, last, hcut, by rw [← hresult, hcut.splice_eq]⟩
  · rintro ⟨pieces, last, hcut, rfl⟩
    exact hcut.splice_eq block

end NodeWeave.Template
