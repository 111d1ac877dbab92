import NodeWeave.Proofs.DollarSigns

/-!
# Filling in closed texts

In a closed text each `$` either starts a whole placeholder or has a character behind
it that keeps it from ever starting one.  So the text falls into pieces, inert ones
and placeholders (`closed_induct`), and a pass that fills in a name treats each piece
on its own (`substitute_append`): an inert piece stays as it is, and a placeholder
stays or is filled in.

Therefore names may be filled in in any order (`substitute_comm`), as long as what is
put in is inert.  A name that has a closing brace in it is no name of a placeholder
and is left out here.
-/

namespace NodeWeave.Template

variable {a b text rest name other put : List Char} {c : Char}

theorem isInert_of_not_mem (hmem : '$' ∉ text) : isInert text = true :=
  behind_of_not_mem hmem

theorem isClosed_of_inert (hinert : isInert text = true) : isClosed text = true :=
  behind_mono (fun _ => startsClosed_of_inert) hinert

theorem isClosed_placeholder (hne : name ≠ []) (hbrace : '\x7d' ∉ name) (hdollar : '$' ∉ name) :
    isClosed (placeholder name) = true := by
  have hopens : opensName ('\x7b' :: (name ++ ['\x7d'])) = true :=
    opensName_iff.mpr ⟨name, [], rfl, hne, hbrace, hdollar⟩
  refine behind_cons.mpr ⟨fun _ => Bool.or_eq_true_iff.mpr (Or.inr hopens), ?_⟩
  exact behind_of_not_mem (by simpa using hdollar)

/-- **A closed text, piece by piece.** -/
theorem closed_induct {motive : List Char → Prop} (nil : motive [])
    (piece : ∀ u rest, isInert u = true → isClosed rest = true → motive rest → motive (u ++ rest))
    (mark : ∀ name rest, name ≠ [] → '\x7d' ∉ name → '$' ∉ name → isClosed rest = true →
      motive rest → motive (placeholder name ++ rest))
    (hclosed : isClosed text = true) : motive text := by
  induction hlength : text.length using Nat.strongRecOn generalizing text with
  | ind length ih =>
      cases text with
      | nil => exact nil
      | cons c rest =>
          rw [List.length_cons] at hlength
          obtain ⟨hc, hrest⟩ := behind_cons.mp hclosed
          by_cases hdollar : c = '$'
          · subst hdollar
            rcases Bool.or_eq_true_iff.mp (hc rfl) with hinert | hopens
            · cases rest with
              | nil => cases hinert
              | cons d others =>
                  have hlast : isClosed others = true := (behind_cons.mp hrest).2
                  have hd : d ≠ '$' := by
                    intro heq
                    rw [heq] at hinert
                    cases hinert
                  have hfront : isInert ['$', d] = true :=
                    behind_cons.mpr ⟨fun _ => hinert, isInert_of_not_mem (by simpa using hd.symm)⟩
                  rw [List.length_cons] at hlength
                  exact piece ['$', d] others hfront hlast (ih others.length (by omega) hlast rfl)
            · obtain ⟨name, after, rfl, hne, hbrace, hfree⟩ := opensName_iff.mp hopens
              have hsplit : '$' :: '\x7b' :: (name ++ '\x7d' :: after) = placeholder name ++ after := by
                simp [placeholder]
              have hafter : isClosed after = true :=
                behind_of_suffix ⟨placeholder name, hsplit.symm⟩ hclosed
              have hshorter : after.length < length := by
                simp only [List.length_cons, List.length_append] at hlength
                omega
              rw [hsplit]
              exact mark name after hne hbrace hfree hafter (ih after.length hshorter hafter rfl)
          · have hfront : isInert [c] = true := isInert_of_not_mem (by simpa using Ne.symm hdollar)
            exact piece [c] rest hfront hrest (ih rest.length (by omega) hrest rfl)

/-- A placeholder that starts in a closed text also ends there. -/
theorem placeholder_prefix_of_append (hclosed : isClosed a = true) (hne : a ≠ [])
    (hbrace : '\x7d' ∉ name) (hstarts : placeholder name <+: a ++ b) : placeholder name <+: a := by
  obtain ⟨after, hafter⟩ := hstarts
  cases a with
  | nil => exact absurd rfl hne
  | cons c rest =>
      simp only [placeholder, List.cons_append, List.cons.injEq] at hafter
      obtain ⟨hdollar, hafter⟩ := hafter
      rcases Bool.or_eq_true_iff.mp ((behind_cons.mp hclosed).1 hdollar.symm) with hinert | hopens
      · -- the brace behind the `$` would be a character of the text itself
        cases rest with
        | nil => cases hinert
        | cons d others =>
            rw [List.cons_append, List.cons.injEq] at hafter
            rw [← hafter.1] at hinert
            cases hinert
      · obtain ⟨found, more, rfl, _, hclose, _⟩ := opensName_iff.mp hopens
        have hrest : name ++ '\x7d' :: after = found ++ '\x7d' :: (more ++ b) := by
          simpa using hafter
        have hname : name = found := by
          rw [← takeWhile_name hbrace after, hrest, takeWhile_name hclose]
        refine ⟨more, ?_⟩
        rw [hname, ← hdollar]
        simp [placeholder]

theorem fillRule_decidesIn (hclosed : isClosed a = true) (hbrace : '\x7d' ∉ name) (put b : List Char) :
    DecidesIn (fillRule name put) a b := by
  intro y hsuffix hne
  have hy : isClosed y = true := behind_of_suffix hsuffix hclosed
  constructor
  · by_cases hmark : placeholder name <+: y
    · have hmore : placeholder name <+: y ++ b := hmark.trans (List.prefix_append y b)
      rw [fillRule_eq_some.mpr ⟨hmark, rfl⟩, fillRule_eq_some.mpr ⟨hmore, rfl⟩]
    · have hnone : ¬ placeholder name <+: y ++ b := fun hmore =>
        hmark (placeholder_prefix_of_append hy hne hbrace hmore)
      rw [fillRule_eq_none.mpr hmark, fillRule_eq_none.mpr hnone]
  · intro cut hrule
    obtain ⟨hmark, rfl⟩ := fillRule_eq_some.mp hrule
    exact hmark.length_le

/-- **Filling in goes piece by piece.** -/
theorem substitute_append (hclosed : isClosed a = true) (hbrace : '\x7d' ∉ name)
    (b put : List Char) :
    substitute (a ++ b) name put = substitute a name put ++ substitute b name put := by
  simp only [substitute_eq_apply]
  exact apply_append (fillRule_advances name put) (fillRule_decidesIn hclosed hbrace put b)

/-- An inert text has nothing to fill in. -/
theorem substitute_of_inert (hinert : isInert text = true) (name put : List Char) :
    substitute text name put = text := by
  rw [substitute_eq_apply]
  apply apply_eq_self
  intro y hsuffix hne
  rw [fillRule_eq_none]
  intro hmark
  have hy : isInert y = true := behind_of_suffix hsuffix hinert
  obtain ⟨after, hafter⟩ := hmark
  rw [← hafter] at hy
  cases (behind_cons.mp hy).1 rfl

theorem substitute_placeholder_append (name rest put : List Char) :
    substitute (placeholder name ++ rest) name put = put ++ substitute rest name put := by
  simp only [substitute_eq_apply]
  have hrule : fillRule name put (placeholder name ++ rest) =
      some ⟨(placeholder name).length, put⟩ :=
    fillRule_eq_some.mpr ⟨List.prefix_append _ _, rfl⟩
  calc Template.apply (fillRule name put) (placeholder name ++ rest)
      = put ++ Template.apply (fillRule name put)
          ((placeholder name ++ rest).drop (placeholder name).length) :=
        apply_of_some (fillRule_advances name put) hrule
    _ = put ++ Template.apply (fillRule name put) rest := by rw [List.drop_left]

/-- The placeholder of one name is nothing to fill in under another one. -/
theorem substitute_placeholder_of_ne (hname : '\x7d' ∉ name) (hdollar : '$' ∉ name)
    (hother : '\x7d' ∉ other) (hne : name ≠ other) (put : List Char) :
    substitute (placeholder name) other put = placeholder name := by
  have hnone : fillRule other put (placeholder name) = none := by
    rw [fillRule_eq_none]
    intro hmark
    obtain ⟨after, hafter⟩ := hmark
    have hrest : other ++ '\x7d' :: after = name ++ '\x7d' :: [] := by
      simpa [placeholder] using hafter
    apply hne
    rw [← takeWhile_name hother after, hrest, takeWhile_name hname]
  have htail : isInert ('\x7b' :: name ++ ['\x7d']) = true :=
    isInert_of_not_mem (by simpa using hdollar)
  calc substitute (placeholder name) other put
      = '$' :: substitute ('\x7b' :: name ++ ['\x7d']) other put := by
        rw [substitute_eq_apply, substitute_eq_apply]
        exact apply_of_none hnone
    _ = placeholder name := by
        rw [substitute_of_inert htail]
        rfl

/-- **Names may be filled in in any order.** -/
theorem substitute_comm (hclosed : isClosed text = true) (hname : '\x7d' ∉ name)
    (hother : '\x7d' ∉ other) (hne : name ≠ other) (ha : isInert a = true) (hb : isInert b = true) :
    substitute (substitute text name a) other b = substitute (substitute text other b) name a := by
  refine closed_induct (motive := fun text =>
    substitute (substitute text name a) other b = substitute (substitute text other b) name a)
    rfl ?_ ?_ hclosed
  · intro u rest hu _ ih
    have hu' := isClosed_of_inert hu
    simp only [substitute_append hu' hname, substitute_append hu' hother, substitute_of_inert hu, ih]
  · intro key rest hkey hbrace hdollar _ ih
    have hmark : isClosed (placeholder key) = true := isClosed_placeholder hkey hbrace hdollar
    by_cases hfirst : key = name
    · subst hfirst
      rw [substitute_placeholder_append, substitute_append (isClosed_of_inert ha) hother,
        substitute_of_inert ha, substitute_append hmark hother,
        substitute_placeholder_of_ne hbrace hdollar hother hne, substitute_placeholder_append, ih]
    · by_cases hsecond : key = other
      · subst hsecond
        rw [substitute_placeholder_append, substitute_append (isClosed_of_inert hb) hname,
          substitute_of_inert hb, substitute_append hmark hname,
          substitute_placeholder_of_ne hbrace hdollar hname hfirst, substitute_placeholder_append, ih]
      · rw [substitute_append hmark hname, substitute_append hmark hother,
          substitute_placeholder_of_ne hbrace hdollar hname hfirst,
          substitute_placeholder_of_ne hbrace hdollar hother hsecond,
          substitute_append hmark hother, substitute_append hmark hname,
          substitute_placeholder_of_ne hbrace hdollar hname hfirst,
          substitute_placeholder_of_ne hbrace hdollar hother hsecond, ih]

end NodeWeave.Template
