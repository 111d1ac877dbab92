import Mathlib.Data.List.Nodup
import NodeWeave.Proofs.WellFormed

/-!
# The repair pass

Repair works in batches: it drops the unsound links, groups the sound ones by
their control-flow output and by their data input, and keeps the first of each
group.  `mem_surplus` says what being one too many means for a single element:
some earlier element has the same key.  From it follow the two facts about the
whole pass: what it leaves is well-formed whatever the links were
(`repair_wellFormed`), and it leaves a well-formed graph alone
(`repair_of_wellFormed`).
-/

namespace NodeWeave.Graph

section Surplus

variable {α κ : Type} [BEq κ] [LawfulBEq κ] {key : α → Option κ} {xs : List α} {x y : α}

/-- All elements but the first are those with an element before them. -/
private theorem mem_drop_one_iff : x ∈ xs.drop 1 ↔ ∃ y, [y, x].Sublist xs := by
  cases xs with
  | nil => simp
  | cons a rest =>
      constructor
      · intro hx
        exact ⟨a, (List.singleton_sublist.mpr (by simpa using hx)).cons_cons a⟩
      · rintro ⟨y, hsub⟩
        cases hsub with
        | cons _ h => exact h.subset (by simp)
        | cons_cons _ h => exact List.singleton_sublist.mp h

/-- The group of a key, as the pass collects it. -/
private theorem group_eq (key : α → Option κ) (xs : List α) (k : κ) :
    ((xs.filterMap fun a => (key a).map fun k => (k, a)).filter fun e => e.1 == k).map (·.2) =
      xs.filter fun a => key a == some k := by
  induction xs with
  | nil => rfl
  | cons a rest ih =>
      cases hkey : key a with
      | none => simpa [List.filterMap_cons, hkey] using ih
      | some k' =>
          by_cases hk : k' = k
          · subst hk
            simpa [List.filterMap_cons, hkey] using ih
          · simpa [List.filterMap_cons, hkey, hk] using ih

/-- **One too many.**  The surplus consists of the elements that share their key
with an earlier one. -/
theorem mem_surplus :
    x ∈ surplus key xs ↔ ∃ y k, [y, x].Sublist xs ∧ key y = some k ∧ key x = some k := by
  have hgroup : ∀ k y, [y, x].Sublist (xs.filter fun a => key a == some k) ↔
      [y, x].Sublist xs ∧ key y = some k ∧ key x = some k := by
    intro k y
    constructor
    · intro hsub
      have hmem : ∀ a ∈ [y, x], key a = some k := fun a ha => by
        simpa using (List.mem_filter.mp (hsub.subset ha)).2
      exact ⟨hsub.trans List.filter_sublist, hmem y (by simp), hmem x (by simp)⟩
    · rintro ⟨hsub, hy, hx⟩
      simpa [hy, hx] using hsub.filter fun a => key a == some k
  unfold surplus
  simp only [List.mem_flatMap, List.mem_eraseDups, group_eq, mem_drop_one_iff, hgroup]
  constructor
  · rintro ⟨k, _, y, hsub, hy, hx⟩
    exact ⟨y, k, hsub, hy, hx⟩
  · rintro ⟨y, k, hsub, hy, hx⟩
    refine ⟨k, ?_, y, hsub, hy, hx⟩
    rw [List.mem_map]
    refine ⟨(k, x), ?_, rfl⟩
    rw [List.mem_filterMap]
    exact ⟨x, hsub.subset (by simp), by simp [hx]⟩

/-- No key is left twice. -/
private theorem nodup_keys (keys : List κ) : keys.eraseDups.Nodup := by
  match keys with
  | [] => simp
  | k :: rest =>
      rw [List.eraseDups_cons, List.nodup_cons]
      refine ⟨by simp [List.mem_eraseDups], nodup_keys _⟩
termination_by keys.length
decreasing_by
  exact Nat.lt_succ_of_le (List.length_filter_le _ _)

/-- An element is one too many only once, because it has one key. -/
theorem nodup_surplus (hxs : xs.Nodup) : (surplus key xs).Nodup := by
  unfold surplus
  simp only [group_eq]
  rw [List.nodup_flatMap]
  constructor
  · intro k _
    exact (hxs.filter _).sublist (List.drop_sublist 1 _)
  · refine (nodup_keys _).imp ?_
    intro k k' hne x hx hx'
    have hk : key x = some k := by simpa using (List.mem_filter.mp (List.mem_of_mem_drop hx)).2
    have hk' : key x = some k' := by simpa using (List.mem_filter.mp (List.mem_of_mem_drop hx')).2
    exact hne (Option.some.inj (hk.symm.trans hk'))

end Surplus

variable {g : Graph} {l m : Link}

/-- The key of a link among the control-flow outputs. -/
theorem execSource?_eq_some {k : Key × Side × Int} :
    g.execSource? l = some k ↔ g.IsExecAt l.source ∧ l.source.address = k := by
  unfold execSource?
  split
  · rename_i hexec
    simp [isExec_iff.mp hexec]
  · rename_i hexec
    simp [mt isExec_iff.mpr hexec]

/-- The key of a link among the data inputs. -/
theorem dataTarget?_eq_some {k : Key × Side × Int} :
    g.dataTarget? l = some k ↔ ¬ g.IsExecAt l.target ∧ l.target.address = k := by
  unfold dataTarget?
  split
  · rename_i hexec
    simp [isExec_iff.mp hexec]
  · rename_i hexec
    simp [mt isExec_iff.mpr hexec]

/-- The sound links before which another one clashes, by either key. -/
private theorem mem_surplus_sound {key : Link → Option (Key × Side × Int)} {l : Link × Nat} :
    l ∈ surplus (fun l : Link × Nat => key l.1) (g.links.zipIdx.filter fun l => g.isSound l.1) ↔
      ∃ m : Link × Nat, [m, l].Sublist g.links.zipIdx ∧ g.SoundLink m.1 ∧ g.SoundLink l.1 ∧
        ∃ k, key m.1 = some k ∧ key l.1 = some k := by
  rw [mem_surplus]
  constructor
  · rintro ⟨m, k, hsub, hm, hl⟩
    have hsound : ∀ a ∈ [m, l], g.SoundLink a.1 := fun a ha =>
      isSound_iff.mp (List.mem_filter.mp (hsub.subset ha)).2
    exact ⟨m, hsub.trans List.filter_sublist, hsound m (by simp), hsound l (by simp), k, hm, hl⟩
  · rintro ⟨m, hsub, hm, hl, k, hkm, hkl⟩
    refine ⟨m, k, ?_, hkm, hkl⟩
    simpa [isSound_iff.mpr hm, isSound_iff.mpr hl] using hsub.filter fun l => g.isSound l.1

/-- Two links clash when they share one of the two keys. -/
theorem clash_iff_keys :
    g.Clash l m ↔ (∃ k, g.execSource? l = some k ∧ g.execSource? m = some k) ∨
      ∃ k, g.dataTarget? l = some k ∧ g.dataTarget? m = some k := by
  simp only [execSource?_eq_some, dataTarget?_eq_some]
  constructor
  · rintro (⟨hsource, hexec⟩ | ⟨htarget, hdata⟩)
    · refine Or.inl ⟨_, ⟨hexec, rfl⟩, ?_, hsource.symm⟩
      rwa [IsExecAt, ← kindAt_congr g hsource]
    · refine Or.inr ⟨_, ⟨hdata, rfl⟩, ?_, htarget.symm⟩
      rwa [IsExecAt, ← kindAt_congr g htarget]
  · rintro (⟨k, ⟨hexec, rfl⟩, _, hsource⟩ | ⟨k, ⟨hdata, rfl⟩, _, htarget⟩)
    · exact Or.inl ⟨hsource.symm, hexec⟩
    · exact Or.inr ⟨htarget.symm, hdata⟩

/-- **What breaks a rule.**  A link at a place of the list goes when it is
unsound, or when it clashes with an earlier sound one. -/
theorem mem_breaches {l : Link × Nat} :
    l ∈ g.breaches ↔ l ∈ g.links.zipIdx ∧ (¬ g.SoundLink l.1 ∨
      ∃ m : Link × Nat, [m, l].Sublist g.links.zipIdx ∧ g.SoundLink m.1 ∧ g.SoundLink l.1 ∧
        g.Clash m.1 l.1) := by
  have hin : l ∈ g.breaches ↔ (l ∈ g.links.zipIdx ∧ ¬ g.SoundLink l.1) ∨
      l ∈ surplus (fun l => g.execSource? l.1) (g.links.zipIdx.filter fun l => g.isSound l.1) ∨
      l ∈ surplus (fun l => g.dataTarget? l.1) (g.links.zipIdx.filter fun l => g.isSound l.1) := by
    unfold breaches
    simp only [List.mem_append, List.mem_filter, ← isSound_iff]
    grind
  rw [hin, mem_surplus_sound, mem_surplus_sound]
  constructor
  · rintro (⟨hl, hbad⟩ | ⟨m, hsub, hm, hl, hkey⟩ | ⟨m, hsub, hm, hl, hkey⟩)
    · exact ⟨hl, Or.inl hbad⟩
    · exact ⟨hsub.subset (by simp), Or.inr ⟨m, hsub, hm, hl, clash_iff_keys.mpr (Or.inl hkey)⟩⟩
    · exact ⟨hsub.subset (by simp), Or.inr ⟨m, hsub, hm, hl, clash_iff_keys.mpr (Or.inr hkey)⟩⟩
  · rintro ⟨hl, hbad | ⟨m, hsub, hm, hsound, hclash⟩⟩
    · exact Or.inl ⟨hl, hbad⟩
    · rcases clash_iff_keys.mp hclash with hkey | hkey
      · exact Or.inr (Or.inl ⟨m, hsub, hm, hsound, hkey⟩)
      · exact Or.inr (Or.inr ⟨m, hsub, hm, hsound, hkey⟩)

/-- No two entries of a list have the same place. -/
theorem nodup_zipIdx {α : Type} (xs : List α) : xs.zipIdx.Nodup := by
  apply List.Nodup.of_map Prod.snd
  rw [List.zipIdx_map_snd]
  exact List.nodup_range'

/-- A link breaks the rules once, also where it breaks several of them. -/
theorem nodup_breaches (g : Graph) : g.breaches.Nodup := by
  have hplaces := nodup_zipIdx g.links
  have hsurplus : ∀ key : Link × Nat → Option (Key × Side × Int),
      (surplus key (g.links.zipIdx.filter fun l => g.isSound l.1)).Nodup :=
    fun key => nodup_surplus (hplaces.filter _)
  have hsound : ∀ (key : Link → Option (Key × Side × Int)) (l : Link × Nat),
      l ∈ surplus (fun l => key l.1) (g.links.zipIdx.filter fun l => g.isSound l.1) →
        g.isSound l.1 = true := by
    intro key l hl
    obtain ⟨_, _, _, hl, _⟩ := mem_surplus_sound.mp hl
    exact isSound_iff.mpr hl
  unfold breaches
  refine List.nodup_append.mpr ⟨List.nodup_append.mpr ⟨hplaces.filter _, hsurplus _, ?_⟩,
    (hsurplus _).filter _, ?_⟩
  · rintro l hl _ hout rfl
    have hunsound := (List.mem_filter.mp hl).2
    simp [hsound _ l hout] at hunsound
  · rintro l hl _ hin rfl
    obtain ⟨hin, hnew⟩ := List.mem_filter.mp hin
    rcases List.mem_append.mp hl with hl | hl
    · have hunsound := (List.mem_filter.mp hl).2
      simp [hsound _ l hin] at hunsound
    · simp [hl] at hnew

/-- Repair only takes links away. -/
theorem repair_links_sublist (g : Graph) : g.repair.1.links.Sublist g.links := by
  have hsub := (List.filter_sublist (p := fun l => !g.breaches.contains l)
    (l := g.links.zipIdx)).map Prod.fst
  rwa [List.zipIdx_map_fst] at hsub

/-- The links that break a rule are those that are not kept. -/
theorem breaches_perm (g : Graph) :
    g.breaches.Perm (g.links.zipIdx.filter fun l => g.breaches.contains l) := by
  refine (List.perm_ext_iff_of_nodup (nodup_breaches g) ((nodup_zipIdx g.links).filter _)).mpr ?_
  intro l
  have hplace : l ∈ g.breaches → l ∈ g.links.zipIdx := fun hl => (mem_breaches.mp hl).1
  simpa using hplace

/-- Every link is kept or removed. -/
theorem repair_length (g : Graph) :
    g.repair.1.links.length + g.repair.2.length = g.links.length := by
  have hremoved := (breaches_perm g).length_eq
  have hsplit := List.length_eq_length_filter_add (l := g.links.zipIdx)
    fun l => g.breaches.contains l
  simp only [List.length_zipIdx] at hsplit
  simp only [repair, List.length_map]
  omega

/-- **Repair establishes the rules**, whatever links there were. -/
theorem repair_wellFormed (g : Graph) : g.repair.1.WellFormed := by
  -- both rules are read off at the places of the old list, where `mem_breaches` speaks
  have hkept : ∀ l, l ∈ g.links.zipIdx.filter (fun l => !g.breaches.contains l) →
      l ∈ g.links.zipIdx ∧ l ∉ g.breaches := by
    intro l hl
    simpa using List.mem_filter.mp hl
  have hsound : ∀ l, l ∈ g.links.zipIdx.filter (fun l => !g.breaches.contains l) →
      g.SoundLink l.1 := by
    intro l hl
    refine Classical.byContradiction fun hbad => ?_
    exact (hkept l hl).2 (mem_breaches.mpr ⟨(hkept l hl).1, Or.inl hbad⟩)
  refine wellFormed_iff.mpr ⟨?_, ?_⟩
  · intro l hl
    obtain ⟨placed, hplaced, rfl⟩ := List.mem_map.mp hl
    exact (hsound placed hplaced).congr rfl rfl
  · rw [show g.repair.1.links =
      (g.links.zipIdx.filter fun l => !g.breaches.contains l).map (·.1) from rfl,
      List.pairwise_map, List.pairwise_iff_forall_sublist]
    intro l m hsub hclash
    have hl := hsub.subset (show l ∈ [l, m] by simp)
    have hm := hsub.subset (show m ∈ [l, m] by simp)
    exact (hkept m hm).2 (mem_breaches.mpr ⟨(hkept m hm).1, Or.inr
      ⟨l, hsub.trans List.filter_sublist, hsound l hl, hsound m hm, hclash⟩⟩)

/-- Where no link breaks a rule, repair changes and reports nothing. -/
theorem repair_of_no_breaches (hnone : g.breaches = []) : g.repair = (g, []) := by
  have hlinks : (g.links.zipIdx.filter fun _ => true).map (·.1) = g.links := by
    rw [List.filter_eq_self.mpr fun _ _ => rfl]
    exact List.zipIdx_map_fst 0 g.links
  simp only [repair, hnone, List.contains_nil, Bool.not_false, hlinks, List.map_nil]

/-- **Repair leaves a well-formed graph alone**, and reports nothing. -/
theorem repair_of_wellFormed (hg : g.WellFormed) : g.repair = (g, []) := by
  obtain ⟨hsound, hclash⟩ := wellFormed_iff.mp hg
  apply repair_of_no_breaches
  rw [List.eq_nil_iff_forall_not_mem]
  intro l hl
  obtain ⟨hmem, hbad | ⟨m, hsub, _, _, hc⟩⟩ := mem_breaches.mp hl
  · exact hbad (hsound l.1 (List.fst_mem_of_mem_zipIdx hmem))
  · have hpair : [m.1, l.1].Sublist g.links := by
      simpa [List.zipIdx_map_fst] using hsub.map Prod.fst
    exact List.pairwise_iff_forall_sublist.mp hclash hpair hc

end NodeWeave.Graph
