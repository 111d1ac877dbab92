import NodeWeave.Graph.Recorded
import NodeWeave.Proofs.Repair

/-!
# Repair as a replay of the links

The rules for links are applied in two ways.  While a graph is edited,
`canConnect` is asked about one new link at a time; the repair pass looks at a
whole list and works in groups.  Both choose the same links: `repair_eq_replay`
says that repair keeps exactly what is kept when the links come one after the
other into a graph without links and each is taken if it is admitted then.

A link that is admitted is sound and clashes with no link kept before
(`admits_iff`), while a link breaks a rule when it clashes with any sound link
before it (`mem_breaches`), kept or not.  The difference does not show, because
a sound link that goes gives way to an earlier one that stays
(`kept_or_clash`): clashing is transitive over sound links, so the first link of
a group stands for all of them.

What repair removes is recorded with the ids of the links.  Where one of them cannot
be written, the links are gone but not returned (`repair_unreported`).
-/

namespace NodeWeave.Graph

/-- May the link come next, after the links of the graph?  It has to lead from
an output to an input which may be linked, and it may not take a control-flow
output from another link. -/
def admits (g : Graph) (l : Link) : Bool :=
  l.source.isOutput && l.target.isInput && g.canConnect l.source l.target &&
    !(((g.port? l.source).map Port.isExec).getD false &&
      g.links.any fun m => m.source.same l.source)

/-- The links that were kept and those that were not, with their places. -/
structure Replay where
  kept : List (Link × Nat) := []
  dropped : List (Link × Nat) := []

namespace Replay

/-- A graph with the links kept so far in place of its own. -/
def graph (g : Graph) (r : Replay) : Graph :=
  { g with links := r.kept.map (·.1) }

/-- Takes the next link, if it is admitted. -/
def take (g : Graph) (r : Replay) (l : Link × Nat) : Replay :=
  if (r.graph g).admits l.1 then { r with kept := r.kept ++ [l] }
  else { r with dropped := r.dropped ++ [l] }

end Replay

/-- The links of a graph, taken one after the other into the graph without
links. -/
def replay (g : Graph) : Replay :=
  g.links.zipIdx.foldl (Replay.take g) {}

variable {g : Graph} {k l m : Link}

/-! ## One link -/

/-- **What is admitted.**  Among links that start at outputs, a link is admitted
when it is sound and clashes with none of them. -/
theorem admits_iff (hout : ∀ m ∈ g.links, m.source.side = .output) :
    g.admits l = true ↔ g.SoundLink l ∧ ∀ m ∈ g.links, ¬ g.Clash m l := by
  have hclash : (∀ m ∈ g.links, ¬ g.Clash m l) ↔
      (g.IsExecAt l.source → ∀ m ∈ g.links, m.source.address ≠ l.source.address) ∧
      (¬ g.IsExecAt l.target → ∀ m ∈ g.links, m.target.address ≠ l.target.address) := by
    constructor
    · intro hno
      constructor
      · intro hexec m hm hsource
        refine hno m hm (Or.inl ⟨hsource, ?_⟩)
        rwa [IsExecAt, kindAt_congr g hsource]
      · intro hdata m hm htarget
        refine hno m hm (Or.inr ⟨htarget, ?_⟩)
        rwa [IsExecAt, kindAt_congr g htarget]
    · rintro ⟨hexec, hdata⟩ m hm (⟨hsource, hs⟩ | ⟨htarget, ht⟩)
      · refine hexec ?_ m hm hsource
        rwa [IsExecAt, ← kindAt_congr g hsource]
      · refine hdata ?_ m hm htarget
        rwa [IsExecAt, ← kindAt_congr g htarget]
  have hexec : (((g.port? l.source).map Port.isExec).getD false &&
      g.links.any fun m => m.source.same l.source) = false ↔
      (g.IsExecAt l.source → ∀ m ∈ g.links, m.source.address ≠ l.source.address) := by
    rw [← isExec_iff]
    simp [PortRef.same]
  rw [hclash]
  simp only [admits, PortRef.isOutput, PortRef.isInput, Bool.and_eq_true, beq_iff_eq,
    Bool.not_eq_true', hexec]
  constructor
  · rintro ⟨⟨⟨ho, hi⟩, hcan⟩, hfree⟩
    have hnorm : PortRef.normalize l.source l.target = (l.source, l.target) := by
      simp [PortRef.normalize, PortRef.isOutput, ho]
    obtain ⟨hsound, _, _, hdata⟩ := (canConnect_iff hnorm l.id).mp hcan
    exact ⟨hsound, hfree, hdata⟩
  · rintro ⟨hsound, hfree, hdata⟩
    have ho := hsound.source_output
    have hi := hsound.target_input
    have hnorm : PortRef.normalize l.source l.target = (l.source, l.target) := by
      simp [PortRef.normalize, PortRef.isOutput, ho]
    refine ⟨⟨⟨ho, hi⟩, (canConnect_iff hnorm l.id).mpr ⟨hsound, ?_, ?_, hdata⟩⟩, hfree⟩
    · -- a twin would share the control-flow output or the data input
      rintro m hm ⟨hsource, htarget⟩
      by_cases hexec : g.IsExecAt l.target
      · exact hfree (hsound.exec_iff.mpr hexec) m hm hsource
      · exact hdata hexec m hm htarget
    · rintro m hm ⟨hsource, _⟩
      have hside : m.source.side = l.target.side := congrArg (fun a => a.2.1) hsource
      rw [hout m hm, hi] at hside
      cases hside

/-- Clashing is transitive over a sound link: all three links are control flow and
share their start, or all are data and share their end. -/
theorem Clash.trans (hm : g.SoundLink m) (hkm : g.Clash k m) (hml : g.Clash m l) :
    g.Clash k l := by
  rcases hkm with ⟨hsource, hk⟩ | ⟨htarget, hk⟩
  · have hexec : g.IsExecAt m.source := by rwa [IsExecAt, ← kindAt_congr g hsource]
    rcases hml with ⟨hsource', _⟩ | ⟨_, hdata⟩
    · exact Or.inl ⟨hsource.trans hsource', hk⟩
    · exact absurd (hm.exec_iff.mp hexec) hdata
  · have hdata : ¬ g.IsExecAt m.target := by rwa [IsExecAt, ← kindAt_congr g htarget]
    rcases hml with ⟨_, hexec⟩ | ⟨htarget', _⟩
    · exact absurd (hm.exec_iff.mp hexec) hdata
    · exact Or.inr ⟨htarget.trans htarget', hk⟩

/-! ## Places -/

/-- What comes before an element of a list without repetitions stands in the part
before it. -/
theorem mem_of_pair_sublist {α : Type} {a b : α} {before after : List α}
    (hnodup : (before ++ b :: after).Nodup) (hsub : [a, b].Sublist (before ++ b :: after)) :
    a ∈ before := by
  obtain ⟨hbefore, hcons, hdisjoint⟩ := List.nodup_append.mp hnodup
  have hb : b ∉ after := (List.nodup_cons.mp hcons).1
  obtain ⟨front, back, heq, hfront, hback⟩ := List.sublist_append_iff.mp hsub
  cases front with
  | nil =>
      exfalso
      apply hb
      simp only [List.nil_append] at heq
      subst heq
      cases hback with
      | cons _ h => exact h.subset (by simp)
      | cons_cons _ h => exact List.singleton_sublist.mp h
  | cons x rest =>
      have hx : a = x := by simpa using congrArg List.head? heq
      subst hx
      exact hfront.subset List.mem_cons_self

/-- **A link that goes gives way to one that stays.**  A sound link stays, or it
clashes with an earlier link that stays. -/
theorem kept_or_clash {l : Link × Nat} {before after : List (Link × Nat)}
    (hplaces : g.links.zipIdx = before ++ l :: after) (hl : g.SoundLink l.1) :
    l ∉ g.breaches ∨ ∃ m ∈ before, m ∉ g.breaches ∧ g.Clash m.1 l.1 := by
  by_cases hbad : l ∈ g.breaches
  · right
    obtain ⟨_, hunsound | ⟨m, hsub, hm, _, hclash⟩⟩ := mem_breaches.mp hbad
    · exact absurd hl hunsound
    · have hnodup := nodup_zipIdx g.links
      rw [hplaces] at hnodup hsub
      have hmem := mem_of_pair_sublist hnodup hsub
      obtain ⟨front, back, hsplit⟩ := List.append_of_mem hmem
      have hplaces' : g.links.zipIdx = front ++ m :: (back ++ l :: after) := by
        rw [hplaces, hsplit, List.append_assoc, List.cons_append]
      have hshorter : front.length < before.length := by simp [hsplit]
      -- `m` stands further to the front, so the induction is on the part before
      rcases kept_or_clash hplaces' hm with hkept | ⟨k, hk, hkept, hkm⟩
      · exact ⟨m, hmem, hkept, hclash⟩
      · refine ⟨k, ?_, hkept, hkm.trans hm hclash⟩
        rw [hsplit]
        exact List.mem_append_left _ hk
  · exact Or.inl hbad
termination_by before.length

/-! ## All links -/

/-- The links of a part of the list that stay. -/
def staying (g : Graph) (places : List (Link × Nat)) : List (Link × Nat) :=
  places.filter fun l => !g.breaches.contains l

/-- The links of a part of the list that go. -/
def leaving (g : Graph) (places : List (Link × Nat)) : List (Link × Nat) :=
  places.filter fun l => g.breaches.contains l

theorem mem_staying {l : Link × Nat} {places : List (Link × Nat)} :
    l ∈ g.staying places ↔ l ∈ places ∧ l ∉ g.breaches := by
  simp [staying]

/-- A link that stays is sound. -/
theorem soundLink_of_mem_staying {l : Link × Nat} {before after : List (Link × Nat)}
    (hplaces : g.links.zipIdx = before ++ after) (hl : l ∈ g.staying before) :
    g.SoundLink l.1 := by
  obtain ⟨hmem, hkept⟩ := mem_staying.mp hl
  apply Classical.byContradiction
  intro hunsound
  apply hkept
  refine mem_breaches.mpr ⟨?_, Or.inl hunsound⟩
  rw [hplaces]
  exact List.mem_append_left _ hmem

/-- **One step of the replay.**  After the links before it that stay, a link is
admitted exactly when it stays itself. -/
theorem admits_staying_iff {l : Link × Nat} {before after : List (Link × Nat)}
    (hplaces : g.links.zipIdx = before ++ l :: after) (dropped : List (Link × Nat)) :
    (Replay.graph g ⟨g.staying before, dropped⟩).admits l.1 = true ↔ l ∉ g.breaches := by
  have hkept : ∀ m ∈ g.staying before, g.SoundLink m.1 :=
    fun m hm => soundLink_of_mem_staying hplaces hm
  have hout : ∀ m ∈ (Replay.graph g ⟨g.staying before, dropped⟩).links,
      m.source.side = .output := by
    intro m hm
    obtain ⟨placed, hplaced, rfl⟩ := List.mem_map.mp hm
    exact (hkept placed hplaced).source_output
  -- the kinds of ports are those of `g`, whatever links there are
  have hclash : (∀ m ∈ (Replay.graph g ⟨g.staying before, dropped⟩).links,
        ¬ (Replay.graph g ⟨g.staying before, dropped⟩).Clash m l.1) ↔
      ∀ m ∈ g.staying before, ¬ g.Clash m.1 l.1 :=
    List.forall_mem_map
  have hsound : (Replay.graph g ⟨g.staying before, dropped⟩).SoundLink l.1 ↔ g.SoundLink l.1 :=
    ⟨fun h => h.congr rfl rfl, fun h => h.congr rfl rfl⟩
  rw [admits_iff hout, hsound, hclash]
  constructor
  · rintro ⟨hl, hfree⟩
    rcases kept_or_clash hplaces hl with hstays | ⟨m, hm, hstays, hclash⟩
    · exact hstays
    · exact absurd hclash (hfree m (mem_staying.mpr ⟨hm, hstays⟩))
  · intro hstays
    have hmem : l ∈ g.links.zipIdx := by simp [hplaces]
    have hl : g.SoundLink l.1 := by
      apply Classical.byContradiction
      intro hunsound
      exact hstays (mem_breaches.mpr ⟨hmem, Or.inl hunsound⟩)
    refine ⟨hl, ?_⟩
    intro m hm hclash
    have hsub : [m, l].Sublist g.links.zipIdx := by
      rw [hplaces]
      exact (List.singleton_sublist.mpr (mem_staying.mp hm).1).append
        (List.singleton_sublist.mpr List.mem_cons_self)
    exact hstays (mem_breaches.mpr ⟨hmem, Or.inr ⟨m, hsub, hkept m hm, hl, hclash⟩⟩)

/-- The replay of a part of the list, after the part before it. -/
theorem foldl_take {before after : List (Link × Nat)}
    (hplaces : g.links.zipIdx = before ++ after) :
    after.foldl (Replay.take g) ⟨g.staying before, g.leaving before⟩ =
      ⟨g.staying g.links.zipIdx, g.leaving g.links.zipIdx⟩ := by
  induction after generalizing before with
  | nil => rw [hplaces, List.append_nil, List.foldl_nil]
  | cons l rest ih =>
      have hnext : Replay.take g ⟨g.staying before, g.leaving before⟩ l =
          ⟨g.staying (before ++ [l]), g.leaving (before ++ [l])⟩ := by
        have hstep := admits_staying_iff hplaces (g.leaving before)
        unfold Replay.take
        by_cases hbad : l ∈ g.breaches
        · rw [if_neg (mt hstep.mp (not_not_intro hbad))]
          simp [staying, leaving, hbad]
        · rw [if_pos (hstep.mpr hbad)]
          simp [staying, leaving, hbad]
      rw [List.foldl_cons, hnext]
      apply ih
      rw [hplaces, List.append_assoc, List.singleton_append]

theorem replay_eq (g : Graph) :
    g.replay = ⟨g.staying g.links.zipIdx, g.leaving g.links.zipIdx⟩ :=
  @foldl_take g [] g.links.zipIdx rfl

/-- The links that break a rule are those that a replay drops, each once. -/
theorem breaches_perm_dropped (g : Graph) : g.breaches.Perm g.replay.dropped := by
  rw [replay_eq]
  have hleaving : (g.leaving g.links.zipIdx).Nodup := (nodup_zipIdx g.links).filter _
  refine (List.perm_ext_iff_of_nodup (nodup_breaches g) hleaving).mpr fun l => ?_
  have hmem : l ∈ g.breaches → l ∈ g.links.zipIdx := fun hl => (mem_breaches.mp hl).1
  simpa [leaving] using hmem

/-- **What is removed is returned**, if all ids of it can be written. -/
theorem Recorded.repair_result (g : Graph) :
    (repair g).result = if ∀ l ∈ g.breaches, l.1.id.isWritable = true
      then .ok (g.breaches.map (·.1)) else .error .unwritable := by
  have hall : (g.repair.2.all fun l => l.id.isWritable) = true ↔
      ∀ l ∈ g.breaches, l.1.id.isWritable = true := by
    simp [Graph.repair]
  unfold repair
  dsimp only
  by_cases hwritable : ∀ l ∈ g.breaches, l.1.id.isWritable = true
  · rw [if_pos (hall.mpr hwritable), if_pos hwritable]
    rfl
  · rw [if_neg (mt hall.mp hwritable), if_neg hwritable]

/-- **Repair agrees with the rules for new links.**  It keeps the links that a
replay keeps, in their order and with their ids; nodes and counters stay as they
are.  Of the other links it returns every one once, place by place, as long as their
ids can be written; otherwise there is a fault, but they are gone all the same. -/
theorem repair_eq_replay (g : Graph) :
    (Recorded.repair g).state = { g with links := g.replay.kept.map (·.1) } ∧
      g.replay.kept.Sublist g.links.zipIdx ∧
      (g.replay.kept ++ g.replay.dropped).Perm g.links.zipIdx ∧
      ((∀ l ∈ g.replay.dropped, l.1.id.isWritable = true) → ∃ removed : List (Link × Nat),
        (Recorded.repair g).result = .ok (removed.map (·.1)) ∧ removed.Perm g.replay.dropped) ∧
      ((∃ l ∈ g.replay.dropped, l.1.id.isWritable = false) →
        (Recorded.repair g).result = .error .unwritable) := by
  have hperm := breaches_perm_dropped g
  have hmem : ∀ {l}, l ∈ g.breaches ↔ l ∈ g.replay.dropped := hperm.mem_iff
  refine ⟨?_, ?_, ?_, ?_, ?_⟩
  · rw [Recorded.repair_state, replay_eq]
    rfl
  · rw [replay_eq]
    exact List.filter_sublist
  · have hsplit := List.filter_append_perm (fun l => !g.breaches.contains l) g.links.zipIdx
    rw [replay_eq]
    simpa [staying, leaving] using hsplit
  · intro hwritable
    refine ⟨g.breaches, ?_, hperm⟩
    rw [Recorded.repair_result, if_pos fun l hl => hwritable l (hmem.mp hl)]
  · intro ⟨l, hl, hlong⟩
    rw [Recorded.repair_result, if_neg]
    intro hwritable
    rw [hwritable l (hmem.mpr hl)] at hlong
    cases hlong

/-- Control flow from one node to two others under one id, and a link the wrong way. -/
def tangle : Graph :=
  let port : Port := { (default : Port) with kind := Kind.exec }
  let node (id : Int) : Node :=
    { (default : Node) with
      id := .int id, inputs := .seated .input [port], outputs := .seated .output [port] }
  { nodes := [node 0, node 1, node 2]
    links := [⟨.int 7, ⟨.int 0, .output, 0⟩, ⟨.int 1, .input, 0⟩⟩,
      ⟨.int 7, ⟨.int 0, .output, 0⟩, ⟨.int 2, .input, 0⟩⟩,
      ⟨.int 8, ⟨.int 1, .input, 0⟩, ⟨.int 0, .output, 0⟩⟩] }

/-- The first link stays, and the other two are returned. -/
theorem repair_eq_replay_tangle :
    (Recorded.repair tangle).state.links = tangle.links.take 1 ∧
      ∃ removed : List (Link × Nat), (Recorded.repair tangle).result = .ok (removed.map (·.1)) ∧
        removed.Perm (tangle.links.zipIdx.drop 1) := by
  obtain ⟨hstate, _, _, hreturns, _⟩ := repair_eq_replay tangle
  have hkept : tangle.replay.kept.map (·.1) = tangle.links.take 1 := by decide +kernel
  have hdropped : tangle.replay.dropped = tangle.links.zipIdx.drop 1 := by decide +kernel
  rw [hdropped] at hreturns
  refine ⟨?_, hreturns (by decide +kernel)⟩
  rw [hstate]
  exact hkept

/-- A link between nodes that are not there, with the least id that cannot be written. -/
def looseLink : Graph :=
  { links := [⟨.int Number.writeBound, ⟨.int 0, .output, 0⟩, ⟨.int 1, .input, 0⟩⟩] }

/-- **A link may go without being returned.** -/
theorem repair_unreported :
    (Recorded.repair looseLink).state.links = [] ∧
      (Recorded.repair looseLink).result = .error .unwritable := by
  refine ⟨by decide +kernel, ?_⟩
  exact eq_unwritable_of_failsWith (by decide +kernel)

end NodeWeave.Graph
