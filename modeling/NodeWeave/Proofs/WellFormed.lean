import NodeWeave.Proofs.Lookup

/-!
# Well-formed graphs

A graph is well-formed when each link is sound by itself and no two links get in
each other's way.  `WellFormed` spells the rules out one by one.  Since a sound
link joins control flow to control flow or data to data, two links between the
same ports always meet at a crowded control-flow output or at a crowded data
input; so all rules for pairs come down to one relation, `Clash`, and
`wellFormed_iff` is the form in which the proofs use the definition.

Two facts carry every operation: a graph stays well-formed when links go away and
the ports of the others keep their kinds (`WellFormed.restrict`), and when a sound
link comes that clashes with none (`WellFormed.append`).  The sections below apply
them to each operation on nodes and links.
-/

namespace NodeWeave.Graph

/-- The link goes from an output to an input of another node, both ports are
there, and their kinds are compatible. -/
structure SoundLink (g : Graph) (l : Link) : Prop where
  source_output : l.source.side = .output
  target_input : l.target.side = .input
  nodes_differ : l.source.node.key ≠ l.target.node.key
  kinds : ∃ source target, g.kindAt l.source = some source ∧ g.kindAt l.target = some target ∧
    Kind.compatible source target = true

/-- **The rules for links.**  Pairs are pairs of places in the list of links, so
a link that is listed twice counts as two. -/
structure WellFormed (g : Graph) : Prop where
  sound : ∀ l ∈ g.links, g.SoundLink l
  /-- No control-flow output has two outgoing links. -/
  exec_output : g.links.Pairwise fun l m =>
    g.IsExecAt l.source → l.source.address ≠ m.source.address
  /-- No data input has two incoming links. -/
  data_input : g.links.Pairwise fun l m =>
    ¬ g.IsExecAt l.target → l.target.address ≠ m.target.address
  /-- No two links join the same output to the same input. -/
  no_twin : g.links.Pairwise fun l m =>
    ¬ (l.source.address = m.source.address ∧ l.target.address = m.target.address)

/-- The two links start at one control-flow output, or end at one data input. -/
def Clash (g : Graph) (l m : Link) : Prop :=
  (l.source.address = m.source.address ∧ g.IsExecAt l.source) ∨
    (l.target.address = m.target.address ∧ ¬ g.IsExecAt l.target)

variable {g h : Graph} {l m : Link}

/-- The test of the repair pass for a link by itself is `SoundLink`. -/
theorem isSound_iff : g.isSound l = true ↔ g.SoundLink l := by
  constructor
  · intro hsound
    unfold isSound at hsound
    split at hsound
    · rename_i source target hsource htarget
      simp only [Bool.and_eq_true, beq_iff_eq, Bool.not_eq_true', Scalar.same,
        decide_eq_false_iff_not] at hsound
      obtain ⟨⟨⟨hout, hin⟩, hne⟩, hkind⟩ := hsound
      exact ⟨hout, hin, hne, source.kind, target.kind, by simp [kindAt, hsource],
        by simp [kindAt, htarget], hkind⟩
    · cases hsound
  · rintro ⟨hout, hin, hne, s, t, hs, ht, hkind⟩
    obtain ⟨source, hsource, rfl⟩ := Option.map_eq_some_iff.mp hs
    obtain ⟨target, htarget, rfl⟩ := Option.map_eq_some_iff.mp ht
    simp [isSound, hsource, htarget, hout, hin, hkind, Scalar.same, hne]

/-- Control flow goes into control flow, and data go into data. -/
theorem compatible_exec {source target : String} (h : Kind.compatible source target = true) :
    source = Kind.exec ↔ target = Kind.exec := by
  by_cases hs : source = Kind.exec <;> by_cases ht : target = Kind.exec <;>
    simp_all [Kind.compatible, Kind.isExec]

/-- A sound link starts at a control-flow port exactly when it ends at one. -/
theorem SoundLink.exec_iff (hl : g.SoundLink l) : g.IsExecAt l.source ↔ g.IsExecAt l.target := by
  obtain ⟨s, t, hs, ht, hkind⟩ := hl.kinds
  simp only [IsExecAt, hs, ht, Option.some.injEq]
  exact compatible_exec hkind

/-- Two links between the same ports clash at one of their ends. -/
theorem SoundLink.clash_of_twin (hl : g.SoundLink l)
    (hsource : l.source.address = m.source.address)
    (htarget : l.target.address = m.target.address) : g.Clash l m := by
  by_cases hexec : g.IsExecAt l.source
  · exact Or.inl ⟨hsource, hexec⟩
  · exact Or.inr ⟨htarget, fun ht => hexec (hl.exec_iff.mpr ht)⟩

/-- **All rules for pairs are one.**  The comparison of port pairs is implied by
the two rules for crowded ports. -/
theorem wellFormed_iff :
    g.WellFormed ↔ (∀ l ∈ g.links, g.SoundLink l) ∧ g.links.Pairwise fun l m => ¬ g.Clash l m := by
  constructor
  · intro hg
    refine ⟨hg.sound, (hg.exec_output.and hg.data_input).imp ?_⟩
    rintro l m ⟨hexec, hdata⟩ (⟨hsource, hs⟩ | ⟨htarget, ht⟩)
    · exact hexec hs hsource
    · exact hdata ht htarget
  · rintro ⟨hsound, hclash⟩
    refine ⟨hsound, hclash.imp ?_, hclash.imp ?_, hclash.imp_of_mem ?_⟩
    · exact fun hno hexec hsource => hno (Or.inl ⟨hsource, hexec⟩)
    · exact fun hno hdata htarget => hno (Or.inr ⟨htarget, hdata⟩)
    · exact fun hl _ hno hsame => hno ((hsound _ hl).clash_of_twin hsame.1 hsame.2)

instance (g : Graph) (r : PortRef) : Decidable (g.IsExecAt r) :=
  inferInstanceAs (Decidable (g.kindAt r = some Kind.exec))

instance (g : Graph) (l : Link) : Decidable (g.SoundLink l) :=
  decidable_of_iff _ isSound_iff

instance (g : Graph) (l m : Link) : Decidable (g.Clash l m) :=
  inferInstanceAs (Decidable (_ ∨ _))

instance (g : Graph) : Decidable g.WellFormed :=
  decidable_of_iff _ wellFormed_iff.symm

/-- Soundness of a link depends on the kinds at its two ends. -/
theorem SoundLink.congr (hl : g.SoundLink l) (hsource : h.kindAt l.source = g.kindAt l.source)
    (htarget : h.kindAt l.target = g.kindAt l.target) : h.SoundLink l :=
  ⟨hl.source_output, hl.target_input, hl.nodes_differ, by rw [hsource, htarget]; exact hl.kinds⟩

/-- **Links may go away.**  A graph stays well-formed when it loses links and the
ports of those that are left keep their kinds. -/
theorem WellFormed.restrict (hg : g.WellFormed) (hlinks : h.links.Sublist g.links)
    (hkind : ∀ l ∈ h.links, h.kindAt l.source = g.kindAt l.source ∧
      h.kindAt l.target = g.kindAt l.target) : h.WellFormed := by
  obtain ⟨hsound, hclash⟩ := wellFormed_iff.mp hg
  refine wellFormed_iff.mpr ⟨?_, ?_⟩
  · intro l hl
    exact (hsound l (hlinks.subset hl)).congr (hkind l hl).1 (hkind l hl).2
  · refine (hclash.sublist hlinks).imp_of_mem ?_
    intro l m hl _ hno hclash'
    apply hno
    simpa only [Clash, IsExecAt, (hkind l hl).1, (hkind l hl).2] using hclash'

/-- **A link may come.**  A graph stays well-formed with one more link that is
sound and clashes with none of the others. -/
theorem WellFormed.append (hg : g.WellFormed) (hsound : g.SoundLink l)
    (hclash : ∀ m ∈ g.links, ¬ g.Clash m l) (hnodes : h.nodes = g.nodes)
    (hlinks : h.links = g.links ++ [l]) : h.WellFormed := by
  have hkind : h.kindAt = g.kindAt := by
    funext r
    simp only [kindAt, port?, node?, hnodes]
  obtain ⟨hs, hc⟩ := wellFormed_iff.mp hg
  refine wellFormed_iff.mpr ⟨?_, ?_⟩
  · intro k hk
    rw [hlinks, List.mem_append, List.mem_singleton] at hk
    rcases hk with hk | rfl
    · exact (hs k hk).congr (by rw [hkind]) (by rw [hkind])
    · exact hsound.congr (by rw [hkind]) (by rw [hkind])
  · have heq : h.Clash = g.Clash := by
      funext k k'
      simp only [Clash, IsExecAt, hkind]
    rw [hlinks, heq, List.pairwise_append]
    refine ⟨hc, List.pairwise_singleton _ _, ?_⟩
    intro k hk k' hk'
    rw [List.mem_singleton.mp hk']
    exact hclash k hk

/-- A graph without links is well-formed. -/
theorem wellFormed_of_no_links (h : g.links = []) : g.WellFormed :=
  wellFormed_iff.mpr (by simp [h])

/-! ## Operations on links -/

/-- Unlinking a port keeps the rules. -/
theorem WellFormed.unlink (hg : g.WellFormed) (r : PortRef) : (g.unlink r).WellFormed :=
  hg.restrict List.filter_sublist fun _ _ => ⟨rfl, rfl⟩

theorem removeLink_eq_ok {id : Value} (hremove : g.removeLink id = .ok (h, l)) :
    ∃ links, links.Sublist g.links ∧ h = { g with links } := by
  unfold removeLink at hremove
  split at hremove
  · cases hremove
  · cases hremove
    exact ⟨_, List.eraseP_sublist, rfl⟩

/-- Removing a link keeps the rules. -/
theorem WellFormed.removeLink (hg : g.WellFormed) {id : Value}
    (hremove : g.removeLink id = .ok (h, l)) : h.WellFormed := by
  obtain ⟨links, hsub, rfl⟩ := removeLink_eq_ok hremove
  exact hg.restrict hsub fun _ _ => ⟨rfl, rfl⟩

/-- No link starts at an output after it is unlinked. -/
theorem source_ne_of_mem_unlink {o : PortRef} (ho : o.side = .output)
    (hm : m ∈ (g.unlink o).links) : m.source.address ≠ o.address := by
  have hends : endsAt o m = false := by simpa using (List.mem_filter.mp hm).2
  simpa [endsAt, PortRef.isInput, ho, PortRef.same] using hends

/-- No link ends at an input after it is unlinked. -/
theorem target_ne_of_mem_unlink {i : PortRef} (hi : i.side = .input)
    (hm : m ∈ (g.unlink i).links) : m.target.address ≠ i.address := by
  have hends : endsAt i m = false := by simpa using (List.mem_filter.mp hm).2
  simpa [endsAt, PortRef.isInput, hi, PortRef.same] using hends

/-- A sound link may be added once its ends are free: its source, when that is a
control-flow output, and its target, when that is a data input. -/
theorem WellFormed.addLink (hg : g.WellFormed) {id : Scalar} {o i : PortRef}
    (hsound : g.SoundLink ⟨id, o, i⟩)
    (hexec : g.IsExecAt o → ∀ m ∈ g.links, m.source.address ≠ o.address)
    (hdata : ¬ g.IsExecAt i → ∀ m ∈ g.links, m.target.address ≠ i.address) :
    (g.addLink o i).1.WellFormed := by
  have hlink : g.SoundLink (g.addLink o i).2 :=
    ⟨hsound.source_output, hsound.target_input, hsound.nodes_differ, hsound.kinds⟩
  refine hg.append hlink ?_ rfl rfl
  rintro m hm (⟨hsource, hs⟩ | ⟨htarget, ht⟩)
  · refine hexec ?_ m hm hsource
    rwa [IsExecAt, ← kindAt_congr g (show m.source.address = o.address from hsource)]
  · refine hdata (fun hi => ht ?_) m hm htarget
    rwa [IsExecAt, kindAt_congr g (show m.target.address = i.address from htarget)]

/-- Two ports on different sides come out as an output and an input. -/
theorem normalize_sides {a b : PortRef} (h : a.side ≠ b.side) :
    (PortRef.normalize a b).1.side = .output ∧ (PortRef.normalize a b).2.side = .input := by
  unfold PortRef.normalize PortRef.isOutput
  cases ha : a.side <;> cases hb : b.side <;> simp_all

/-- Bringing two ports into order forgets the order in which they were given. -/
theorem normalize_cases (a b : PortRef) :
    PortRef.normalize a b = (a, b) ∨ PortRef.normalize a b = (b, a) := by
  unfold PortRef.normalize
  split
  · exact Or.inl rfl
  · exact Or.inr rfl

/-- **When two ports may be linked.**  Brought into order they make a sound link,
no link joins them yet in either direction, and a data input is free. -/
theorem canConnect_iff {a b o i : PortRef} (hnorm : PortRef.normalize a b = (o, i))
    (id : Scalar) :
    g.canConnect a b = true ↔
      g.SoundLink ⟨id, o, i⟩ ∧
      (∀ m ∈ g.links, ¬ (m.source.address = o.address ∧ m.target.address = i.address)) ∧
      (∀ m ∈ g.links, ¬ (m.source.address = i.address ∧ m.target.address = o.address)) ∧
      (¬ g.IsExecAt i → ∀ m ∈ g.links, m.target.address ≠ i.address) := by
  have hnodes : a.node.same b.node = o.node.same i.node := by
    rcases normalize_cases a b with h | h <;> rw [hnorm] at h <;> cases h
    · rfl
    · simp [Scalar.same, eq_comm]
  have hside : a.side ≠ b.side ↔ o.side = .output ∧ i.side = .input := by
    constructor
    · intro hne
      simpa [hnorm] using normalize_sides hne
    · rintro ⟨ho, hi⟩ heq
      rcases normalize_cases a b with h | h <;> rw [hnorm] at h <;> cases h
      · exact absurd (ho.symm.trans (heq.trans hi)) (by decide)
      · exact absurd (hi.symm.trans (heq.trans ho)) (by decide)
  constructor
  · intro hcan
    unfold canConnect at hcan
    split at hcan
    · cases hcan
    · rename_i hok
      rw [hnodes] at hok
      simp only [Bool.or_eq_true, decide_eq_true_eq, not_or, Bool.not_eq_true] at hok
      obtain ⟨ho, hi⟩ := hside.mp hok.2
      rw [hnorm] at hcan
      dsimp only at hcan
      split at hcan
      · rename_i source target hsource htarget
        simp only [Bool.and_eq_true, Bool.not_eq_true', Bool.or_eq_true, List.any_eq_false,
          PortRef.same, decide_eq_true_eq, not_or, not_and] at hcan
        obtain ⟨⟨hkind, hlinks⟩, hfree⟩ := hcan
        refine ⟨⟨ho, hi, ?_, source.kind, target.kind, ?_, ?_, hkind⟩, ?_, ?_, ?_⟩
        · simpa [Scalar.same] using hok.1
        · simp [kindAt, hsource]
        · simp [kindAt, htarget]
        · exact fun m hm hsame => (hlinks m hm).1 hsame.1 hsame.2
        · exact fun m hm hsame => (hlinks m hm).2 hsame.1 hsame.2
        · intro hdata
          have : target.isExec = false := by
            simpa [IsExecAt, kindAt, htarget, Port.isExec, Kind.isExec] using hdata
          simpa [this] using hfree
      · cases hcan
  · rintro ⟨⟨ho, hi, hne, s, t, hs, ht, hkind⟩, htwin, hback, hfree⟩
    obtain ⟨source, hsource, rfl⟩ := Option.map_eq_some_iff.mp hs
    obtain ⟨target, htarget, rfl⟩ := Option.map_eq_some_iff.mp ht
    unfold canConnect
    have hguard : (a.node.same b.node || decide (a.side = b.side)) = false := by
      simp only [hnodes, Bool.or_eq_false_iff, decide_eq_false_iff_not]
      exact ⟨by simpa [Scalar.same] using hne, hside.mpr ⟨ho, hi⟩⟩
    rw [if_neg (by simpa using hguard), hnorm]
    dsimp only at hs ht htarget hsource ⊢
    rw [hsource, htarget]
    simp only [Bool.and_eq_true, Bool.not_eq_true', Bool.or_eq_true, List.any_eq_false,
      PortRef.same, decide_eq_true_eq, not_or, not_and]
    refine ⟨⟨hkind, fun m hm => ⟨fun h1 h2 => htwin m hm ⟨h1, h2⟩,
      fun h1 h2 => hback m hm ⟨h1, h2⟩⟩⟩, ?_⟩
    by_cases hexec : g.IsExecAt i
    · left
      simpa [IsExecAt, kindAt, htarget, Port.isExec, Kind.isExec] using hexec
    · exact Or.inr (hfree hexec)

/-- The link that `connect` makes, with what it takes away before that. -/
theorem connect_eq_of_canConnect {a b o i : PortRef} (hnorm : PortRef.normalize a b = (o, i))
    (hcan : g.canConnect a b = true) :
    ∃ g' : Graph, g.connect a b = ((g'.addLink o i).1, some (g'.addLink o i).2) ∧
      ((g.IsExecAt o ∧ g' = g.unlink o) ∨ (¬ g.IsExecAt o ∧ g' = g)) := by
  unfold connect
  rw [if_pos hcan, hnorm]
  by_cases hexec : g.IsExecAt o
  · refine ⟨g.unlink o, ?_, Or.inl ⟨hexec, rfl⟩⟩
    simp only [isExec_iff.mpr hexec, if_true]
  · refine ⟨g, ?_, Or.inr ⟨hexec, rfl⟩⟩
    simp only [isExec_iff, hexec, if_false]

/-- Linking two ports keeps the rules. -/
theorem WellFormed.connect (hg : g.WellFormed) (a b : PortRef) : (g.connect a b).1.WellFormed := by
  obtain ⟨o, i, hnorm⟩ : ∃ o i, PortRef.normalize a b = (o, i) := ⟨_, _, rfl⟩
  by_cases hcan : g.canConnect a b = true
  · obtain ⟨g', heq, hg'⟩ := connect_eq_of_canConnect hnorm hcan
    obtain ⟨hsound, _, _, hfree⟩ := (canConnect_iff hnorm .null).mp hcan
    rw [heq]
    rcases hg' with ⟨hexec, rfl⟩ | ⟨hexec, rfl⟩
    · refine (hg.unlink o).addLink (hsound.congr rfl rfl) ?_ ?_
      · exact fun _ m hm => source_ne_of_mem_unlink hsound.source_output hm
      · exact fun hdata m hm => hfree hdata m (List.mem_filter.mp hm).1
    · exact hg.addLink hsound (fun h => (hexec h).elim) hfree
  · simpa [Graph.connect, hcan] using hg

/-- The graph with the ends of a new link cleared: a data input gives up its
link, and so does a control-flow output. -/
def clearEnds (g : Graph) (o i : PortRef) : Graph :=
  let isExec (r : PortRef) : Bool := ((g.port? r).map Port.isExec).getD false
  let g := if isExec i then g else g.unlink i
  if isExec o then g.unlink o else g

/-- The port that the search of `autoConnect` finds is there, and its kind suits. -/
theorem suitable_spec {kind : String} {side : Side} {n : Node} {p : Port}
    (hfirst : (n.ports side.opposite).find? (isSuitable kind side) = some p) :
    (n.ports side.opposite)[p.index]? = some p ∧
      (side = .output → Kind.compatible kind p.kind = true) ∧
      (side = .input → Kind.compatible p.kind kind = true) := by
  have hsuits := List.find?_some hfirst
  refine ⟨(Node.getElem?_of_mem_ports (List.mem_of_find?_eq_some hfirst)).2, ?_, ?_⟩ <;>
    rintro rfl <;> exact hsuits

/-- **What `autoConnect` does.**  Nothing, or it makes a sound link after its ends
are cleared. -/
theorem autoConnect_cases (g : Graph) (source : PortRef) (node : Scalar) :
    g.autoConnect source node = (g, none) ∨
      ∃ o i : PortRef, g.SoundLink ⟨.null, o, i⟩ ∧
        (∀ r, r = o ∨ r = i → r = source ∨ ∃ n side index,
          g.node? node = some n ∧ r = n.ref side index) ∧
        g.autoConnect source node =
          (((g.clearEnds o i).addLink o i).1, some ((g.clearEnds o i).addLink o i).2) := by
  unfold autoConnect
  split
  · rename_i port n hport hnode
    split
    · exact Or.inl rfl
    · rename_i hne
      dsimp only
      split
      · exact Or.inl rfl
      · rename_i p hfirst
        obtain ⟨hp, hout, hin⟩ := suitable_spec hfirst
        have hsource : g.kindAt source = some port.kind := by simp [kindAt, hport]
        have htarget := kindAt_ref hnode hp
        have hdiffer : source.node.key ≠ n.id.key := by
          rw [node?_key hnode]
          simpa [Scalar.same] using hne
        refine Or.inr ⟨_, _, ?_, ?_, rfl⟩
        · cases hside : source.side with
          | output =>
              rw [hside] at htarget
              simp only [PortRef.normalize, PortRef.isOutput, hside, beq_self_eq_true, if_true]
              exact ⟨hside, rfl, hdiffer, _, _, hsource, htarget, hout hside⟩
          | input =>
              rw [hside] at htarget
              simp only [PortRef.normalize, PortRef.isOutput, hside]
              exact ⟨rfl, hside, Ne.symm hdiffer, _, _, htarget, hsource, hin hside⟩
        · rcases normalize_cases source (n.ref source.side.opposite p.index) with h | h <;>
            rw [h] <;> rintro r (rfl | rfl)
          · exact Or.inl rfl
          · exact Or.inr ⟨n, _, _, hnode, rfl⟩
          · exact Or.inr ⟨n, _, _, hnode, rfl⟩
          · exact Or.inl rfl
  · exact Or.inl rfl

/-- Clearing the ends of a link keeps the rules. -/
theorem WellFormed.clearEnds (hg : g.WellFormed) (o i : PortRef) :
    (g.clearEnds o i).WellFormed := by
  unfold Graph.clearEnds
  dsimp only
  split <;> split
  · exact hg.unlink o
  · exact (hg.unlink i).unlink o
  · exact hg
  · exact hg.unlink i

/-- Linking a port to a node keeps the rules. -/
theorem WellFormed.autoConnect (hg : g.WellFormed) (source : PortRef) (node : Scalar) :
    (g.autoConnect source node).1.WellFormed := by
  rcases autoConnect_cases g source node with heq | ⟨o, i, hsound, _, heq⟩
  · rwa [heq]
  · rw [heq]
    have hkind : (g.clearEnds o i).kindAt = g.kindAt := by
      unfold Graph.clearEnds
      dsimp only
      split <;> split <;> rfl
    refine (hg.clearEnds o i).addLink (hsound.congr (by rw [hkind]) (by rw [hkind])) ?_ ?_
    · intro hexec m hm
      rw [IsExecAt, hkind] at hexec
      simp only [Graph.clearEnds, isExec_iff.mpr hexec, if_true] at hm
      exact source_ne_of_mem_unlink hsound.source_output hm
    · intro hdata m hm
      rw [IsExecAt, hkind] at hdata
      have hexec : ¬ g.IsExecAt o := fun h => hdata (hsound.exec_iff.mp h)
      rw [Graph.clearEnds, if_neg (mt isExec_iff.mp hexec), if_neg (mt isExec_iff.mp hdata)] at hm
      exact target_ne_of_mem_unlink hsound.target_input hm

/-! ## Operations on nodes -/

/-- Changing a node keeps the rules as long as its ports keep their kinds. -/
theorem WellFormed.updateNode (hg : g.WellFormed) {old new : Node}
    (hold : g.node? new.id = some old) (hkinds : new.kinds = old.kinds) :
    (g.updateNode new).WellFormed := by
  have hkind : ∀ r, (g.updateNode new).kindAt r = g.kindAt r := by
    intro r
    apply kindAt_of_kinds
    rw [node?_updateNode]
    split
    · rename_i hkey
      rw [← node?_congr g hkey, hold, Option.map_some, Option.map_some, hkinds]
    · rfl
  exact hg.restrict (List.Sublist.refl _) fun l _ => ⟨hkind _, hkind _⟩

/-- A new node under an unused id keeps the rules. -/
theorem WellFormed.putFresh (hg : g.WellFormed) {n : Node} (hfresh : g.node? n.id = none)
    (hnodes : h.nodes = putNode g.nodes n) (hlinks : h.links = g.links) : h.WellFormed := by
  have hkind : ∀ r k, g.kindAt r = some k → h.kindAt r = g.kindAt r := by
    intro r k hr
    apply kindAt_of_kinds
    have hne : n.id.key ≠ r.node.key := by
      intro heq
      have hsome := node?_isSome_of_kindAt hr
      rw [← node?_congr g heq, hfresh] at hsome
      cases hsome
    simp only [node?, hnodes, find?_putNode, hne, if_false]
  refine hg.restrict (hlinks ▸ List.Sublist.refl _) ?_
  intro l hl
  rw [hlinks] at hl
  obtain ⟨s, t, hs, ht, _⟩ := (hg.sound l hl).kinds
  exact ⟨hkind _ s hs, hkind _ t ht⟩

/-- Removing nodes together with the links that touch them keeps the rules. -/
theorem WellFormed.without (hg : g.WellFormed) (ids : List Scalar) :
    (g.without ids).WellFormed := by
  refine hg.restrict List.filter_sublist ?_
  intro l hl
  have htouch : ∀ i ∈ ids, l.touches i = false := by
    have := (List.mem_filter.mp hl).2
    simpa using this
  have hkind : ∀ r : PortRef, (∀ i ∈ ids, i.key ≠ r.node.key) →
      (g.without ids).kindAt r = g.kindAt r := by
    intro r hr
    apply kindAt_of_kinds
    rw [node?_without g hr]
  constructor
  · refine hkind _ fun i hi heq => ?_
    have := htouch i hi
    simp [Link.touches, Scalar.same, heq] at this
  · refine hkind _ fun i hi heq => ?_
    have := htouch i hi
    simp [Link.touches, Scalar.same, heq] at this

end NodeWeave.Graph
