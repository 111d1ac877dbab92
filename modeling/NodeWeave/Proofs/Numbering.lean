import NodeWeave.Proofs.NodeShape
import NodeWeave.Proofs.Repair

/-!
# Ids below their counters

Ids that an editor gives or reads are whole numbers, and each counter is above
all ids that are in use, so a new id is a fresh one.  Nodes and links are counted
in the same way: `Counted` says it of any list of ids and a counter, and
`Numbered` of a graph.  Restored ids move a counter past them (`Counted.past`),
given ids take the counter itself (`Counted.next`), and leaving ids out changes
nothing (`Counted.sublist`).
-/

namespace NodeWeave

/-- A counter moves past a whole number that it has not passed yet. -/
theorem Number.past_int (k i : Int) :
    (Number.int k).past (.int i) = .ok (.int (max k (i + 1))) := by
  have hle : (Number.int k).le (.int i) = decide (k ≤ i) := by
    simp only [Number.le, Number.compare?]
    rcases Int.lt_trichotomy k i with hlt | heq | hgt
    · rw [Int.compare_eq_lt.mpr hlt]
      simp [Int.le_of_lt hlt]
    · subst heq
      simp
    · rw [Int.compare_eq_gt.mpr hgt]
      simp [Int.not_le.mpr hgt]
  simp only [Number.past, Scalar.toValue, Value.number?, hle, Number.next, decide_eq_true_eq]
  split
  · rw [Int.max_eq_right (by omega)]
  · rw [Int.max_eq_left (by omega)]

/-- The ids are whole numbers below the counter, and none of them comes twice. -/
def Counted (ids : List Scalar) (counter : Number) : Prop :=
  ∃ k : Int, counter = .int k ∧ (∀ id ∈ ids, ∃ i : Int, id = .int i ∧ i < k) ∧ ids.Nodup

namespace Counted

variable {ids ids' : List Scalar} {counter counter' : Number} {id : Scalar} {i : Int}

/-- No id is counted by a counter at the start. -/
theorem nil (k : Int) : Counted [] (.int k) :=
  ⟨k, rfl, by simp, List.nodup_nil⟩

/-- Ids may be left out. -/
theorem sublist (h : Counted ids counter) (hsub : ids'.Sublist ids) : Counted ids' counter := by
  obtain ⟨k, hk, hbelow, hnodup⟩ := h
  exact ⟨k, hk, fun id hid => hbelow id (hsub.subset hid), hnodup.sublist hsub⟩

/-- A counted id is a whole number. -/
theorem exists_int (h : Counted ids counter) (hid : id ∈ ids) : ∃ i : Int, id = .int i := by
  obtain ⟨_, _, hbelow, _⟩ := h
  obtain ⟨i, hi, _⟩ := hbelow id hid
  exact ⟨i, hi⟩

/-- The counter itself is a whole number. -/
theorem counter_int (h : Counted ids counter) : ∃ i : Int, counter.toScalar = .int i := by
  obtain ⟨k, rfl, _⟩ := h
  exact ⟨k, rfl⟩

/-- Different whole numbers have different keys, so among counted ids the keys
are distinct as well. -/
theorem key_inj (h : Counted ids counter) {a b : Scalar} (ha : a ∈ ids) (hb : b ∈ ids)
    (hkey : a.key = b.key) : a = b := by
  obtain ⟨i, rfl⟩ := h.exists_int ha
  obtain ⟨j, rfl⟩ := h.exists_int hb
  simpa [Scalar.key] using hkey

/-- The next id is none of those in use. -/
theorem fresh (h : Counted ids counter) (hid : id ∈ ids) :
    id.key ≠ counter.toScalar.key := by
  obtain ⟨k, rfl, hbelow, _⟩ := h
  obtain ⟨i, rfl, hi⟩ := hbelow id hid
  simp only [Number.toScalar, Scalar.key, ne_eq, Key.whole.injEq]
  omega

/-- The next id may be given. -/
theorem next (h : Counted ids counter) : Counted (ids ++ [counter.toScalar]) counter.next := by
  have hfresh : counter.toScalar ∉ ids := fun hmem => h.fresh hmem rfl
  obtain ⟨k, rfl, hbelow, hnodup⟩ := h
  refine ⟨k + 1, rfl, ?_, ?_⟩
  · intro id hid
    rw [List.mem_append, List.mem_singleton] at hid
    rcases hid with hid | rfl
    · obtain ⟨i, hi, hlt⟩ := hbelow id hid
      exact ⟨i, hi, by omega⟩
    · exact ⟨k, rfl, by omega⟩
  · rw [List.nodup_append]
    refine ⟨hnodup, by simp, ?_⟩
    intro a ha b hb hab
    rw [List.mem_singleton] at hb
    exact hfresh (hb ▸ hab ▸ ha)

/-- A restored id moves the counter past it. -/
theorem past (h : Counted ids counter) (hnew : Scalar.int i ∉ ids) :
    ∃ counter', counter.past (.int i) = .ok counter' ∧
      Counted (ids ++ [.int i]) counter' := by
  obtain ⟨k, rfl, hbelow, hnodup⟩ := h
  refine ⟨_, Number.past_int k i, _, rfl, ?_, ?_⟩
  · intro id hid
    rw [List.mem_append, List.mem_singleton] at hid
    rcases hid with hid | rfl
    · obtain ⟨j, hj, hlt⟩ := hbelow id hid
      exact ⟨j, hj, by omega⟩
    · exact ⟨i, rfl, by omega⟩
  · rw [List.nodup_append]
    refine ⟨hnodup, by simp, ?_⟩
    intro a ha b hb hab
    rw [List.mem_singleton] at hb
    exact hnew (hb ▸ hab ▸ ha)

end Counted

namespace Graph

/-- The ids of the nodes and those of the links are counted by their counters. -/
structure Numbered (g : Graph) : Prop where
  nodes : Counted (g.nodes.map Node.id) g.nextNode
  links : Counted (g.links.map Link.id) g.nextLink

variable {g h : Graph} {n : Node} {l : Link}

/-- The empty graph is numbered. -/
theorem numbered_empty : Graph.empty.Numbered :=
  ⟨Counted.nil 0, Counted.nil 0⟩

/-- Nodes and links may go away, and nodes may change in all but their ids. -/
theorem Numbered.restrict (hg : g.Numbered)
    (hnodes : (h.nodes.map Node.id).Sublist (g.nodes.map Node.id))
    (hlinks : h.links.Sublist g.links) (hnextNode : h.nextNode = g.nextNode)
    (hnextLink : h.nextLink = g.nextLink) : h.Numbered :=
  ⟨hnextNode ▸ hg.nodes.sublist hnodes, hnextLink ▸ hg.links.sublist (hlinks.map _)⟩

/-- Numbered nodes have distinct ids, however these are spelled. -/
theorem Numbered.distinctIds (hg : g.Numbered) : g.DistinctIds := by
  have hkeys : ((g.nodes.map Node.id).map Scalar.key).Nodup := by
    obtain ⟨_, _, _, hnodup⟩ := hg.nodes
    rw [List.nodup_iff_pairwise_ne, List.pairwise_map]
    refine (List.nodup_iff_pairwise_ne.mp hnodup).imp_of_mem ?_
    exact fun ha hb hne hkey => hne (hg.nodes.key_inj ha hb hkey)
  rwa [List.map_map] at hkeys

/-- No node has the id that comes next. -/
theorem Numbered.node?_next (hg : g.Numbered) : g.node? g.nextNode.toScalar = none := by
  unfold node?
  rw [List.find?_eq_none]
  intro m hm hsame
  exact hg.nodes.fresh (List.mem_map_of_mem hm) (Scalar.same_iff.mp hsame)

/-- A graph that loses links stays numbered. -/
theorem Numbered.fewer_links (hg : g.Numbered) {links : List Link}
    (hsub : links.Sublist g.links) : ({ g with links } : Graph).Numbered :=
  hg.restrict (List.Sublist.refl _) hsub rfl rfl

/-- Changing a node in all but its id keeps a graph numbered. -/
theorem Numbered.updateNode (hg : g.Numbered) {old new : Node}
    (hold : g.node? new.id = some old) (hid : new.id = old.id) : (g.updateNode new).Numbered := by
  have hids : (g.updateNode new).nodes.map Node.id = g.nodes.map Node.id :=
    map_putNode Node.id hold hid
  exact hg.restrict (hids ▸ List.Sublist.refl _) (List.Sublist.refl _) rfl rfl

/-- Removing nodes with their links keeps a graph numbered. -/
theorem Numbered.without (hg : g.Numbered) (ids : List Scalar) : (g.without ids).Numbered :=
  hg.restrict (List.filter_sublist.map _) List.filter_sublist rfl rfl

/-- Adding a link under the next id keeps a graph numbered. -/
theorem Numbered.addLink (hg : g.Numbered) (o i : PortRef) : (g.addLink o i).1.Numbered := by
  refine ⟨hg.nodes, ?_⟩
  simpa [Graph.addLink] using hg.links.next

/-- Clearing the ends of a link takes links away. -/
theorem clearEnds_eq (g : Graph) (o i : PortRef) :
    ∃ links, links.Sublist g.links ∧ g.clearEnds o i = { g with links } := by
  unfold clearEnds
  dsimp only
  split <;> split
  · exact ⟨_, List.filter_sublist, rfl⟩
  · exact ⟨_, List.filter_sublist.trans List.filter_sublist, rfl⟩
  · exact ⟨_, List.Sublist.refl _, rfl⟩
  · exact ⟨_, List.filter_sublist, rfl⟩

/-- Linking two ports keeps a graph numbered. -/
theorem Numbered.connect (hg : g.Numbered) (a b : PortRef) : (g.connect a b).1.Numbered := by
  obtain ⟨o, i, hnorm⟩ : ∃ o i, PortRef.normalize a b = (o, i) := ⟨_, _, rfl⟩
  by_cases hcan : g.canConnect a b = true
  · obtain ⟨g', heq, ⟨_, rfl⟩ | ⟨_, rfl⟩⟩ := connect_eq_of_canConnect hnorm hcan
    · rw [heq]
      exact (hg.fewer_links List.filter_sublist).addLink _ _
    · rw [heq]
      exact hg.addLink _ _
  · simpa [Graph.connect, hcan] using hg

/-- Linking a port to a node keeps a graph numbered. -/
theorem Numbered.autoConnect (hg : g.Numbered) (source : PortRef) (node : Scalar) :
    (g.autoConnect source node).1.Numbered := by
  rcases autoConnect_cases g source node with heq | ⟨o, i, _, _, heq⟩
  · rwa [heq]
  · rw [heq]
    obtain ⟨links, hsub, hclear⟩ := clearEnds_eq g o i
    rw [hclear]
    exact (hg.fewer_links hsub).addLink o i

/-- **A new node gets a fresh id**, and comes after all others. -/
theorem Numbered.addNode (hg : g.Numbered) {c : Catalog} {category type x y : Value}
    (hadd : g.addNode c category type x y = .ok (h, n)) :
    Node.build c g.nextNode.toScalar category type x y = .ok n ∧ g.node? n.id = none ∧
      h = { g with nodes := g.nodes ++ [n], nextNode := g.nextNode.next } ∧ h.Numbered := by
  unfold Graph.addNode at hadd
  cases hbuild : Node.build c g.nextNode.toScalar category type x y with
  | error e => simp [hbuild, bind, Except.bind] at hadd
  | ok built =>
      simp only [hbuild, bind, Except.bind, pure, Except.pure, Except.ok.injEq,
        Prod.mk.injEq] at hadd
      obtain ⟨rfl, rfl⟩ := hadd
      have hid : built.id = g.nextNode.toScalar := (Node.build_fields hbuild).1
      have hput : putNode g.nodes built = g.nodes ++ [built] :=
        putNode_fresh fun m hm => hid ▸ hg.nodes.fresh (List.mem_map_of_mem hm)
      refine ⟨rfl, hid ▸ hg.node?_next, by rw [hput], ?_, hg.links⟩
      simpa [hput, hid] using hg.nodes.next

end Graph

end NodeWeave
