import NodeWeave.Graph.Wiring

/-!
# Finding nodes and ports

A look-up depends on the key of an id only, and so a reference may spell the
name of its node in any way.  What the rules for links read of a graph is the
kind of the port that a reference leads to, `kindAt`.  This file says what every
change of the nodes does to it: `node?_updateNode` for a node that is stored and
`node?_without` for nodes that are removed.
-/

namespace NodeWeave

/-- A side of some ports, each in the place where it is listed. -/
def Port.Row.seated (side : Side) (ports : List Port) : Port.Row side where
  ports := ports.zipIdx.map fun (p, index) => { p with side, index }
  inPlace := by
    intro i p hp
    rw [List.getElem?_map, List.getElem?_zipIdx, Option.map_map, Option.map_eq_some_iff] at hp
    obtain ⟨listed, _, rfl⟩ := hp
    simp [Port.seat]

/-- The kinds of the ports of a side, in their order. -/
def Node.kinds (n : Node) (side : Side) : List String :=
  (n.ports side).map Port.kind

namespace Graph

/-- The kind of the port that a reference leads to, if there is one. -/
def kindAt (g : Graph) (r : PortRef) : Option String :=
  (g.port? r).map Port.kind

/-- Does the reference lead to a control-flow port? -/
def IsExecAt (g : Graph) (r : PortRef) : Prop :=
  g.kindAt r = some Kind.exec

/-- No two nodes have the same id, however it is spelled. -/
def DistinctIds (g : Graph) : Prop :=
  (g.nodes.map fun n => n.id.key).Nodup

instance (g : Graph) : Decidable g.DistinctIds :=
  inferInstanceAs (Decidable (g.nodes.map fun n => n.id.key).Nodup)

variable {g h : Graph} {n : Node} {id a b : Scalar} {r s : PortRef}

/-- Spelling an id in another way finds the same node. -/
theorem node?_congr (g : Graph) (h : a.key = b.key) : g.node? a = g.node? b := by
  simp [node?, Scalar.same, h]

/-- The node that is found has the id that was asked for. -/
theorem node?_key (h : g.node? id = some n) : n.id.key = id.key := by
  unfold node? at h
  exact Scalar.same_iff.mp (by simpa using List.find?_some h)

/-- The node that is found belongs to the graph. -/
theorem node?_mem (h : g.node? id = some n) : n ∈ g.nodes :=
  List.mem_of_find?_eq_some h

/-- A node that was found is found again under its own id. -/
theorem node?_self (h : g.node? id = some n) : g.node? n.id = some n := by
  rw [node?_congr g (node?_key h), h]

/-- Among distinct ids every node is found under its own. -/
theorem DistinctIds.node?_of_mem (h : g.DistinctIds) (hn : n ∈ g.nodes) :
    g.node? n.id = some n := by
  unfold DistinctIds at h
  unfold node?
  generalize g.nodes = nodes at h hn
  induction nodes with
  | nil => cases hn
  | cons m rest ih =>
      rw [List.map_cons, List.nodup_cons] at h
      rcases List.mem_cons.mp hn with rfl | hrest
      · simp
      · have hne : m.id.key ≠ n.id.key := fun heq =>
          h.1 (heq ▸ List.mem_map_of_mem hrest)
        rw [List.find?_cons_of_neg (by simpa [Scalar.same] using hne)]
        exact ih h.2 hrest

/-- References with the same address lead to the same port. -/
theorem port?_congr (g : Graph) (h : r.address = s.address) : g.port? r = g.port? s := by
  simp only [PortRef.address, Prod.mk.injEq] at h
  obtain ⟨hnode, hside, hindex⟩ := h
  simp only [port?, node?_congr g hnode, hside, hindex]

/-- References with the same address lead to the same kind. -/
theorem kindAt_congr (g : Graph) (h : r.address = s.address) : g.kindAt r = g.kindAt s := by
  rw [kindAt, kindAt, port?_congr g h]

/-- The kind at a reference in terms of the kinds of its node. -/
theorem kindAt_eq (g : Graph) (r : PortRef) :
    g.kindAt r = (g.node? r.node).bind fun n =>
      if 0 ≤ r.index then (n.kinds r.side)[r.index.toNat]? else none := by
  cases hnode : g.node? r.node with
  | none => simp [kindAt, port?, hnode]
  | some n => by_cases hi : 0 ≤ r.index <;> simp [kindAt, port?, hnode, Node.port?, Node.kinds, hi]

/-- Two graphs whose node under an id has the same kinds of ports agree about
every reference to that node. -/
theorem kindAt_of_kinds
    (hkinds : (h.node? r.node).map Node.kinds = (g.node? r.node).map Node.kinds) :
    h.kindAt r = g.kindAt r := by
  rw [kindAt_eq, kindAt_eq]
  cases hg : g.node? r.node <;> cases hh : h.node? r.node <;>
    simp_all

/-- A kind is found only at an existing node. -/
theorem node?_isSome_of_kindAt {k : String} (h : g.kindAt r = some k) :
    (g.node? r.node).isSome := by
  rw [kindAt_eq] at h
  cases hnode : g.node? r.node with
  | none => simp [hnode] at h
  | some n => rfl

/-- The reference that a node gives for one of its ports leads there. -/
theorem kindAt_ref {side : Side} {index : Nat} {p : Port} (hnode : g.node? id = some n)
    (hport : (n.ports side)[index]? = some p) : g.kindAt (n.ref side index) = some p.kind := by
  simp [kindAt, port?, Node.ref, node?_self hnode, Node.port?, hport]

/-- The test of the program for a control-flow port is `IsExecAt`. -/
theorem isExec_iff : ((g.port? r).map Port.isExec).getD false = true ↔ g.IsExecAt r := by
  cases hport : g.port? r <;>
    simp [IsExecAt, kindAt, hport, Port.isExec, Kind.isExec]

/-- Storing a node makes it the one found under its id and changes no other
look-up. -/
theorem find?_putNode (nodes : List Node) (n : Node) (id : Scalar) :
    (putNode nodes n).find? (fun m => m.id.same id) =
      if n.id.key = id.key then some n else nodes.find? (fun m => m.id.same id) := by
  induction nodes with
  | nil => by_cases hid : n.id.key = id.key <;> simp [putNode, Scalar.same, hid]
  | cons m rest ih =>
      by_cases hm : m.id.key = n.id.key
      · by_cases hid : n.id.key = id.key <;> simp [putNode, Scalar.same, hm, hid]
      · have hput : putNode (m :: rest) n = m :: putNode rest n := by
          simp [putNode, Scalar.same, hm]
        rw [hput, List.find?_cons, List.find?_cons, ih]
        by_cases hmid : m.id.key = id.key
        · have hid : n.id.key ≠ id.key := fun heq => hm (hmid.trans heq.symm)
          simp [hid, Scalar.same_iff.mpr hmid]
        · simp [Scalar.same, hmid]

/-- What is found after a node is stored. -/
theorem node?_updateNode (g : Graph) (n : Node) (id : Scalar) :
    (g.updateNode n).node? id = if n.id.key = id.key then some n else g.node? id :=
  find?_putNode g.nodes n id

/-- A node under a new id comes last. -/
theorem putNode_fresh {nodes : List Node} {n : Node}
    (hfresh : ∀ m ∈ nodes, m.id.key ≠ n.id.key) : putNode nodes n = nodes ++ [n] := by
  induction nodes with
  | nil => rfl
  | cons m rest ih =>
      have hm : m.id.key ≠ n.id.key := hfresh m List.mem_cons_self
      have hrest := ih fun k hk => hfresh k (List.mem_cons_of_mem _ hk)
      simp [putNode, Scalar.same, hm, hrest]

theorem mem_putNode {nodes : List Node} {m n : Node} (hm : m ∈ putNode nodes n) :
    m = n ∨ m ∈ nodes := by
  induction nodes with
  | nil => exact Or.inl (List.mem_singleton.mp hm)
  | cons k rest ih =>
      unfold putNode at hm
      split at hm <;> rcases List.mem_cons.mp hm with rfl | hm
      · exact Or.inl rfl
      · exact Or.inr (List.mem_cons_of_mem _ hm)
      · exact Or.inr List.mem_cons_self
      · exact (ih hm).imp_right (List.mem_cons_of_mem _)

/-- Storing a node in place of another one changes nothing that both have in
common. -/
theorem map_putNode {α : Type} (f : Node → α) {nodes : List Node} {old new : Node}
    (hold : nodes.find? (fun m => m.id.same new.id) = some old) (hf : f new = f old) :
    (putNode nodes new).map f = nodes.map f := by
  induction nodes with
  | nil => cases hold
  | cons m rest ih =>
      by_cases hm : m.id.same new.id = true
      · have : m = old := by simpa [List.find?_cons, hm] using hold
        subst this
        rw [putNode, if_pos hm, List.map_cons, List.map_cons, hf]
      · have hrest : rest.find? (fun k => k.id.same new.id) = some old := by
          simpa [List.find?_cons, hm] using hold
        simp [putNode, hm, ih hrest]

/-- Removing nodes hides them and no others. -/
theorem node?_without (g : Graph) {ids : List Scalar} (hid : ∀ i ∈ ids, i.key ≠ id.key) :
    (g.without ids).node? id = g.node? id := by
  simp only [node?, without, List.find?_filter]
  congr 1
  funext n
  by_cases hn : n.id.key = id.key
  · have : ids.any n.id.same = false := by
      rw [List.any_eq_false]
      intro i hi hsame
      exact hid i hi ((Scalar.same_iff.mp hsame).symm.trans hn)
    simp [this]
  · simp [Scalar.same, hn]

end Graph

end NodeWeave
