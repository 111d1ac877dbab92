import NodeWeave.Editor
import NodeWeave.Proofs.LinkRules
import NodeWeave.Proofs.Loading

/-!
# Runs of an editor

A run is any finite sequence of operations of an editor, with any arguments.
Along every run the graph is `Tidy`: it keeps the rules for links, and its ids
are below their counters.  The second half is what makes the first one work for
new nodes, which must not take the place of a node that links lead to.

The repair at the end of an operation has nothing to do: the operations keep the
rules by themselves, and so `repaired` adds nothing to them
(`repaired_of_wellFormed`).  Only a changed catalog, which gives ports new kinds,
and a loaded document need the repair.

There are two ways to miss it.  A catalog may fail to be taken over, and a document may
stop to load at a connection that cannot be told.  `Settles` rules both out.
-/

namespace NodeWeave

/-- The outcome of an operation without its result. -/
def Outcome.done {σ α : Type} (o : Outcome σ α) : Outcome σ Unit :=
  ⟨o.state, o.notices, o.result.map fun _ => ()⟩

namespace Graph

/-- The rules for links hold, and all ids are below their counters. -/
structure Tidy (g : Graph) : Prop where
  wellFormed : g.WellFormed
  numbered : g.Numbered

namespace Recorded

variable {g : Graph}

theorem addNode_cases (hg : g.Numbered) (limit : Nesting) (c : Catalog)
    (category type x y : Value) :
    (addNode limit c g category type x y).notices = [] ∧
      ((addNode limit c g category type x y).state = g ∨ ∃ n,
        Node.build c g.nextNode.toScalar category type x y = .ok n ∧ g.node? n.id = none ∧
        limit.builds c n = true ∧
        (addNode limit c g category type x y).state =
          { g with nodes := g.nodes ++ [n], nextNode := g.nextNode.next } ∧
        (addNode limit c g category type x y).state.Numbered) := by
  unfold addNode
  split
  · exact ⟨rfl, Or.inl rfl⟩
  · rename_i added n hadd
    obtain ⟨hbuild, hfresh, rfl, hnumbered⟩ := hg.addNode hadd
    split
    · rename_i hbuilds
      exact ⟨rfl, Or.inr ⟨n, hbuild, hfresh, hbuilds, rfl, hnumbered⟩⟩
    · exact ⟨rfl, Or.inl rfl⟩

theorem connect_cases (g : Graph) (a b : PortRef) :
    (connect g a b).notices = [] ∧ ((connect g a b).state = (g.connect a b).1 ∨
      (connect g a b).state = g.unlink (PortRef.normalize a b).1) := by
  cases hcan : g.canConnect a b with
  | false =>
      rw [Graph.connect_of_not_canConnect hcan, connect, hcan]
      exact ⟨rfl, Or.inl rfl⟩
  | true =>
      simp only [connect, hcan, if_true]
      split
      · exact ⟨rfl, Or.inl rfl⟩
      · exact ⟨rfl, Or.inr rfl⟩

/-- Where there is no link to return, nothing has changed. -/
theorem connect_eq_none {a b : PortRef} (hnone : (connect g a b).result = .ok none) :
    (connect g a b).state = g := by
  cases hcan : g.canConnect a b with
  | false => exact (connect_of_not_canConnect hcan).1
  | true =>
      simp only [connect, hcan, if_true, Graph.connect_eq_linked hcan, record] at hnone
      split at hnone
      · dsimp only at hnone
        split at hnone
        · cases hnone
        · cases hnone
      · cases hnone

theorem syncNodes_ids (c : Catalog) (nodes : List Node) :
    (syncNodes c nodes).1.map Node.id = nodes.map Node.id := by
  induction nodes with
  | nil => rfl
  | cons n rest ih =>
      unfold syncNodes
      split
      · split
        · simp only [List.map_cons, ih]
        · rfl
      · rename_i t _
        have hid := Node.id_sync n t
        split
        · rename_i m e hsync
          have hm : m.id = n.id := by simpa [hsync] using hid
          simp only [List.map_cons, hm]
        · rename_i m hsync
          have hm : m.id = n.id := by simpa [hsync] using hid
          simp only [List.map_cons, hm, ih]

end Recorded

theorem removeNodes_cases (g : Graph) (ids : List Scalar) :
    (g.removeNodes ids).1 = g ∨ (g.removeNodes ids).1 = g.without ids := by
  unfold removeNodes
  dsimp only
  split
  · exact Or.inl rfl
  · exact Or.inr rfl

namespace Tidy

variable {g h : Graph}

/-- The graph of a new editor is tidy. -/
theorem empty : Graph.empty.Tidy :=
  ⟨wellFormed_of_no_links rfl, numbered_empty⟩

theorem addNode (hg : g.Tidy) (limit : Nesting) (c : Catalog) (category type x y : Value) :
    (Recorded.addNode limit c g category type x y).state.Tidy := by
  obtain ⟨_, hsame | ⟨n, _, hfresh, _, hstate, hnumbered⟩⟩ :=
    Recorded.addNode_cases hg.numbered limit c category type x y
  · rwa [hsame]
  · refine ⟨?_, hnumbered⟩
    have hput : putNode g.nodes n = g.nodes ++ [n] := by
      refine putNode_fresh fun m hm hkey => ?_
      have hnone := List.find?_eq_none.mp hfresh m hm
      exact hnone (Scalar.same_iff.mpr hkey)
    refine hg.wellFormed.putFresh hfresh ?_ ?_
    · rw [hstate, hput]
    · rw [hstate]

theorem removeNodes (hg : g.Tidy) (ids : List Scalar) : (g.removeNodes ids).1.Tidy := by
  rcases removeNodes_cases g ids with hsame | hwithout
  · rwa [hsame]
  · rw [hwithout]
    exact ⟨hg.wellFormed.without ids, hg.numbered.without ids⟩

theorem updateNode (hg : g.Tidy) {old new : Node} {id : Scalar} (hold : g.node? id = some old)
    (hid : new.id = old.id) (hkinds : new.kinds = old.kinds) : (g.updateNode new).Tidy := by
  have hself : g.node? new.id = some old := by
    rw [hid]
    exact node?_self hold
  exact ⟨hg.wellFormed.updateNode hself hkinds, hg.numbered.updateNode hself hid⟩

theorem connect (hg : g.Tidy) (a b : PortRef) : (Recorded.connect g a b).state.Tidy := by
  rcases (Recorded.connect_cases g a b).2 with hstate | hstate
  · rw [hstate]
    exact ⟨hg.wellFormed.connect a b, hg.numbered.connect a b⟩
  · rw [hstate]
    exact ⟨hg.wellFormed.unlink _, hg.numbered.fewer_links List.filter_sublist⟩

theorem autoConnect (hg : g.Tidy) (source : PortRef) (node : Scalar) :
    (Recorded.autoConnect g source node).state.Tidy :=
  ⟨hg.wellFormed.autoConnect source node, hg.numbered.autoConnect source node⟩

theorem removeLink (hg : g.Tidy) {id : Value} {l : Link} (hremove : g.removeLink id = .ok (h, l)) :
    h.Tidy := by
  refine ⟨hg.wellFormed.removeLink hremove, ?_⟩
  obtain ⟨links, hsub, rfl⟩ := removeLink_eq_ok hremove
  exact hg.numbered.fewer_links hsub

/-- A repaired graph is tidy, whatever its links were. -/
theorem repair (hg : g.Numbered) : g.repair.1.Tidy :=
  ⟨repair_wellFormed g, hg.fewer_links (repair_links_sublist g)⟩

/-- Loading leaves a tidy graph, also when a fault ends it; unless the document cannot be
told, and then there is a fault. -/
theorem loadWithin (hg : g.Tidy) (limit : Nesting) (c : Catalog) (doc : Value) :
    (Document.loadWithin limit c g doc).state.Tidy ∨ ¬ Document.Told limit doc ∧
      ∃ fault, (Document.loadWithin limit c g doc).result = .error fault := by
  rcases Document.loadWithin_cases limit c g doc with
    ⟨hsame, _⟩ | ⟨⟨hnumbered, hlinks, _⟩, _⟩ | ⟨_, huntold⟩ | ⟨loaded, hlinked, hstate⟩
  · rw [hsame]
    exact Or.inl hg
  · exact Or.inl ⟨wellFormed_of_no_links hlinks, hnumbered⟩
  · exact Or.inr huntold
  · rw [hstate]
    exact Or.inl (repair hlinked.numbered)

/-- Taking over a catalog that ends without a fault leaves a tidy graph. -/
theorem refresh (hg : g.Tidy) {c : Catalog} {removed : List Link}
    (hok : (Recorded.refresh c g).result = .ok removed) : (Recorded.refresh c g).state.Tidy := by
  unfold Recorded.refresh at hok ⊢
  have hids := Recorded.syncNodes_ids c g.nodes
  split at hok
  · cases hok
  · rename_i nodes notices hsync
    have hids' : nodes.map Node.id = g.nodes.map Node.id := by simpa [hsync] using hids
    have hnumbered : ({ g with nodes } : Graph).Numbered :=
      hg.numbered.restrict (hids' ▸ List.Sublist.refl _) (List.Sublist.refl _) rfl rfl
    rw [show _ = ({ g with nodes } : Graph).repair.1 from Recorded.repair_state _]
    exact repair hnumbered

end Tidy

end Graph

namespace Editor

/-- An operation of an editor with its arguments. -/
inductive Operation where
  | addCatalog (doc : Value)
  | load (doc : Value)
  | clear
  | createNode (category type x y : Value)
  | deleteNode (id : Scalar)
  | moveNode (id : Scalar) (x y : Value)
  | setValue (id : Scalar) (v : Value)
  | createLink (a b : PortRef)
  | autoConnect (source : PortRef) (node : Scalar)
  | deleteLink (id : Value)

namespace Operation

/-- What an operation leaves behind. -/
def run (e : Editor) : Operation → Outcome Editor Unit
  | addCatalog doc => (e.addCatalog doc).done
  | load doc => (e.load doc).done
  | clear => ⟨e.clear, [], .ok ()⟩
  | createNode category type x y => (e.createNode category type x y).done
  | deleteNode id => (e.deleteNode id).done
  | moveNode id x y => (e.moveNode id x y).done
  | setValue id v => (e.setValue id v).done
  | createLink a b => (e.createLink a b).done
  | autoConnect source node => (e.autoConnect source node).done
  | deleteLink id => (e.deleteLink id).done

/-- Has the operation ended without a fault? -/
def Succeeds (e : Editor) (op : Operation) : Prop :=
  (op.run e).result = .ok ()

theorem succeeds_of_toBool {e : Editor} {op : Operation} (hok : (op.run e).result.toBool = true) :
    op.Succeeds e := by
  unfold Succeeds
  cases hresult : (op.run e).result with
  | error fault => simp [hresult, Except.toBool] at hok
  | ok done => rfl

/-- A merged catalog has to be taken over without a fault, and a document that cannot be
told has to be loaded without one; all other operations may fail. -/
structure Settles (e : Editor) (op : Operation) : Prop where
  merge : ∀ doc, op = .addCatalog doc → op.Succeeds e
  load : ∀ doc, op = .load doc → op.Succeeds e ∨ Document.Told e.nesting doc


theorem Succeeds.settles {e : Editor} {op : Operation} (hok : op.Succeeds e) : op.Settles e :=
  ⟨fun _ _ => hok, fun _ _ => Or.inl hok⟩

/-- The graph that an operation hands to the repair of the links, for those
operations that end with one. -/
def unrepaired (e : Editor) : Operation → Option Graph
  | createNode category type x y =>
    some (Graph.Recorded.addNode e.nesting e.catalog e.graph category type x y).state
  | deleteNode id => some (e.graph.removeNodes [id]).1
  | createLink a b => some (Graph.Recorded.connect e.graph a b).state
  | autoConnect source node => some (Graph.Recorded.autoConnect e.graph source node).state
  | deleteLink id => (e.graph.removeLink id).toOption.map Prod.fst
  | _ => none

end Operation

/-- The editors that operations lead to, each operation being admitted in the
state it meets. -/
inductive Run (admits : Editor → Operation → Prop) (start : Editor) : Editor → Prop
  | start : Run admits start start
  | step {e : Editor} (before : Run admits start e) (op : Operation) (hop : admits e op) :
      Run admits start (op.run e).state

variable {e : Editor}

/-- **The repair pass is idle** after an edit that keeps the rules. -/
theorem repaired_of_wellFormed {α : Type} (edit : Outcome Graph α)
    (hgraph : edit.state.WellFormed) :
    e.repaired edit = e.edited edit.state edit.notices edit.result := by
  unfold repaired
  split
  · rename_i fault hresult
    rw [hresult]
  · rename_i result hresult
    rw [Graph.Recorded.repair_of_wellFormed hgraph, hresult]
    simp [Except.map]

/-- What an operation that repairs the links hands to the repair is what it
leaves, and there is nothing to report. -/
theorem run_of_unrepaired (he : e.graph.Tidy) {op : Operation} {g : Graph}
    (hop : op.unrepaired e = some g) :
    g.Tidy ∧ (op.run e).state.graph = g ∧ (op.run e).notices = [] := by
  cases op with
  | createNode category type x y =>
      have htidy := he.addNode e.nesting e.catalog category type x y
      cases hop
      refine ⟨htidy, ?_⟩
      simp only [Operation.run, createNode, repaired_of_wellFormed _ htidy.wellFormed]
      exact ⟨rfl, (Graph.Recorded.addNode_cases he.numbered ..).1⟩
  | deleteNode id =>
      have htidy := he.removeNodes [id]
      cases hop
      refine ⟨htidy, ?_⟩
      simp only [Operation.run, deleteNode]
      rw [repaired_of_wellFormed _ htidy.wellFormed]
      exact ⟨rfl, rfl⟩
  | createLink a b =>
      have htidy := he.connect a b
      cases hop
      refine ⟨htidy, ?_⟩
      simp only [Operation.run, createLink]
      split
      · rename_i hnone
        exact ⟨(Graph.Recorded.connect_eq_none hnone).symm, rfl⟩
      · rw [repaired_of_wellFormed _ htidy.wellFormed]
        exact ⟨rfl, (Graph.Recorded.connect_cases e.graph a b).1⟩
  | autoConnect source node =>
      have htidy := he.autoConnect source node
      cases hop
      refine ⟨htidy, ?_⟩
      simp only [Operation.run, autoConnect, repaired_of_wellFormed _ htidy.wellFormed]
      exact ⟨rfl, rfl⟩
  | deleteLink id =>
      cases hremove : e.graph.removeLink id with
      | error fault => simp [Operation.unrepaired, hremove, Except.toOption] at hop
      | ok removed =>
          obtain ⟨graph, l⟩ := removed
          have hgraph : graph = g := by
            simpa [Operation.unrepaired, hremove, Except.toOption] using hop
          subst hgraph
          have htidy := he.removeLink hremove
          refine ⟨htidy, ?_⟩
          simp only [Operation.run, deleteLink, hremove]
          rw [repaired_of_wellFormed _ htidy.wellFormed]
          exact ⟨rfl, rfl⟩
  | addCatalog doc => cases hop
  | load doc => cases hop
  | clear => cases hop
  | moveNode id x y => cases hop
  | setValue id v => cases hop

theorem moveNode_cases (e : Editor) (id : Scalar) (x y : Value) :
    ((e.moveNode id x y).state = e ∧ ∃ fault, (e.moveNode id x y).result = .error fault) ∨
      ∃ n, e.graph.node? id = some n ∧
        (e.moveNode id x y).state.graph = e.graph.updateNode (n.moveTo x y).1 ∧
        ((n.moveTo x y).2 = none ∨ ∃ fault, (e.moveNode id x y).result = .error fault) := by
  unfold moveNode node
  cases hnode : e.graph.node? id with
  | none => exact Or.inl ⟨rfl, _, rfl⟩
  | some n =>
      refine Or.inr ⟨n, rfl, rfl, ?_⟩
      cases hfault : (n.moveTo x y).2 with
      | none => exact Or.inl rfl
      | some fault => exact Or.inr ⟨fault, by simp [edited, hfault]⟩

theorem setValue_cases (e : Editor) (id : Scalar) (v : Value) :
    (e.setValue id v).state = e ∨ ∃ n, e.graph.node? id = some n ∧
      n.setValue v = .ok { n with value := v } ∧
      (e.setValue id v).state.graph = e.graph.updateNode { n with value := v } := by
  unfold setValue node
  cases hnode : e.graph.node? id with
  | none => exact Or.inl rfl
  | some n =>
      cases hset : n.setValue v with
      | error fault => exact Or.inl (by simp only [hset]; rfl)
      | ok changed =>
          obtain ⟨_, _, rfl⟩ := Node.setValue_eq_ok.mp hset
          exact Or.inr ⟨n, rfl, hset, by simp only [hset]; rfl⟩

theorem deleteLink_cases (he : e.graph.Tidy) (id : Value) :
    (e.deleteLink id).state = e ∨ ∃ links, links.Sublist e.graph.links ∧
      ({ e.graph with links } : Graph).Tidy ∧
      (e.deleteLink id).state.graph = { e.graph with links } := by
  unfold deleteLink
  cases hremove : e.graph.removeLink id with
  | error fault => exact Or.inl rfl
  | ok removed =>
      have htidy := he.removeLink hremove
      obtain ⟨links, hsub, hgraph⟩ := Graph.removeLink_eq_ok hremove
      rw [hgraph] at htidy
      refine Or.inr ⟨links, hsub, htidy, ?_⟩
      dsimp only
      rw [hgraph, repaired_of_wellFormed _ htidy.wellFormed]
      rfl

/-- The repair of the links changes nothing but the graph. -/
theorem frame_repaired {α : Type} (edit : Outcome Graph α) :
    (e.repaired edit).state.catalog = e.catalog ∧ (e.repaired edit).state.nesting = e.nesting := by
  unfold repaired
  split <;> exact ⟨rfl, rfl⟩

/-- Only a merge changes the catalog, and nothing changes the limits. -/
theorem frame_run {op : Operation} (hop : ∀ doc, op ≠ .addCatalog doc) :
    (op.run e).state.catalog = e.catalog ∧ (op.run e).state.nesting = e.nesting := by
  cases op with
  | addCatalog doc => exact (hop doc rfl).elim
  | load doc => exact ⟨rfl, rfl⟩
  | clear => exact ⟨rfl, rfl⟩
  | createNode category type x y => exact frame_repaired _
  | deleteNode id => exact frame_repaired _
  | moveNode id x y =>
      simp only [Operation.run, Outcome.done, moveNode]
      split <;> exact ⟨rfl, rfl⟩
  | setValue id v =>
      simp only [Operation.run, Outcome.done, setValue]
      split
      · exact ⟨rfl, rfl⟩
      · split <;> exact ⟨rfl, rfl⟩
  | createLink a b =>
      simp only [Operation.run, Outcome.done, createLink]
      split
      · exact ⟨rfl, rfl⟩
      · exact frame_repaired _
  | autoConnect source node => exact frame_repaired _
  | deleteLink id =>
      simp only [Operation.run, Outcome.done, deleteLink]
      split
      · exact ⟨rfl, rfl⟩
      · exact frame_repaired _

/-- **One operation keeps the graph tidy.** -/
theorem tidy_step (he : e.graph.Tidy) {op : Operation} (hop : op.Settles e) :
    (op.run e).state.graph.Tidy := by
  cases hraw : op.unrepaired e with
  | some g =>
      obtain ⟨hg, hstate, _⟩ := run_of_unrepaired he hraw
      rwa [hstate]
  | none =>
      cases op with
      | addCatalog doc =>
          have hok := hop.merge doc rfl
          unfold Operation.Succeeds at hok
          simp only [Operation.run, Outcome.done, addCatalog] at hok ⊢
          split at hok
          · cases hok
          · rename_i catalog hmerge
            cases hresult : (Graph.Recorded.refresh catalog e.graph).result with
            | error fault => simp [hresult, Except.map] at hok
            | ok removed => exact he.refresh hresult
      | load doc =>
          rcases he.loadWithin e.nesting e.catalog doc with htidy | ⟨huntold, fault, hfault⟩
          · exact htidy
          · rcases hop.load doc rfl with hok | htold
            · simp [Operation.Succeeds, Operation.run, Outcome.done, load, edited, hfault,
                Except.map] at hok
            · exact (huntold htold).elim
      | clear => exact Graph.Tidy.empty
      | moveNode id x y =>
          rcases moveNode_cases e id x y with ⟨hsame, _⟩ | ⟨n, hnode, hgraph, _⟩
          · rwa [show (Operation.run e (.moveNode id x y)).state = e from hsame]
          · rw [show (Operation.run e (.moveNode id x y)).state.graph = _ from hgraph]
            exact he.updateNode hnode (n.id_moveTo x y) (n.kinds_moveTo x y)
      | setValue id v =>
          rcases setValue_cases e id v with hsame | ⟨n, hnode, _, hgraph⟩
          · rwa [show (Operation.run e (.setValue id v)).state = e from hsame]
          · rw [show (Operation.run e (.setValue id v)).state.graph = _ from hgraph]
            exact he.updateNode hnode rfl rfl
      | deleteLink id =>
          rcases deleteLink_cases he id with hsame | ⟨links, _, htidy, hgraph⟩
          · rwa [show (Operation.run e (.deleteLink id)).state = e from hsame]
          · rwa [show (Operation.run e (.deleteLink id)).state.graph = _ from hgraph]
      | createNode category type x y => cases hraw
      | deleteNode id => cases hraw
      | createLink a b => cases hraw
      | autoConnect source node => cases hraw

/-- A catalog with one type of nodes, which pass control flow on. -/
def passCatalog : Value :=
  .obj [("nodeCategories", .obj [("flow", .obj [("nodes", .obj [("pass", .obj [
    ("inputs", .list [.obj [("type", .str "exec")]]),
    ("outputs", .list [.obj [("type", .str "exec")]])])])])])]

/-- The editor after some operations. -/
def runAll (e : Editor) (ops : List Operation) : Editor :=
  ops.foldl (fun e op => (op.run e).state) e

/-- Is each of the operations admitted in the state that it meets? -/
def Admitted (admits : Editor → Operation → Prop) : Editor → List Operation → Prop
  | _, [] => True
  | e, op :: rest => admits e op ∧ Admitted admits (op.run e).state rest

/-- Operations that are admitted one after the other make a run. -/
theorem Run.of_admitted {admits : Editor → Operation → Prop} {start : Editor} {ops : List Operation}
    (hrun : Run admits start e) (hops : Admitted admits e ops) :
    Run admits start (runAll e ops) := by
  induction ops generalizing e with
  | nil => exact hrun
  | cons op rest ih => exact ih (hrun.step op hops.1) hops.2

/-- A document that cannot be told, since the second connection has too long an id: the
loading stops there, and the first connection stays, from a number to a text. -/
example :
    let port (type : String) : Value := .list [.obj [("type", .str type)]]
    let catalog : Value := .obj [("nodeCategories", .obj [("c", .obj [("nodes", .obj [
      ("number", .obj [("outputs", port "number")]), ("text", .obj [("inputs", port "text")])])])])]
    let node (id : Int) (type : String) : Value :=
      .obj [("id", .int id), ("category", .str "c"), ("type", .str type)]
    let stop (node : Int) (side : String) : Value :=
      .obj [("nodeId", .int node), ("portIndex", .int 0), ("portType", .str side)]
    let doc : Value := .obj [("nodes", .list [node 0 "number", node 1 "text"]),
      ("connections", .list [.obj [("id", .int 0), ("from", stop 0 "output"), ("to", stop 1 "input")],
        .obj [("id", .int Number.writeBound)]])]
    let loaded := (({} : Editor).addCatalog catalog).state.load doc
    loaded.result.toBool = false ∧ ¬ loaded.state.graph.WellFormed := by
  decide +kernel

end Editor

end NodeWeave
