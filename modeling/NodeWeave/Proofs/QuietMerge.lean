import NodeWeave.Proofs.EditorRun
import NodeWeave.Proofs.MergedTypes
import NodeWeave.Proofs.NodeSync
import NodeWeave.Proofs.ProgramSight

/-!
# Merges that concern no node

Along every run without a fault each node is in step with the catalog.  Merges with
other numbers of ports keep this as well: a node takes over what it has ports for,
and no merge takes a type away.  So when a document defines none of the types in
use, the nodes have nothing to take over and the repair finds the links in order
(`refresh_of_inStep`), and a program, which sees of the catalog only the types of
its nodes, stays the same.
-/

namespace NodeWeave

namespace Graph

/-- All nodes are in step with the catalog. -/
def InStep (c : Catalog) (g : Graph) : Prop :=
  ∀ n ∈ g.nodes, n.InStep c

variable {c : Catalog} {g h : Graph}

/-! ## Taking the catalog over -/

namespace Recorded

/-- How the front of some nodes takes a catalog over that has its type. -/
theorem syncNodes_cons_eq_ok {n : Node} {rest done : List Node} {notices : List Notice}
    {t : NodeType} (hfind : c.find? n.category n.type = some t) :
    syncNodes c (n :: rest) = (done, notices, none) ↔ ∃ m others,
      n.sync t = (m, none) ∧ syncNodes c rest = (others, notices, none) ∧ done = m :: others := by
  simp only [syncNodes, hfind]
  constructor
  · intro h
    split at h
    · cases h
    · rename_i m hsync
      simp only [Prod.mk.injEq] at h
      obtain ⟨hdone, hnotices, hfault⟩ := h
      exact ⟨m, _, hsync, by rw [← hnotices, ← hfault], hdone.symm⟩
  · intro h
    obtain ⟨m, others, hsync, hrest, hdone⟩ := h
    rw [hsync, hrest, hdone]

/-- Nodes that are in step stay as they are. -/
theorem syncNodes_of_inStep {nodes : List Node} (hnodes : ∀ n ∈ nodes, n.InStep c) :
    syncNodes c nodes = (nodes, [], none) := by
  induction nodes with
  | nil => rfl
  | cons n rest ih =>
      obtain ⟨t, hfind, hagrees⟩ := hnodes n List.mem_cons_self
      have hrest := ih fun m hm => hnodes m (List.mem_cons_of_mem n hm)
      exact (syncNodes_cons_eq_ok hfind).mpr ⟨n, rest, hagrees.sync, hrest, rfl⟩

/-- Nodes whose types the catalog has are in step once they took them over. -/
theorem inStep_of_syncNodes {nodes done : List Node} {notices : List Notice}
    (htypes : ∀ n ∈ nodes, (c.find? n.category n.type).isSome = true)
    (h : syncNodes c nodes = (done, notices, none)) : ∀ n ∈ done, n.InStep c := by
  induction nodes generalizing done with
  | nil =>
      cases h
      intro n hn
      cases hn
  | cons first rest ih =>
      obtain ⟨t, hfind⟩ := Option.isSome_iff_exists.mp (htypes first List.mem_cons_self)
      obtain ⟨m, others, hsync, hrest, hdone⟩ := (syncNodes_cons_eq_ok hfind).mp h
      have hothers := ih (fun n hn => htypes n (List.mem_cons_of_mem first hn)) hrest
      intro n hn
      rw [hdone] at hn
      cases hn with
      | head => exact Node.InStep.of_sync hfind hsync
      | tail _ hn => exact hothers n hn

/-- **A graph in step has nothing to take over.** -/
theorem refresh_of_inStep (hg : g.WellFormed) (hstep : g.InStep c) :
    refresh c g = ⟨g, [], .ok []⟩ := by
  simp only [refresh, syncNodes_of_inStep hstep, repair_of_wellFormed hg]
  rfl

/-- A graph that took a catalog over without a fault is in step with it. -/
theorem inStep_refresh (htypes : ∀ n ∈ g.nodes, (c.find? n.category n.type).isSome = true)
    {removed : List Link} (hok : (refresh c g).result = .ok removed) :
    (refresh c g).state.InStep c := by
  unfold refresh at hok ⊢
  split at hok
  · cases hok
  · rename_i nodes notices hsync
    have hnodes := inStep_of_syncNodes htypes hsync
    intro n hn
    rw [show _ = ({ g with nodes } : Graph).repair.1 from repair_state _] at hn
    exact hnodes n hn

end Recorded

/-! ## Edits -/

namespace InStep

theorem restrict (hg : g.InStep c) (hnodes : ∀ n ∈ h.nodes, n ∈ g.nodes) : h.InStep c :=
  fun n hn => hg n (hnodes n hn)

theorem updateNode (hg : g.InStep c) {n : Node} (hn : n.InStep c) : (g.updateNode n).InStep c := by
  intro m hm
  rcases mem_putNode hm with heq | hold
  · rwa [heq]
  · exact hg m hold

theorem addNode (hg : g.InStep c) (hnumbered : g.Numbered) (limit : Nesting)
    (category type x y : Value) :
    (Recorded.addNode limit c g category type x y).state.InStep c := by
  rcases (Recorded.addNode_cases hnumbered limit c category type x y).2 with
    hsame | ⟨n, hbuild, _, _, hstate, _⟩
  · rwa [hsame]
  · intro m hm
    rw [hstate] at hm
    rcases List.mem_append.mp hm with hold | hnew
    · exact hg m hold
    · rw [List.mem_singleton.mp hnew]
      exact Node.InStep.of_build hbuild

/-- A loaded graph is in step, also when a fault ended the loading. -/
theorem loadWithin (hg : g.InStep c) (limit : Nesting) (doc : Value) :
    (Document.loadWithin limit c g doc).state.InStep c := by
  rcases Document.loadWithin_cases limit c g doc with
    ⟨hsame, _⟩ | ⟨hnodes, _⟩ | ⟨hlinked, _⟩ | ⟨loaded, hlinked, hstate⟩
  · rwa [hsame]
  · intro n hn
    exact (hnodes.linked.fits n hn).isBuilt.inStep
  · intro n hn
    exact (hlinked.fits n hn).isBuilt.inStep
  · rw [hstate]
    intro n hn
    exact (hlinked.fits n hn).isBuilt.inStep

end InStep

theorem nodes_connect (g : Graph) (a b : PortRef) :
    (Recorded.connect g a b).state.nodes = g.nodes := by
  rcases (Recorded.connect_cases g a b).2 with hstate | hstate
  · rw [hstate]
    unfold connect
    split
    · dsimp only
      split <;> rfl
    · rfl
  · rw [hstate]
    rfl

theorem nodes_autoConnect (g : Graph) (source : PortRef) (node : Scalar) :
    (g.autoConnect source node).1.nodes = g.nodes := by
  rcases autoConnect_cases g source node with heq | ⟨o, i, _, _, heq⟩
  · rw [heq]
  · obtain ⟨links, _, hclear⟩ := clearEnds_eq g o i
    rw [heq, hclear]
    rfl

end Graph

namespace Editor

variable {e : Editor}

/-- A merge that succeeds leaves all nodes in step with the new catalog. -/
theorem inStep_addCatalog (he : e.graph.InStep e.catalog) {doc : Value} {removed : List Link}
    (hok : (e.addCatalog doc).result = .ok removed) :
    (e.addCatalog doc).state.graph.InStep (e.addCatalog doc).state.catalog := by
  unfold addCatalog at hok ⊢
  split at hok
  · cases hok
  · rename_i catalog hmerge
    apply Graph.Recorded.inStep_refresh _ hok
    intro n hn
    obtain ⟨t, hfind, _⟩ := he n hn
    exact Catalog.find?_merge_isSome hmerge (Option.isSome_of_mem hfind)

/-- **One operation keeps the nodes in step with the catalog.** -/
theorem inStep_step (htidy : e.graph.Tidy) (he : e.graph.InStep e.catalog) {op : Operation}
    (hok : op.Succeeds e) : (op.run e).state.graph.InStep (op.run e).state.catalog := by
  have hcatalog : (∀ doc, op ≠ .addCatalog doc) → (op.run e).state.catalog = e.catalog :=
    fun hop => (frame_run hop).1
  -- an edit that ends with a repair leaves the graph that it handed to the repair
  have hraw : ∀ g, op.unrepaired e = some g → g.InStep e.catalog →
      (op.run e).state.graph.InStep e.catalog := by
    intro g hop hg
    obtain ⟨_, hstate, _⟩ := run_of_unrepaired htidy hop
    rwa [hstate]
  cases op with
  | addCatalog doc =>
      obtain ⟨removed, hresult, _⟩ := map_eq_ok hok
      exact inStep_addCatalog he hresult
  | load doc => exact he.loadWithin e.nesting doc
  | clear =>
      intro n hn
      cases hn
  | createNode category type x y =>
      rw [hcatalog nofun]
      exact hraw _ rfl (he.addNode htidy.numbered e.nesting category type x y)
  | deleteNode id =>
      rw [hcatalog nofun]
      apply hraw _ rfl
      rcases Graph.removeNodes_cases e.graph [id] with hsame | hwithout
      · rwa [hsame]
      · rw [hwithout]
        exact he.restrict fun n hn => (List.mem_filter.mp hn).1
  | moveNode id x y =>
      rw [hcatalog nofun]
      rcases moveNode_cases e id x y with ⟨hsame, _⟩ | ⟨n, hnode, hgraph, _⟩
      · rwa [show (Operation.run e (.moveNode id x y)).state = e from hsame]
      · rw [show (Operation.run e (.moveNode id x y)).state.graph = _ from hgraph]
        exact he.updateNode ((he n (Graph.node?_mem hnode)).moveTo x y)
  | setValue id v =>
      rw [hcatalog nofun]
      rcases setValue_cases e id v with hsame | ⟨n, hnode, _, hgraph⟩
      · rwa [show (Operation.run e (.setValue id v)).state = e from hsame]
      · rw [show (Operation.run e (.setValue id v)).state.graph = _ from hgraph]
        exact he.updateNode ((he n (Graph.node?_mem hnode)).of_value v)
  | createLink a b =>
      rw [hcatalog nofun]
      apply hraw _ rfl
      exact he.restrict fun n hn => by rwa [Graph.nodes_connect] at hn
  | autoConnect source node =>
      rw [hcatalog nofun]
      apply hraw _ rfl
      exact he.restrict fun n hn => by
        rwa [Graph.Recorded.autoConnect_state, Graph.nodes_autoConnect] at hn
  | deleteLink id =>
      rw [hcatalog nofun]
      rcases deleteLink_cases htidy id with hsame | ⟨links, _, _, hgraph⟩
      · rwa [show (Operation.run e (.deleteLink id)).state = e from hsame]
      · rw [show (Operation.run e (.deleteLink id)).state.graph = _ from hgraph]
        exact he

/-- Every run without a fault keeps the graph tidy and in step with the catalog. -/
theorem Run.inStep {start : Editor} (hfresh : start.graph = Graph.empty)
    (hrun : Run (fun e op => op.Succeeds e) start e) :
    e.graph.Tidy ∧ e.graph.InStep e.catalog := by
  induction hrun with
  | start =>
      rw [hfresh]
      refine ⟨Graph.Tidy.empty, ?_⟩
      intro n hn
      cases hn
  | step _ op hop ih => exact ⟨tidy_step ih.1 hop.settles, inStep_step ih.1 ih.2 hop⟩

/-- **A merge that concerns no node is not seen.**  In every editor that a run
without a fault leads to, a document that is accepted and defines none of the types
of the nodes changes the catalog and nothing else: no link is removed, there is
nothing to report, and the graph stays as it is with its counters.  Whatever the
limits and bounds are, the program has the same text as before, or the same fault. -/
theorem Run.quiet_merge {start : Editor} (hfresh : start.graph = Graph.empty)
    (hrun : Run (fun e op => op.Succeeds e) start e) {doc : Value} {merged : Catalog}
    (hmerge : e.catalog.merge doc = (merged, none))
    (hforeign : ∀ n ∈ e.graph.nodes, Catalog.documentDefines doc n.category n.type = false) :
    e.addCatalog doc = ⟨{ e with catalog := merged }, [], .ok []⟩ ∧
      ∀ b limit, Program.bodyWithin b merged e.graph limit =
        Program.bodyWithin b e.catalog e.graph limit := by
  obtain ⟨htidy, hstep⟩ := hrun.inStep hfresh
  have hsame : Program.SameTypes e.graph e.catalog merged := fun n hn =>
    Catalog.find?_merge_of_not_defines hmerge (hforeign n hn)
  have hnext : e.graph.InStep merged := by
    intro n hn
    obtain ⟨t, hfind, hagrees⟩ := hstep n hn
    exact ⟨t, (hsame n hn).trans hfind, hagrees⟩
  refine ⟨?_, fun b limit => hsame.bodyWithin_eq b limit⟩
  simp only [addCatalog, hmerge, Graph.Recorded.refresh_of_inStep htidy.wellFormed hnext]

/-- The nodes of `passCatalog` with a template, one input more and a name for the
output. -/
def widerCatalog : Value :=
  .obj [("nodeCategories", .obj [("flow", .obj [("nodes", .obj [("pass", .obj [
    ("inputs", .list [.obj [("type", .str "exec"), ("code", .str "pass $\x7bnext\x7d")],
      .obj [("type", .str "number"), ("name", .str "times")]]),
    ("outputs", .list [.obj [("type", .str "exec"), ("name", .str "next")]])])])])])]

/-- Another type in the same category and a type of the same name in another one. -/
def strangeCatalog : Value :=
  .obj [("nodeCategories", .obj [("flow", .obj [("nodes", .obj [("stop", .obj [
    ("inputs", .list [.obj [("type", .str "exec")]])])])])]),
    ("nodeTypes", .obj [("pass", .obj [("category", .str "other")])])]

/-- Two linked nodes whose type is then replaced by a wider one. -/
def widened : List Operation :=
  [.addCatalog passCatalog,
   .createNode (.str "flow") (.str "pass") (.int 0) (.int 0),
   .createNode (.str "flow") (.str "pass") (.int 100) (.int 0),
   .createLink ⟨.int 0, .output, 0⟩ ⟨.int 1, .input, 0⟩,
   .addCatalog widerCatalog]

/-- The nodes have one input of the two that their type has by now, and still there
is nothing to take over. -/
theorem Run.quiet_merge_widened :
    (runAll {} widened).graph.nodes.map
        (fun n => ((n.ports .input).length, (n.ports .output).map fun p => p.name.text)) =
          [(1, ["next"]), (1, ["next"])] ∧
      (runAll {} widened).addCatalog strangeCatalog =
        ⟨{ runAll {} widened with
            catalog := ((runAll {} widened).catalog.merge strangeCatalog).1 }, [], .ok []⟩ := by
  have hadmitted : Admitted (fun e op => op.Succeeds e) {} widened :=
    ⟨Operation.succeeds_of_toBool (by decide +kernel),
     Operation.succeeds_of_toBool (by decide +kernel),
     Operation.succeeds_of_toBool (by decide +kernel),
     Operation.succeeds_of_toBool (by decide +kernel),
     Operation.succeeds_of_toBool (by decide +kernel), trivial⟩
  have hmerge : ((runAll {} widened).catalog.merge strangeCatalog).2 = none :=
    Option.isNone_iff_eq_none.mp (by decide +kernel)
  have hforeign : ∀ n ∈ (runAll {} widened).graph.nodes,
      Catalog.documentDefines strangeCatalog n.category n.type = false := by decide +kernel
  exact ⟨by decide +kernel,
    (Run.quiet_merge rfl (Run.of_admitted .start hadmitted) (Prod.ext rfl hmerge) hforeign).1⟩

end Editor

end NodeWeave
