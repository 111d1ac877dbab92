import NodeWeave.Proofs.EditorRun
import NodeWeave.Proofs.ProgramSight
import NodeWeave.Proofs.Restore

/-!
# Documents of edited graphs

Whatever graph is made with an editor whose catalog does not change, its document
describes it in full.  The edits keep `Restorable`, one lemma for each kind of
change: nodes that come, go or change (`Restorable.append`, `Restorable.restrict`,
`Restorable.updateNode`) and links that come or go (`Restorable.addLink` and again
`Restorable.restrict`).  A program is made of nodes and links alone, so the
restored graph gives the same text, or fails in the same way.
-/

namespace NodeWeave

/-- What it means that a loaded graph is the same as another one: nothing was
left out, the nodes and the links are the same in their order, and so are the
document and the program, or its fault, whatever the limits and bounds are. -/
structure Document.Restores (c : Catalog) (g : Graph) (loaded : Outcome Graph Report) : Prop where
  ok : ∃ report, loaded.result = .ok report ∧ report.ok = true
  nodes : loaded.state.nodes = g.nodes
  links : loaded.state.links = g.links
  document : ofGraph loaded.state .null = ofGraph g .null
  source : ∀ b maxDepth now,
    Program.sourceWithin b c loaded.state maxDepth now = Program.sourceWithin b c g maxDepth now

namespace Document.Restorable

variable {limit : Nesting} {c : Catalog} {g h : Graph} {n : Node}

theorem empty : Restorable limit c Graph.empty :=
  ⟨Graph.Tidy.empty.wellFormed, Graph.numbered_empty, by simp [Graph.empty],
    by simp [WholeEnds, Graph.empty]⟩

/-- Nodes and links may go away. -/
theorem restrict (hg : Restorable limit c g) (hh : h.Tidy) (hnodes : h.nodes.Sublist g.nodes)
    (hlinks : h.links.Sublist g.links) : Restorable limit c h :=
  ⟨hh.wellFormed, hh.numbered, fun n hn => hg.fits n (hnodes.subset hn),
    fun l hl => hg.ends l (hlinks.subset hl)⟩

/-- A node that fits may come. -/
theorem append (hg : Restorable limit c g) (hh : h.Tidy) (hn : n.Fits limit c)
    (hnodes : h.nodes = g.nodes ++ [n]) (hlinks : h.links = g.links) : Restorable limit c h := by
  refine ⟨hh.wellFormed, hh.numbered, fun m hm => ?_, fun l hl => hg.ends l (hlinks ▸ hl)⟩
  rw [hnodes, List.mem_append, List.mem_singleton] at hm
  rcases hm with hm | rfl
  · exact hg.fits m hm
  · exact hn

/-- A node may change as long as it fits. -/
theorem updateNode (hg : Restorable limit c g) (hh : (g.updateNode n).Tidy)
    (hn : n.Fits limit c) : Restorable limit c (g.updateNode n) := by
  refine ⟨hh.wellFormed, hh.numbered, fun m hm => ?_, hg.ends⟩
  rcases Graph.mem_putNode hm with rfl | hm
  · exact hn
  · exact hg.fits m hm

/-- A link between ports that are named by whole numbers may come, after others
went away. -/
theorem addLink (hg : Restorable limit c g) {o i : PortRef} (hh : (h.addLink o i).1.Tidy)
    (ho : o.IsWhole) (hi : i.IsWhole) (hnodes : h.nodes = g.nodes)
    (hlinks : h.links.Sublist g.links) : Restorable limit c (h.addLink o i).1 := by
  refine ⟨hh.wellFormed, hh.numbered, fun m hm => hg.fits m (hnodes ▸ hm), fun l hl => ?_⟩
  rcases List.mem_append.mp hl with hl | hl
  · exact hg.ends l (hlinks.subset hl)
  · rw [List.mem_singleton.mp hl]
    exact ⟨ho, hi⟩

/-- **Loading the document of a restorable graph restores it.** -/
theorem restores (hg : Restorable limit c g) (htell : ∀ n ∈ g.nodes, n.Tellable) (old : Graph) :
    Restores c g (loadWithin limit c old (ofGraph g .null)) := by
  obtain ⟨nextNode, nextLink, notices, hload⟩ := loadWithin_ofGraph hg htell old
  rw [hload]
  have hprogram := fun maxDepth => Program.sourceWithin_congr c maxDepth
    (h := { nodes := g.nodes, links := g.links, nextNode, nextLink }) (g := g) rfl rfl
  exact
    { ok := ⟨_, rfl, rfl⟩
      nodes := rfl
      links := rfl
      document := rfl
      source := fun b maxDepth now => hprogram maxDepth b now }

theorem mono {wider : Nesting} (hg : Restorable limit c g) (hcopy : limit.copy ≤ wider.copy) :
    Restorable wider c g :=
  ⟨hg.wellFormed, hg.numbered, fun n hn => (hg.fits n hn).mono hcopy, hg.ends⟩

end Document.Restorable

namespace Editor

/-- An edit of the graph with arguments of the kinds that it asks for: texts for
the type of a node, numbers for a position, and references that name their nodes
by whole numbers. -/
def Operation.IsEdit : Operation → Prop
  | addCatalog _ => False
  | createNode category type x y =>
    (category.isStr = true ∧ type.isStr = true) ∧ x.isNumber = true ∧ y.isNumber = true
  | moveNode _ x y => x.isNumber = true ∧ y.isNumber = true
  | createLink a b => a.IsWhole ∧ b.IsWhole
  | autoConnect source _ => source.IsWhole
  | load _ | clear | deleteNode _ | setValue _ _ | deleteLink _ => True

theorem Operation.IsEdit.ne_addCatalog {op : Operation} (hedit : op.IsEdit) (doc : Value) :
    op ≠ .addCatalog doc := by
  intro heq
  rw [heq] at hedit
  exact hedit

variable {e : Editor}

open Document (Restorable)

theorem restorable_createNode (he : Restorable e.nesting e.catalog e.graph)
    {category type x y : Value} (hedit : (Operation.createNode category type x y).IsEdit)
    (htidy : (Graph.Recorded.addNode e.nesting e.catalog e.graph category type x y).state.Tidy) :
    Restorable e.nesting e.catalog
      (Graph.Recorded.addNode e.nesting e.catalog e.graph category type x y).state := by
  obtain ⟨⟨hcategory, htype⟩, hx, hy⟩ := hedit
  rcases (Graph.Recorded.addNode_cases he.numbered e.nesting e.catalog category type x y).2 with
    hsame | ⟨n, hbuild, _, hbuilds, hstate, _⟩
  · rwa [hsame]
  · obtain ⟨i, hi⟩ := he.numbered.nodes.counter_int
    cases category <;> cases hcategory
    cases type <;> cases htype
    obtain ⟨_, hnx, hny, _⟩ := Node.build_fields hbuild
    rw [hi] at hbuild
    have hfits : n.Fits e.nesting e.catalog :=
      ⟨Node.IsBuilt.of_build hbuild, hnx ▸ hx, hny ▸ hy, hbuilds⟩
    exact he.append htidy hfits (by rw [hstate]) (by rw [hstate])

theorem restorable_moveNode (he : Restorable e.nesting e.catalog e.graph) {id : Scalar}
    {n m : Node} {x y : Value} (hnode : e.graph.node? id = some n) (hx : x.isNumber = true)
    (hy : y.isNumber = true) (hmove : n.moveTo x y = (m, none))
    (htidy : (e.graph.updateNode m).Tidy) :
    Restorable e.nesting e.catalog (e.graph.updateNode m) := by
  have hn := he.fits n (Graph.node?_mem hnode)
  have hbare : m.bare = ({ n with x, y } : Node).bare := by
    have hlaid := Node.bare_layOut { n with x, y }
    rwa [show ({ n with x, y } : Node).layOut = (m, none) from hmove] at hlaid
  have hbuilds : e.nesting.builds e.catalog m = e.nesting.builds e.catalog n := by
    rw [show e.nesting.builds e.catalog m = e.nesting.builds e.catalog m.bare from rfl, hbare]
    rfl
  refine he.updateNode htidy ⟨hn.isBuilt.moveTo hmove, ?_, ?_, hbuilds ▸ hn.builds⟩
  · rw [show m.x = m.bare.x from rfl, hbare]
    exact hx
  · rw [show m.y = m.bare.y from rfl, hbare]
    exact hy

theorem restorable_createLink (he : Restorable e.nesting e.catalog e.graph) {a b : PortRef}
    (ha : a.IsWhole) (hb : b.IsWhole) (htidy : (Graph.Recorded.connect e.graph a b).state.Tidy) :
    Restorable e.nesting e.catalog (Graph.Recorded.connect e.graph a b).state := by
  rcases (Graph.Recorded.connect_cases e.graph a b).2 with hstate | hstate
  · rw [hstate] at htidy ⊢
    by_cases hcan : e.graph.canConnect a b = true
    · obtain ⟨o, i, hnorm⟩ : ∃ o i, PortRef.normalize a b = (o, i) := ⟨_, _, rfl⟩
      have hwhole : o.IsWhole ∧ i.IsWhole := by
        rcases Graph.normalize_cases a b with h | h <;> rw [hnorm] at h <;> cases h
        · exact ⟨ha, hb⟩
        · exact ⟨hb, ha⟩
      obtain ⟨g, heq, hg⟩ := Graph.connect_eq_of_canConnect hnorm hcan
      rw [heq] at htidy ⊢
      rcases hg with ⟨_, rfl⟩ | ⟨_, rfl⟩
      · exact he.addLink htidy hwhole.1 hwhole.2 rfl List.filter_sublist
      · exact he.addLink htidy hwhole.1 hwhole.2 rfl (List.Sublist.refl _)
    · have hsame : (e.graph.connect a b).1 = e.graph := by simp [Graph.connect, hcan]
      rwa [hsame]
  · rw [hstate] at htidy ⊢
    exact he.restrict htidy (List.Sublist.refl _) List.filter_sublist

theorem restorable_autoConnect (he : Restorable e.nesting e.catalog e.graph) {source : PortRef}
    {node : Scalar} (hsource : source.IsWhole)
    (htidy : (e.graph.autoConnect source node).1.Tidy) :
    Restorable e.nesting e.catalog (e.graph.autoConnect source node).1 := by
  rcases Graph.autoConnect_cases e.graph source node with heq | ⟨o, i, _, hends, heq⟩
  · rwa [heq]
  · rw [heq] at htidy ⊢
    have hwhole : ∀ r, r = o ∨ r = i → r.IsWhole := by
      intro r hr
      rcases hends r hr with rfl | ⟨n, side, index, hnode, rfl⟩
      · exact hsource
      · exact he.numbered.nodes.exists_int (List.mem_map_of_mem (Graph.node?_mem hnode))
    obtain ⟨links, hsub, hclear⟩ := Graph.clearEnds_eq e.graph o i
    rw [hclear] at htidy ⊢
    exact he.addLink htidy (hwhole o (Or.inl rfl)) (hwhole i (Or.inr rfl)) rfl hsub

/-- A loaded graph is described in full by its own document, also when a fault
ended the loading, as long as it keeps the rules for links. -/
theorem restorable_load (he : Restorable e.nesting e.catalog e.graph) (doc : Value)
    (htidy : (Document.loadWithin e.nesting e.catalog e.graph doc).state.Tidy) :
    Restorable e.nesting e.catalog (Document.loadWithin e.nesting e.catalog e.graph doc).state := by
  rcases Document.loadWithin_cases e.nesting e.catalog e.graph doc with
    ⟨hsame, _⟩ | ⟨hnodes, _⟩ | ⟨hlinked, _⟩ | ⟨loaded, hlinked, hstate⟩
  · rwa [hsame]
  · exact ⟨htidy.wellFormed, htidy.numbered, hnodes.linked.fits, hnodes.linked.ends⟩
  · exact ⟨htidy.wellFormed, htidy.numbered, hlinked.fits, hlinked.ends⟩
  · rw [hstate] at htidy ⊢
    exact ⟨htidy.wellFormed, htidy.numbered, hlinked.fits,
      fun l hl => hlinked.ends l ((Graph.repair_links_sublist loaded).subset hl)⟩

/-- **One edit keeps a graph restorable.** -/
theorem restorable_step (he : Restorable e.nesting e.catalog e.graph) {op : Operation}
    (hedit : op.IsEdit) (hok : op.Succeeds e) :
    Restorable e.nesting e.catalog (op.run e).state.graph := by
  have htidy : e.graph.Tidy := ⟨he.wellFormed, he.numbered⟩
  have hnext : (op.run e).state.graph.Tidy := tidy_step htidy hok.settles
  have hraw : ∀ g, op.unrepaired e = some g → g.Tidy ∧ (op.run e).state.graph = g := by
    intro g hg
    obtain ⟨hg', hstate, _⟩ := run_of_unrepaired htidy hg
    exact ⟨hg', hstate⟩
  cases op with
  | addCatalog doc => exact hedit.elim
  | load doc => exact restorable_load he doc hnext
  | clear => exact Restorable.empty
  | createNode category type x y =>
      obtain ⟨hg, hstate⟩ := hraw _ rfl
      rw [hstate]
      exact restorable_createNode he hedit hg
  | deleteNode id =>
      obtain ⟨hg, hstate⟩ := hraw _ rfl
      rw [hstate]
      rcases Graph.removeNodes_cases e.graph [id] with hsame | hwithout
      · rwa [hsame]
      · rw [hwithout] at hg ⊢
        exact he.restrict hg List.filter_sublist List.filter_sublist
  | createLink a b =>
      obtain ⟨hg, hstate⟩ := hraw _ rfl
      rw [hstate]
      exact restorable_createLink he hedit.1 hedit.2 hg
  | autoConnect source node =>
      obtain ⟨hg, hstate⟩ := hraw _ rfl
      rw [hstate]
      exact restorable_autoConnect he hedit hg
  | deleteLink id =>
      rcases deleteLink_cases htidy id with hsame | ⟨links, hsub, hg, hgraph⟩
      · rwa [show (Operation.run e (.deleteLink id)).state = e from hsame]
      · rw [show (Operation.run e (.deleteLink id)).state.graph = _ from hgraph]
        exact he.restrict hg (List.Sublist.refl _) hsub
  | moveNode id x y =>
      rcases moveNode_cases e id x y with ⟨_, fault, hfault⟩ | ⟨n, hnode, hgraph, hmoved⟩
      · simp [Operation.Succeeds, Operation.run, Outcome.done, hfault, Except.map] at hok
      · rcases hmoved with hmoved | ⟨fault, hfault⟩
        · rw [show (Operation.run e (.moveNode id x y)).state.graph = _ from hgraph] at hnext ⊢
          exact restorable_moveNode he hnode hedit.1 hedit.2 (by rw [← hmoved]) hnext
        · simp [Operation.Succeeds, Operation.run, Outcome.done, hfault, Except.map] at hok
  | setValue id v =>
      rcases setValue_cases e id v with hsame | ⟨n, hnode, hset, hgraph⟩
      · rwa [show (Operation.run e (.setValue id v)).state = e from hsame]
      · rw [show (Operation.run e (.setValue id v)).state.graph = _ from hgraph] at hnext ⊢
        have hn := he.fits n (Graph.node?_mem hnode)
        exact he.updateNode hnext
          ⟨hn.isBuilt.setValue hset, hn.x_number, hn.y_number, hn.builds⟩

/-- Edits that succeed lead to restorable graphs only. -/
theorem Run.restorable {start : Editor} (hfresh : start.graph = Graph.empty)
    (hrun : Run (fun e op => op.IsEdit ∧ op.Succeeds e) start e) :
    (e.catalog = start.catalog ∧ e.nesting = start.nesting) ∧
      Restorable e.nesting e.catalog e.graph := by
  induction hrun with
  | start => exact ⟨⟨rfl, rfl⟩, hfresh ▸ Restorable.empty⟩
  | step _ op hop ih =>
      obtain ⟨hframe, he⟩ := ih
      obtain ⟨hcatalog, hnesting⟩ := frame_run hop.1.ne_addCatalog
      rw [hcatalog, hnesting]
      exact ⟨hframe, restorable_step he hop.1 hop.2⟩

/-- **Documents restore their graphs.**  However a graph was made by edits of an
empty one, loading its document with the same catalog gives the same graph again,
whatever graph it is loaded into.  The loader has at least as much room for first
values as the editor had, and each node has a value that suits its slot or an id that
can be written.  The file of the graph does as well, where reading undoes the writing
of the document. -/
theorem Run.document_restores {start : Editor} (hfresh : start.graph = Graph.empty)
    (hrun : Run (fun e op => op.IsEdit ∧ op.Succeeds e) start e)
    (htell : ∀ n ∈ e.graph.nodes, n.Tellable) (limit : Nesting)
    (hlimit : start.nesting.copy ≤ limit.copy) (old : Graph) :
    Document.Restores start.catalog e.graph
        (Document.loadWithin limit start.catalog old e.document) ∧
      (Json.parse (Document.fileText e.graph .null).toList = .ok e.document →
        Document.Restores start.catalog e.graph (Document.loadText limit start.catalog old
          (Document.fileText e.graph .null).toList)) := by
  obtain ⟨⟨hcatalog, hnesting⟩, he⟩ := hrun.restorable hfresh
  rw [hcatalog, hnesting] at he
  have hrestores := (he.mono hlimit).restores htell old
  refine ⟨hrestores, fun hparse => ?_⟩
  unfold Document.loadText
  rw [hparse]
  exact hrestores

/-- A catalog of numbers, which have values, and of sinks for them. -/
def numberCatalog : Value :=
  .obj [("nodeCategories", .obj [("math", .obj [("nodes", .obj [
    ("number", .obj [
      ("outputs", .list [.obj [("type", .str "number"), ("name", .str "out")]]),
      ("value", .obj [("type", .str "int"), ("default", .int 1)])]),
    ("sink", .obj [("inputs", .list [.obj [("type", .str "number")]])])])])])]

/-- An editor with nothing but the catalog. -/
def numberEditor : Editor :=
  ((Operation.addCatalog numberCatalog).run {}).state

/-- Two numbers and a sink: one number is set to null and linked to the sink, the
other one is moved and then deleted. -/
def numberEdits : List Operation :=
  [.createNode (.str "math") (.str "number") (.int 0) (.int 0),
   .createNode (.str "math") (.str "number") (.int 0) (.int 100),
   .createNode (.str "math") (.str "sink") (.int 200) (.int 0),
   .setValue (.int 0) .null,
   .moveNode (.int 1) (.bool true) (.int 50),
   .createLink ⟨.int 2, .input, 0⟩ ⟨.int 0, .output, 0⟩,
   .deleteNode (.int 1)]

/-- The number that was set to null and the sink come back. -/
theorem Run.document_restores_numbers :
    (runAll numberEditor numberEdits).graph.nodes.map Node.id = [.int 0, .int 2] ∧
      Document.Restores numberEditor.catalog (runAll numberEditor numberEdits).graph
        (Document.loadWithin .direct numberEditor.catalog Graph.empty
          (runAll numberEditor numberEdits).document) := by
  have hwhole : ∀ (i : Int) (side : Side) (index : Int), (⟨.int i, side, index⟩ : PortRef).IsWhole :=
    fun i _ _ => ⟨i, rfl⟩
  have hadmitted : Admitted (fun e op => op.IsEdit ∧ op.Succeeds e) numberEditor numberEdits :=
    ⟨⟨⟨⟨rfl, rfl⟩, rfl, rfl⟩, Operation.succeeds_of_toBool (by decide +kernel)⟩,
     ⟨⟨⟨rfl, rfl⟩, rfl, rfl⟩, Operation.succeeds_of_toBool (by decide +kernel)⟩,
     ⟨⟨⟨rfl, rfl⟩, rfl, rfl⟩, Operation.succeeds_of_toBool (by decide +kernel)⟩,
     ⟨trivial, Operation.succeeds_of_toBool (by decide +kernel)⟩,
     ⟨⟨rfl, rfl⟩, Operation.succeeds_of_toBool (by decide +kernel)⟩,
     ⟨⟨hwhole _ _ _, hwhole _ _ _⟩, Operation.succeeds_of_toBool (by decide +kernel)⟩,
     ⟨trivial, Operation.succeeds_of_toBool (by decide +kernel)⟩, trivial⟩
  exact ⟨by decide +kernel,
    (Run.document_restores rfl (Run.of_admitted .start hadmitted) (by decide +kernel) .direct
      (by decide) Graph.empty).1⟩

/-- An editor whose catalog has nodes without ports, and nodes whose first value does not
suit their slot. -/
def looseEditor : Editor :=
  ((Operation.addCatalog (.obj [("nodeCategories", .obj [("c", .obj [("nodes", .obj [
    ("bare", .obj []),
    ("odd", .obj [("value", .obj [("type", .str "int"), ("default", .str "abc")])])])])])])).run
    {}).state

/-- A node without ports at a position that is no number. -/
def placeOddly : Operation :=
  .createNode (.str "c") (.str "bare") (.str "abc") (.int 0)

/-- A node with an id that cannot be written, whose first value does not suit its slot. -/
def loadLongId : Operation :=
  .load (.obj [("nodes", .list [.obj [("id", .int Number.writeBound), ("category", .str "c"),
    ("type", .str "odd")]])])

/-- **Documents that do not restore their graphs.**  A position that is no number is taken
over when a node is made, but its entry is skipped.  And a value that does not suit its
slot is reported when it is stored, which cannot be done under a long id; as a first value
it was never stored. -/
theorem Run.document_not_restored :
    (placeOddly.Succeeds looseEditor ∧
      (Document.loadWithin .direct looseEditor.catalog Graph.empty
        (placeOddly.run looseEditor).state.document).result.toOption.map Document.Report.ok =
          some false) ∧
    loadLongId.Succeeds looseEditor ∧
      (Document.loadWithin .direct looseEditor.catalog Graph.empty
        (loadLongId.run looseEditor).state.document).result = .error .unwritable :=
  ⟨⟨Operation.succeeds_of_toBool (by decide +kernel), by decide +kernel⟩,
    Operation.succeeds_of_toBool (by decide +kernel),
    eq_unwritable_of_failsWith (by decide +kernel)⟩

end Editor

end NodeWeave
