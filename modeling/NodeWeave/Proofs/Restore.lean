import NodeWeave.Document.Export
import NodeWeave.Proofs.LinkRules
import NodeWeave.Proofs.Loading

/-!
# Loading the document of a graph

The document of a graph leaves out what the catalog gives again.  When every node
is as its type gives it and all names are whole numbers, nothing is lost:
`Restorable` collects what a graph needs for that, and `loadWithin_ofGraph` says
that loading its document gives its nodes and links back, in their order, with
nothing skipped and nothing removed.  One thing more is needed: a value that does not
suit its slot is reported when it is stored again, so that the id of the node has to be
one that can be written (`Node.Tellable`).

Each entry is followed on its own.  `NodeEntry.build_ofNode` reads a node back from its
entry, and the step lemmas `Loading.addNode_ofNode` and `Loading.addLink_toValue` add it
at the end of what was loaded before; the two runs over the entries follow by induction.
-/

namespace NodeWeave

variable {limit : Nesting} {c : Catalog} {n : Node}

/-- More room for copies does no harm. -/
theorem Node.Fits.mono {wider : Nesting} (hn : n.Fits limit c) (hcopy : limit.copy ≤ wider.copy) :
    n.Fits wider c := by
  refine ⟨hn.isBuilt, hn.x_number, hn.y_number, ?_⟩
  have hbuilds := hn.builds
  unfold Nesting.builds at hbuilds ⊢
  split
  · rename_i slot hslot
    simp only [hslot, Nesting.copies, decide_eq_true_eq] at hbuilds ⊢
    omega
  · rfl

/-- The value suits the slot, or else the node can be named in the line that says so. -/
def Node.Tellable (n : Node) : Prop :=
  n.accepts n.value = true ∨ n.id.isWritable = true

instance (n : Node) : Decidable n.Tellable :=
  inferInstanceAs (Decidable (_ ∨ _))

/-- No link is found under a whole number that is not in use. -/
theorem Graph.Numbered.link?_eq_none {g : Graph} (hg : g.Numbered) {id : Int}
    (hnew : Scalar.int id ∉ g.links.map Link.id) : g.link? (.int id) = none := by
  refine List.find?_eq_none.mpr fun l hl hsame => hnew ?_
  obtain ⟨i, hi⟩ := hg.links.exists_int (List.mem_map_of_mem hl)
  rw [hi, Scalar.toValue, Value.same_int, decide_eq_true_eq] at hsame
  rw [← hsame, ← hi]
  exact List.mem_map_of_mem hl

namespace Document

theorem NodeEntry.ofValue_ofNode {id : Int} {category : String} (hid : n.id = .int id)
    (hcategory : n.category = .text category) (hx : n.x.isNumber = true)
    (hy : n.y.isNumber = true) :
    NodeEntry.ofValue (ofNode n) = .ok ⟨id, category, n.type, n.x, n.y,
      if n.slot.isSome then some n.value else none⟩ := by
  cases hslot : n.slot <;>
    simp [ofNode, hid, hcategory, hslot, hx, hy, Scalar.toValue, NodeEntry.ofValue,
      NodeEntry.problems, Value.field?, Value.hasField, Table.get?, Value.isObj, Value.isInt,
      Value.isStr]

/-- **A node is read back from its entry.**  The entry of a node without a slot
has no value, and such a node has none to lose. -/
theorem NodeEntry.build_ofNode (hn : n.Fits limit c) (htell : n.Tellable) :
    ∃ e notices, NodeEntry.ofValue (ofNode n) = .ok e ∧ n.id = .int e.id ∧
      e.build limit c = .ok (n, notices) := by
  obtain ⟨id, category, base, hbuild, heq⟩ := hn.isBuilt.built
  obtain ⟨hbaseId, _, _, hnull⟩ := Node.build_fields hbuild
  have hid : n.id = .int id := by rw [heq]; exact hbaseId
  have hcategory : n.category = .text category := by rw [heq]; exact (Node.build_text hbuild).1
  have hslot : base.slot = n.slot := by rw [heq]
  have hbuilds : limit.builds c base = true := by
    rw [show limit.builds c base = limit.builds c n by rw [heq]; rfl]
    exact hn.builds
  have hentry := NodeEntry.ofValue_ofNode hid hcategory hn.x_number hn.y_number
  cases hsome : n.slot.isSome with
  | true =>
      have hbaseSome : base.slot.isSome = true := hslot ▸ hsome
      have hset : base.setValue n.value = .ok n := by
        refine Node.setValue_eq_ok.mpr ⟨hbaseSome, ?_, heq⟩
        rw [show base.accepts n.value = n.accepts n.value by rw [Node.accepts, hslot]; rfl,
          hbaseId, ← hid, Bool.or_eq_true]
        exact htell
      refine ⟨_, Notice.ofStored base n.value, hentry, hid, ?_⟩
      simp only [NodeEntry.build, hbuild, hbuilds, hsome, hbaseSome, hset, bind, Except.bind, pure,
        Except.pure, if_true, Bool.not_true, Bool.false_eq_true, if_false]
  | false =>
      have hnone : n.slot = none := by simpa using hsome
      have hbase : n = base := by
        rw [heq, hn.isBuilt.no_slot hnone, ← hnull (hslot.trans hnone)]
      refine ⟨_, [], hentry, hid, ?_⟩
      simp [NodeEntry.build, hbuild, hn.builds, hsome, bind, Except.bind, pure, Except.pure, ← hbase]

theorem Loading.addNode_ofNode {s : Loading} (hs : s.graph.Numbered) (hn : n.Fits limit c)
    (htell : n.Tellable) (hfresh : s.graph.node? n.id = none) (index : Nat) :
    ∃ k notices, s.addNode limit c (ofNode n, index) =
        ({ graph := { s.graph with nodes := s.graph.nodes ++ [n], nextNode := k }, notices
           report := { s.report with nodesLoaded := s.report.nodesLoaded + 1 } }, none) ∧
      ({ s.graph with nodes := s.graph.nodes ++ [n], nextNode := k } : Graph).Numbered := by
  obtain ⟨e, notices, hentry, hid, hbuild⟩ := NodeEntry.build_ofNode hn htell
  rw [hid] at hfresh
  obtain ⟨k, hinsert, hnumbered⟩ := hs.insertNode hid hfresh
  refine ⟨k, s.notices ++ notices, ?_, hnumbered⟩
  simp [Loading.addNode, hentry, hfresh, hbuild, hinsert]

/-- The nodes of a graph come back one after the other. -/
theorem Loading.runUntil_ofNode (nodes : List Node) (hfits : ∀ n ∈ nodes, n.Fits limit c)
    (htell : ∀ n ∈ nodes, n.Tellable) {s : Loading} (hs : s.graph.Numbered)
    (hids : ((s.graph.nodes ++ nodes).map fun n => n.id.key).Nodup) (index : Nat) :
    ∃ k notices, runUntil (Loading.addNode limit c) s ((nodes.map ofNode).zipIdx index) =
        ({ graph := { s.graph with nodes := s.graph.nodes ++ nodes, nextNode := k }, notices
           report := { s.report with nodesLoaded := s.report.nodesLoaded + nodes.length } }, none) ∧
      ({ s.graph with nodes := s.graph.nodes ++ nodes, nextNode := k } : Graph).Numbered := by
  induction nodes generalizing s index with
  | nil => exact ⟨s.graph.nextNode, s.notices, by simp [runUntil], by simpa using hs⟩
  | cons n rest ih =>
      have hfresh : s.graph.node? n.id = none := by
        refine List.find?_eq_none.mpr fun m hm hsame => ?_
        rw [List.map_append, List.nodup_append] at hids
        exact hids.2.2 _ (List.mem_map_of_mem hm) _ (by simp) (Scalar.same_iff.mp hsame)
      obtain ⟨k, notices, hadd, hnumbered⟩ := Loading.addNode_ofNode hs
        (hfits n List.mem_cons_self) (htell n List.mem_cons_self) hfresh index
      obtain ⟨k', notices', hrun, hall⟩ :=
        ih (fun m hm => hfits m (List.mem_cons_of_mem _ hm))
          (fun m hm => htell m (List.mem_cons_of_mem _ hm))
          (s := ⟨{ s.graph with nodes := s.graph.nodes ++ [n], nextNode := k }, notices,
            { s.report with nodesLoaded := s.report.nodesLoaded + 1 }⟩) hnumbered
          (by simpa using hids) (index + 1)
      refine ⟨k', notices', ?_, by simpa using hall⟩
      simp only [List.map_cons, List.zipIdx_cons, runUntil, hadd, hrun]
      simp [Nat.add_comm, Nat.add_left_comm]

theorem portRef_ofValue {r : PortRef} (hr : r.IsWhole) : PortRef.ofValue r.toValue = .ok r := by
  obtain ⟨i, hi⟩ := hr
  obtain ⟨node, side, index⟩ := r
  cases hi
  cases side <;> rfl

theorem endProblems_portRef {r : PortRef} (hr : r.IsWhole) (name : String) :
    LinkEntry.endProblems name r.toValue = [] := by
  obtain ⟨i, hi⟩ := hr
  obtain ⟨node, side, index⟩ := r
  cases hi
  cases side <;> rfl

/-- A link is read back from its entry. -/
theorem LinkEntry.ofValue_toValue {l : Link} {id : Int} (hid : l.id = .int id)
    (hsource : l.source.IsWhole) (htarget : l.target.IsWhole) :
    LinkEntry.ofValue l.toValue = .ok ⟨id, l.source, l.target⟩ := by
  have hfields : l.toValue.field "id" = .int id ∧ l.toValue.field "from" = l.source.toValue ∧
      l.toValue.field "to" = l.target.toValue := by
    simp [Link.toValue, hid, Scalar.toValue, Value.field, Value.field?, Table.get?]
  have hproblems : LinkEntry.problems l.toValue = [] := by
    simp only [LinkEntry.problems, hfields, endProblems_portRef hsource,
      endProblems_portRef htarget]
    rfl
  simp only [LinkEntry.ofValue, hfields, portRef_ofValue hsource, portRef_ofValue htarget,
    hproblems]

theorem Loading.addLink_toValue (limit : Nesting) {s : Loading} {l : Link} (hs : s.graph.Numbered)
    (hsound : s.graph.SoundLink l) (hsource : l.source.IsWhole) (htarget : l.target.IsWhole)
    {id : Int} (hid : l.id = .int id) (hfresh : s.graph.link? (.int id) = none) (index : Nat) :
    ∃ k, s.addLink limit (l.toValue, index) =
        ({ s with graph := { s.graph with links := s.graph.links ++ [l], nextLink := k }
                  report := { s.report with linksLoaded := s.report.linksLoaded + 1 } }, none) ∧
      ({ s.graph with links := s.graph.links ++ [l], nextLink := k } : Graph).Numbered := by
  obtain ⟨hout, hin, _, _, _, hkindSource, hkindTarget, _⟩ := hsound
  have hl : (⟨.int id, l.source, l.target⟩ : Link) = l := by rw [← hid]
  obtain ⟨k, hinsert, hnumbered⟩ := hs.insertLink l.source l.target hfresh
  rw [hl] at hinsert hnumbered
  refine ⟨k, ?_, hnumbered⟩
  have hadmit : LinkEntry.admit s.graph ⟨id, l.source, l.target⟩ = .ok (l.source, l.target) := by
    obtain ⟨source, hportSource, _⟩ := Option.map_eq_some_iff.mp hkindSource
    obtain ⟨target, hportTarget, _⟩ := Option.map_eq_some_iff.mp hkindTarget
    have hnodeSource := Graph.node?_isSome_of_kindAt hkindSource
    have hnodeTarget := Graph.node?_isSome_of_kindAt hkindTarget
    simp [ LinkEntry.admit, Option.isNone_eq_false_iff.mpr hnodeSource,
      Option.isNone_eq_false_iff.mpr hnodeTarget, hportSource, hportTarget, hout, hin, hfresh,
      PortRef.normalize, PortRef.isOutput]
  simp [Loading.addLink, LinkEntry.ofValue_toValue hid hsource htarget, hadmit, hinsert]

/-- The links of a graph come back one after the other. -/
theorem Loading.runUntil_toValue (limit : Nesting) (links : List Link) {s : Loading}
    (hs : s.graph.Numbered)
    (hsound : ∀ l ∈ links, s.graph.SoundLink l)
    (hends : ∀ l ∈ links, l.source.IsWhole ∧ l.target.IsWhole)
    (hwhole : ∀ l ∈ links, ∃ id : Int, l.id = .int id)
    (hids : ((s.graph.links ++ links).map Link.id).Nodup) (index : Nat) :
    ∃ k, runUntil (Loading.addLink limit) s ((links.map Link.toValue).zipIdx index) =
      ({ s with graph := { s.graph with links := s.graph.links ++ links, nextLink := k }
                report := { s.report with linksLoaded := s.report.linksLoaded + links.length } },
        none) := by
  induction links generalizing s index with
  | nil => exact ⟨s.graph.nextLink, by simp [runUntil]⟩
  | cons l rest ih =>
      obtain ⟨id, hid⟩ := hwhole l List.mem_cons_self
      obtain ⟨hsource, htarget⟩ := hends l List.mem_cons_self
      have hfresh : s.graph.link? (.int id) = none := by
        refine hs.link?_eq_none fun hmem => ?_
        rw [List.map_append, List.nodup_append] at hids
        exact hids.2.2 _ hmem l.id (by simp) hid.symm
      obtain ⟨k, hadd, hnumbered⟩ := Loading.addLink_toValue limit hs
        (hsound l List.mem_cons_self) hsource htarget hid hfresh index
      obtain ⟨k', hrun⟩ := ih
        (s := { s with graph := { s.graph with links := s.graph.links ++ [l], nextLink := k }
                       report := { s.report with linksLoaded := s.report.linksLoaded + 1 } })
        hnumbered (fun m hm => (hsound m (List.mem_cons_of_mem _ hm)).congr rfl rfl)
        (fun m hm => hends m (List.mem_cons_of_mem _ hm))
        (fun m hm => hwhole m (List.mem_cons_of_mem _ hm)) (by simpa using hids) (index + 1)
      refine ⟨k', ?_⟩
      simp only [List.map_cons, List.zipIdx_cons, runUntil, hadd, hrun]
      simp [Int.add_comm, Int.add_left_comm]

/-- A graph that its document describes in full. -/
structure Restorable (limit : Nesting) (c : Catalog) (g : Graph) : Prop where
  wellFormed : g.WellFormed
  numbered : g.Numbered
  fits : ∀ n ∈ g.nodes, n.Fits limit c
  ends : WholeEnds g

/-- **A document restores its graph.**  The nodes and the links come back in their
order, and the report counts them and complains of nothing. -/
theorem loadWithin_ofGraph {g : Graph} (hg : Restorable limit c g)
    (htell : ∀ n ∈ g.nodes, n.Tellable) (old : Graph) :
    ∃ nextNode nextLink notices, loadWithin limit c old (ofGraph g .null) =
      { state := { nodes := g.nodes, links := g.links, nextNode, nextLink }, notices
        result := .ok { nodesLoaded := g.nodes.length, linksLoaded := g.links.length } } := by
  have houtline : Outline.ofValue (ofGraph g .null) =
      .ok ⟨g.nodes.map ofNode, g.links.map Link.toValue, []⟩ := rfl
  obtain ⟨nextNode, notices, hnodes, hnumbered⟩ := Loading.runUntil_ofNode g.nodes hg.fits htell
    (s := ⟨Graph.empty, [], {}⟩) Graph.numbered_empty hg.numbered.distinctIds 0
  have hkind : ∀ (links : List Link) (k : Number),
      ({ nodes := g.nodes, links, nextNode, nextLink := k } : Graph).kindAt = g.kindAt :=
    fun _ _ => rfl
  obtain ⟨_, _, _, hids⟩ := hg.numbered.links
  obtain ⟨nextLink, hlinks⟩ := Loading.runUntil_toValue limit g.links
    (s := ⟨{ nodes := g.nodes, links := [], nextNode, nextLink := .int 0 }, notices,
      { nodesLoaded := g.nodes.length }⟩) hnumbered
    (fun l hl => (hg.wellFormed.sound l hl).congr (by rw [hkind]) (by rw [hkind])) hg.ends
    (fun l hl => hg.numbered.links.exists_int (List.mem_map_of_mem hl)) hids 0
  have hrepair := Graph.Recorded.repair_of_wellFormed (hg.wellFormed.restrict
    (h := { nodes := g.nodes, links := g.links, nextNode, nextLink }) (List.Sublist.refl _)
    fun _ _ => ⟨rfl, rfl⟩)
  refine ⟨nextNode, nextLink, notices, ?_⟩
  simp only [loadWithin, houtline, hnodes]
  simp only [Graph.empty, List.nil_append, Nat.zero_add]
  rw [hlinks]
  simp only [List.nil_append, Loading.finish]
  rw [hrepair]
  simp [Except.map]

end Document

end NodeWeave
