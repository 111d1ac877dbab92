import NodeWeave.Document.Load
import NodeWeave.Proofs.Numbering
import NodeWeave.Proofs.ReadValues

/-!
# What loading leaves behind

Loading goes over the node entries, then over the connection entries, and repairs
the links at the end.  What one entry can do is listed once, in `NodeStep` and
`LinkStep`, and all that is known of loaded documents comes from these two.  For the
graph it means that an admitted node is as its type gives it at a position of numbers
(`Fits`) and comes under an unused id, and that an admitted connection joins two ports
that are named by whole numbers, again under an unused id.  Runs over all entries keep
these facts, also when a fault ends them, so that `loadWithin_cases` describes
every graph that loading can leave.

A skipped entry has a line in the log, and loading stops where that cannot be written.
At a connection entry it then leaves links that were never repaired.  A document that can
be told, `Told`, has no such entry, and what is read from a text is of this kind
(`told_of_readText`).
-/

namespace NodeWeave

/-- Whole numbers have the same contents only when they are the same. -/
theorem Value.same_int (i j : Int) : (Value.int i).same (.int j) = decide (i = j) := by
  simp only [Value.same, Value.same.sameNumber, Value.number?, Number.eq, Number.compare?]
  by_cases hij : i = j
  · simp [hij]
  · cases hcmp : compare i j with
    | lt => simp [hij]
    | eq => exact absurd (Int.compare_eq_eq.mp hcmp) hij
    | gt => simp [hij]

/-- A node as its type gives it, at a position of numbers, whose first value can
be copied. -/
structure Node.Fits (limit : Nesting) (c : Catalog) (n : Node) : Prop where
  isBuilt : n.IsBuilt c
  x_number : n.x.isNumber = true
  y_number : n.y.isNumber = true
  builds : limit.builds c n = true

/-- A reference that names its node by a whole number. -/
def PortRef.IsWhole (r : PortRef) : Prop :=
  ∃ i : Int, r.node = .int i

namespace Graph

variable {g g' : Graph} {n : Node} {id : Int}

/-- A node under an unused whole number is inserted at the end. -/
theorem Numbered.insertNode (hg : g.Numbered) (hid : n.id = .int id)
    (hfresh : g.node? (.int id) = none) :
    ∃ k, g.insertNode n = ({ g with nodes := g.nodes ++ [n], nextNode := k }, none) ∧
      ({ g with nodes := g.nodes ++ [n], nextNode := k } : Graph).Numbered := by
  have hnew : Scalar.int id ∉ g.nodes.map Node.id := by
    intro hmem
    obtain ⟨m, hm, hmid⟩ := List.mem_map.mp hmem
    have hno := List.find?_eq_none.mp hfresh m hm
    simp [hmid] at hno
  obtain ⟨k, hpast, hcounted⟩ := hg.nodes.past hnew
  refine ⟨k, ?_, ⟨?_, hg.links⟩⟩
  · have hnull : g.nextLink.past .null = .ok g.nextLink := rfl
    simp [Graph.insertNode, hid, hfresh, advance, hpast, hnull]
  · simpa [hid] using hcounted

/-- A link under an unused whole number is inserted at the end. -/
theorem Numbered.insertLink (hg : g.Numbered) (o i : PortRef)
    (hfresh : g.link? (.int id) = none) :
    ∃ k, g.insertLink (.int id) o i =
        .ok ({ g with links := g.links ++ [⟨.int id, o, i⟩], nextLink := k }, ⟨.int id, o, i⟩) ∧
      ({ g with links := g.links ++ [⟨.int id, o, i⟩], nextLink := k } : Graph).Numbered := by
  have hnew : Scalar.int id ∉ g.links.map Link.id := by
    intro hmem
    obtain ⟨m, hm, hmid⟩ := List.mem_map.mp hmem
    have hno := List.find?_eq_none.mp hfresh m hm
    simp [hmid, Scalar.toValue, Value.same_int] at hno
  obtain ⟨k, hpast, hcounted⟩ := hg.links.past hnew
  refine ⟨k, ?_, ⟨hg.nodes, ?_⟩⟩
  · simp [Graph.insertLink, hpast, bind, Except.bind, pure, Except.pure]
  · simpa using hcounted

end Graph

namespace Document

variable {limit : Nesting} {c : Catalog} {v : Value} {n : Node}

/-- The position of an entry that was read consists of numbers. -/
theorem NodeEntry.ofValue_numbers {e : NodeEntry} (h : NodeEntry.ofValue v = .ok e) :
    e.x.isNumber = true ∧ e.y.isNumber = true := by
  unfold NodeEntry.ofValue at h
  split at h
  · rename_i id category type hid hcategory htype hproblems
    cases h
    unfold NodeEntry.problems at hproblems
    split at hproblems
    · simp only [List.append_eq_nil_iff, List.map_eq_nil_iff, List.filter_eq_nil_iff] at hproblems
      obtain ⟨_, hxy⟩ := hproblems
      have hx := hxy "x" (by simp)
      have hy := hxy "y" (by simp)
      constructor
      · cases hfield : v.field? "x" with
        | none => rfl
        | some w => simpa [hfield] using hx
      · cases hfield : v.field? "y" with
        | none => rfl
        | some w => simpa [hfield] using hy
    · cases hproblems
  · cases h

/-- **The node of an entry** is that of its type at the position of the entry, and its
first value can be copied.  It may have another value stored in its slot. -/
theorem NodeEntry.build_eq_ok {e : NodeEntry} {notices : List Notice}
    (h : e.build limit c = .ok (n, notices)) :
    ∃ base, Node.build c (.int e.id) (.str e.category) (.str e.type) e.x e.y = .ok base ∧
      limit.builds c base = true ∧ (n = base ∨ ∃ v, e.value = some v ∧ base.setValue v = .ok n) := by
  unfold NodeEntry.build at h
  obtain ⟨base, hbuild, h⟩ := bind_eq_ok h
  split at h
  · cases h
  · rename_i hbuilds
    refine ⟨base, hbuild, by simpa using hbuilds, ?_⟩
    split at h
    · cases h
      exact Or.inl rfl
    · rename_i v hvalue
      split at h
      · obtain ⟨stored, hstored, h⟩ := bind_eq_ok h
        cases h
        exact Or.inr ⟨v, hvalue, hstored⟩
      · split at h
        · cases h
          exact Or.inl rfl
        · cases h

/-- The node of an entry fits its type, under the id and at the position of the entry. -/
theorem NodeEntry.build_fits {e : NodeEntry} {notices : List Notice}
    (hx : e.x.isNumber = true) (hy : e.y.isNumber = true)
    (h : e.build limit c = .ok (n, notices)) : n.Fits limit c ∧ n.id = .int e.id := by
  obtain ⟨base, hbuild, hbuilds, hn⟩ := NodeEntry.build_eq_ok h
  have hbase := Node.IsBuilt.of_build hbuild
  obtain ⟨hid, hbx, hby, _⟩ := Node.build_fields hbuild
  rw [← hbx] at hx
  rw [← hby] at hy
  rcases hn with rfl | ⟨v, _, hstored⟩
  · exact ⟨⟨hbase, hx, hy, hbuilds⟩, hid⟩
  · obtain ⟨_, _, rfl⟩ := Node.setValue_eq_ok.mp hstored
    exact ⟨⟨hbase.setValue hstored, hx, hy, hbuilds⟩, hid⟩

/-! ## Skipped entries -/

/-- Skipping an entry leaves the graph alone. -/
@[simp] theorem Loading.graph_skip (limit : Nesting) (s : Loading) (kind : EntryKind) (index : Nat)
    (entry : Value) (reason : SkipReason) :
    (s.skip limit kind index entry reason).1.graph = s.graph := by
  unfold Loading.skip
  dsimp only
  split <;> rfl

/-- **Why an entry cannot be skipped**: the reason names an id that cannot be written,
or the entry gives an id that cannot be shown. -/
theorem Loading.skip_eq_fault {s t : Loading} {kind : EntryKind} {index : Nat} {entry : Value}
    {reason : SkipReason} {fault : Fault}
    (h : s.skip limit kind index entry reason = (t, some fault)) :
    t = s ∧ (reason.fault? = some fault ∨ limit.ofLine.fault? (entryId entry) = some fault) := by
  unfold Loading.skip at h
  dsimp only at h
  split at h
  · rename_i cause hcause
    cases h
    rcases Option.or_eq_some_iff.mp hcause with hreason | ⟨_, hid⟩
    · exact ⟨rfl, Or.inl hreason⟩
    · exact ⟨rfl, Or.inr hid⟩
  · cases h

/-- **A skipped entry** gave an id that can be shown, and the report has it. -/
theorem Loading.skip_eq_none {s t : Loading} {kind : EntryKind} {index : Nat} {entry : Value}
    {reason : SkipReason} (h : s.skip limit kind index entry reason = (t, none)) :
    limit.ofLine.fault? (entryId entry) = none ∧ t.graph = s.graph ∧
      ∃ left : Skipped, left.index = index ∧ t.report = s.report.skip left kind := by
  unfold Loading.skip at h
  dsimp only at h
  split at h
  · cases h
  · rename_i hnone
    cases h
    exact ⟨(Option.or_eq_none_iff.mp hnone).2, rfl, _, rfl, rfl⟩

/-! ## Node entries -/

/-- **What a node entry can do**, case by case: it is skipped for one of four reasons,
it ends the loading, or its node is inserted. -/
inductive Loading.NodeStep (limit : Nesting) (c : Catalog) (s : Loading) (entry : Value × Nat) :
    Loading × Option Fault → Prop
  | malformed {problems : List EntryProblem}
      (hread : NodeEntry.ofValue entry.1 = .error problems) :
      NodeStep limit c s entry (s.skip limit .node entry.2 entry.1 (.malformed problems))
  | inUse {e : NodeEntry} (hread : NodeEntry.ofValue entry.1 = .ok e)
      (hused : (s.graph.node? (.int e.id)).isSome = true) :
      NodeStep limit c s entry (s.skip limit .node entry.2 entry.1 .duplicateNode)
  | refused {e : NodeEntry} {fault : Fault} (hread : NodeEntry.ofValue entry.1 = .ok e)
      (hbuild : e.build limit c = .error fault) (hfault : fault.isRefusal = true) :
      NodeStep limit c s entry (s.skip limit .node entry.2 entry.1 (.refused fault))
  | failed {e : NodeEntry} {fault : Fault} (hread : NodeEntry.ofValue entry.1 = .ok e)
      (hfree : s.graph.node? (.int e.id) = none) (hbuild : e.build limit c = .error fault)
      (hfault : fault.isRefusal = false) :
      NodeStep limit c s entry (s, some fault)
  | rejected {e : NodeEntry} {n : Node} {notices : List Notice} {graph : Graph} {fault : Fault}
      (hread : NodeEntry.ofValue entry.1 = .ok e) (hfree : s.graph.node? (.int e.id) = none)
      (hbuild : e.build limit c = .ok (n, notices))
      (hinsert : s.graph.insertNode n = (graph, some fault)) :
      NodeStep limit c s entry (s.skip limit .node entry.2 entry.1 (.refused fault))
  | inserted {e : NodeEntry} {n : Node} {notices : List Notice} {graph : Graph}
      (hread : NodeEntry.ofValue entry.1 = .ok e) (hfree : s.graph.node? (.int e.id) = none)
      (hbuild : e.build limit c = .ok (n, notices))
      (hinsert : s.graph.insertNode n = (graph, none)) :
      NodeStep limit c s entry
        ({ graph, notices := s.notices ++ notices
           report := { s.report with nodesLoaded := s.report.nodesLoaded + 1 } }, none)

theorem Loading.nodeStep (limit : Nesting) (c : Catalog) (s : Loading) (entry : Value × Nat) :
    NodeStep limit c s entry (s.addNode limit c entry) := by
  unfold Loading.addNode
  dsimp only
  split
  · rename_i problems hread
    exact .malformed hread
  · rename_i e hread
    split
    · rename_i hused
      exact .inUse hread hused
    · rename_i hunused
      have hfree : s.graph.node? (.int e.id) = none := by simpa using hunused
      split
      · rename_i cause hbuild
        split
        · rename_i hrefusal
          exact .refused hread hbuild hrefusal
        · rename_i hrefusal
          exact .failed hread hfree hbuild (by simpa using hrefusal)
      · rename_i n notices hbuild
        split
        · rename_i graph cause hinsert
          exact .rejected hread hfree hbuild hinsert
        · rename_i graph hinsert
          exact .inserted hread hfree hbuild hinsert

/-- A node entry leaves the graph alone, or it adds a node that fits its type. -/
theorem Loading.addNode_cases (limit : Nesting) (c : Catalog) {s : Loading}
    (hs : s.graph.Numbered) (entry : Value × Nat) :
    (s.addNode limit c entry).1.graph = s.graph ∨ ∃ n k, n.Fits limit c ∧
      (s.addNode limit c entry).1.graph =
        { s.graph with nodes := s.graph.nodes ++ [n], nextNode := k } ∧
      (s.addNode limit c entry).1.graph.Numbered := by
  have hstep := Loading.nodeStep limit c s entry
  generalize s.addNode limit c entry = t at hstep
  cases hstep with
  | malformed => exact Or.inl (by simp)
  | inUse => exact Or.inl (by simp)
  | refused => exact Or.inl (by simp)
  | failed => exact Or.inl rfl
  | rejected => exact Or.inl (by simp)
  | @inserted e n notices graph hread hfree hbuild hinsert =>
      obtain ⟨hx, hy⟩ := NodeEntry.ofValue_numbers hread
      obtain ⟨hfits, hid⟩ := NodeEntry.build_fits hx hy hbuild
      obtain ⟨k, hnew, hnumbered⟩ := hs.insertNode hid hfree
      rw [hinsert] at hnew
      cases hnew
      exact Or.inr ⟨n, k, hfits, rfl, hnumbered⟩

/-- The graph while nodes are loaded: no links yet, and every node fits. -/
def NodesFit (limit : Nesting) (c : Catalog) (g : Graph) : Prop :=
  g.Numbered ∧ g.links = [] ∧ ∀ n ∈ g.nodes, n.Fits limit c

/-- All nodes that a run over node entries loads fit their types. -/
theorem Loading.nodesFit_run {s : Loading} (hs : NodesFit limit c s.graph)
    (entries : List (Value × Nat)) :
    NodesFit limit c (runUntil (Loading.addNode limit c) s entries).1.graph := by
  refine runUntil_induct (P := fun s : Loading => NodesFit limit c s.graph) ?_ hs entries
  rintro s entry ⟨hnumbered, hlinks, hfit⟩
  rcases Loading.addNode_cases limit c hnumbered entry with
    hsame | ⟨n, k, hn, hgraph, hnew⟩
  · rw [hsame]
    exact ⟨hnumbered, hlinks, hfit⟩
  · refine ⟨hnew, by rw [hgraph]; exact hlinks, ?_⟩
    intro m hm
    rw [hgraph] at hm
    rcases List.mem_append.mp hm with hm | hm
    · exact hfit m hm
    · rw [List.mem_singleton.mp hm]
      exact hn

/-! ## Connection entries -/

/-- A reference that was read names its node by a whole number. -/
theorem portRef_isWhole {r : PortRef} (h : PortRef.ofValue v = .ok r) : r.IsWhole := by
  unfold PortRef.ofValue at h
  simp only [bind, Except.bind, pure, Except.pure] at h
  repeat' split at h
  all_goals cases h
  exact ⟨_, rfl⟩

/-- Where the node is given as a whole number, it is this one. -/
theorem portRef_node {r : PortRef} (h : PortRef.ofValue v = .ok r)
    (hwhole : (v.field "nodeId").isInt = true) : v.field "nodeId" = r.node.toValue := by
  unfold PortRef.ofValue at h
  obtain ⟨w, hw, h⟩ := bind_eq_ok h
  obtain ⟨node, hnode, h⟩ := bind_eq_ok h
  have hfield : v.field "nodeId" = w := by
    unfold PortRef.require at hw
    split at hw
    · split at hw
      · rename_i found hfound
        cases hw
        rw [Value.field, hfound]
        rfl
      · cases hw
    · cases hw
  rw [hfield] at hwhole ⊢
  obtain ⟨_, _, h⟩ := bind_eq_ok h
  obtain ⟨_, _, h⟩ := bind_eq_ok h
  obtain ⟨_, _, h⟩ := bind_eq_ok h
  obtain ⟨_, _, h⟩ := bind_eq_ok h
  cases h
  cases w with
  | int n =>
      cases hnode
      rfl
  | _ => cases hwhole

theorem LinkEntry.nodeId_of_endProblems {name : String} (h : LinkEntry.endProblems name v = []) :
    (v.field "nodeId").isInt = true := by
  unfold LinkEntry.endProblems at h
  split at h
  · rw [List.append_eq_nil_iff, List.map_eq_nil_iff, List.filter_eq_nil_iff] at h
    simpa using h.1 "nodeId" (by simp)
  · cases h

/-- The ends of a connection that was read are named by whole numbers, those of the
entry. -/
theorem LinkEntry.ofValue_ends {e : LinkEntry} (h : LinkEntry.ofValue v = .ok e) :
    (e.source.IsWhole ∧ (v.field "from").field "nodeId" = e.source.node.toValue) ∧
      e.target.IsWhole ∧ (v.field "to").field "nodeId" = e.target.node.toValue := by
  unfold LinkEntry.ofValue at h
  split at h
  · rename_i id source target _ hsource htarget hproblems
    cases h
    unfold LinkEntry.problems at hproblems
    split at hproblems
    · rw [List.append_eq_nil_iff, List.append_eq_nil_iff] at hproblems
      obtain ⟨⟨_, hfrom⟩, hto⟩ := hproblems
      exact ⟨⟨portRef_isWhole hsource, portRef_node hsource (nodeId_of_endProblems hfrom)⟩,
        portRef_isWhole htarget, portRef_node htarget (nodeId_of_endProblems hto)⟩
    · cases hproblems
  · cases h

/-- **When a connection is admitted.**  The graph has both ports, they lie on
different sides, and no link has the id yet.  A missing node has no ports. -/
theorem LinkEntry.admit_eq_ok {g : Graph} {e : LinkEntry} {o i : PortRef} :
    e.admit g = .ok (o, i) ↔
    ((g.port? e.source).isSome = true ∧ (g.port? e.target).isSome = true) ∧
      e.source.side ≠ e.target.side ∧ g.link? (.int e.id) = none ∧
      PortRef.normalize e.source e.target = (o, i) := by
  have hnode : ∀ {r : PortRef}, (g.port? r).isSome = true → (g.node? r.node).isNone = false := by
    intro r hport
    cases hfound : g.node? r.node with
    | none => simp [Graph.port?, hfound] at hport
    | some found => rfl
  unfold LinkEntry.admit
  constructor
  · intro h
    split at h
    · cases h
    · split at h
      · cases h
      · rename_i hports
        split at h
        · cases h
        · rename_i hsides
          split at h
          · cases h
          · rename_i hfresh
            simp only [Bool.or_eq_true, not_or, Bool.not_eq_true,
              Option.isNone_eq_false_iff] at hports
            exact ⟨hports, hsides, by simpa using hfresh, Except.ok.inj h⟩
  · intro h
    obtain ⟨⟨hsource, htarget⟩, hsides, hfresh, hnorm⟩ := h
    have hfind : [e.source.node, e.target.node].find? (fun id => (g.node? id).isNone) = none := by
      simp [hnode hsource, hnode htarget]
    have hports : ((g.port? e.source).isNone || (g.port? e.target).isNone) = false := by
      simp only [Bool.or_eq_false_iff, Option.isNone_eq_false_iff]
      exact ⟨hsource, htarget⟩
    simp [hfind, hports, hsides, hfresh, hnorm]

/-- A refusal names no number that cannot be written, unless an end of the connection is
one. -/
theorem LinkEntry.fault?_of_admit {g : Graph} {e : LinkEntry} {reason : SkipReason}
    (hverdict : e.admit g = .error reason) (hsource : e.source.node.isWritable = true)
    (htarget : e.target.node.isWritable = true) : reason.fault? = none := by
  unfold LinkEntry.admit at hverdict
  split at hverdict
  · rename_i id hfind
    cases hverdict
    have hid : id = e.source.node ∨ id = e.target.node := by
      simpa using List.mem_of_find?_eq_some hfind
    rcases hid with rfl | rfl
    · rw [SkipReason.fault?, if_pos hsource]
    · rw [SkipReason.fault?, if_pos htarget]
  · repeat' split at hverdict
    all_goals cases hverdict
    all_goals rfl

/-- **What a connection entry can do**, case by case: it is skipped for one of three
reasons, or its link is inserted. -/
inductive Loading.LinkStep (limit : Nesting) (s : Loading) (entry : Value × Nat) :
    Loading × Option Fault → Prop
  | malformed {problems : List EntryProblem}
      (hread : LinkEntry.ofValue entry.1 = .error problems) :
      LinkStep limit s entry (s.skip limit .connection entry.2 entry.1 (.malformed problems))
  | refused {e : LinkEntry} {reason : SkipReason} (hread : LinkEntry.ofValue entry.1 = .ok e)
      (hverdict : e.admit s.graph = .error reason) :
      LinkStep limit s entry (s.skip limit .connection entry.2 entry.1 reason)
  | rejected {e : LinkEntry} {o i : PortRef} {fault : Fault}
      (hread : LinkEntry.ofValue entry.1 = .ok e) (hverdict : e.admit s.graph = .ok (o, i))
      (hinsert : s.graph.insertLink (.int e.id) o i = .error fault) :
      LinkStep limit s entry (s.skip limit .connection entry.2 entry.1 (.refused fault))
  | inserted {e : LinkEntry} {o i : PortRef} {graph : Graph} {l : Link}
      (hread : LinkEntry.ofValue entry.1 = .ok e) (hverdict : e.admit s.graph = .ok (o, i))
      (hinsert : s.graph.insertLink (.int e.id) o i = .ok (graph, l)) :
      LinkStep limit s entry
        ({ s with
           graph
           report := { s.report with linksLoaded := s.report.linksLoaded + 1 } }, none)

theorem Loading.linkStep (limit : Nesting) (s : Loading) (entry : Value × Nat) :
    LinkStep limit s entry (s.addLink limit entry) := by
  unfold Loading.addLink
  dsimp only
  split
  · rename_i problems hread
    exact .malformed hread
  · rename_i e hread
    split
    · rename_i reason hverdict
      exact .refused hread hverdict
    · rename_i o i hverdict
      split
      · rename_i fault hinsert
        exact .rejected hread hverdict hinsert
      · rename_i graph l hinsert
        exact .inserted hread hverdict hinsert

/-- A connection entry leaves the graph alone, or it adds a link between ports that
are named by whole numbers. -/
theorem Loading.addLink_cases (limit : Nesting) {s : Loading} (hs : s.graph.Numbered)
    (entry : Value × Nat) :
    (s.addLink limit entry).1.graph = s.graph ∨ ∃ l k, l.source.IsWhole ∧ l.target.IsWhole ∧
      (s.addLink limit entry).1.graph =
        { s.graph with links := s.graph.links ++ [l], nextLink := k } ∧
      (s.addLink limit entry).1.graph.Numbered := by
  have hstep := Loading.linkStep limit s entry
  generalize s.addLink limit entry = t at hstep
  cases hstep with
  | malformed => exact Or.inl (by simp)
  | refused => exact Or.inl (by simp)
  | rejected => exact Or.inl (by simp)
  | @inserted e o i graph l hread hverdict hinsert =>
      obtain ⟨⟨hsource, _⟩, htarget, _⟩ := LinkEntry.ofValue_ends hread
      obtain ⟨_, _, hfresh, hnorm⟩ := LinkEntry.admit_eq_ok.mp hverdict
      obtain ⟨k, hnew, hnumbered⟩ := hs.insertLink o i hfresh
      rw [hinsert] at hnew
      cases hnew
      refine Or.inr ⟨⟨.int e.id, o, i⟩, k, ?_, ?_, rfl, hnumbered⟩
      · rcases Graph.normalize_cases e.source e.target with h | h <;> rw [hnorm] at h <;> cases h
        · exact hsource
        · exact htarget
      · rcases Graph.normalize_cases e.source e.target with h | h <;> rw [hnorm] at h <;> cases h
        · exact htarget
        · exact hsource

/-- All links of the graph have ends that are named by whole numbers. -/
def WholeEnds (g : Graph) : Prop :=
  ∀ l ∈ g.links, l.source.IsWhole ∧ l.target.IsWhole

/-- The graph while links are loaded: every node fits, and the ends of links are named by
whole numbers. -/
structure Linked (limit : Nesting) (c : Catalog) (g : Graph) : Prop where
  numbered : g.Numbered
  fits : ∀ n ∈ g.nodes, n.Fits limit c
  ends : WholeEnds g

theorem NodesFit.linked {g : Graph} (hg : NodesFit limit c g) : Linked limit c g := by
  obtain ⟨hnumbered, hlinks, hfit⟩ := hg
  exact ⟨hnumbered, hfit, fun l hl => by simp [hlinks] at hl⟩

/-- A run over connection entries keeps the nodes and names all ends by whole
numbers. -/
theorem Loading.linked_run {s : Loading} (hs : Linked limit c s.graph)
    (entries : List (Value × Nat)) :
    Linked limit c (runUntil (Loading.addLink limit) s entries).1.graph := by
  refine runUntil_induct (P := fun t : Loading => Linked limit c t.graph) ?_ hs entries
  intro t entry ht
  rcases Loading.addLink_cases limit ht.numbered entry with
    hsame | ⟨l, k, hsource, htarget, hgraph, hnew⟩
  · rw [hsame]
    exact ht
  · refine ⟨hnew, by rw [hgraph]; exact ht.fits, ?_⟩
    intro m hm
    rw [hgraph] at hm
    rcases List.mem_append.mp hm with hm | hm
    · exact ht.ends m hm
    · rw [List.mem_singleton.mp hm]
      exact ⟨hsource, htarget⟩

/-! ## Whole documents -/

/-- Nothing is loaded yet of a document with an outline. -/
def Loading.start (outline : Outline) : Loading :=
  ⟨Graph.empty, [], { metadata := outline.metadata }⟩

theorem nodesFit_start (limit : Nesting) (c : Catalog) (outline : Outline) :
    NodesFit limit c (Loading.start outline).graph :=
  ⟨Graph.numbered_empty, rfl, by simp [Loading.start, Graph.empty]⟩

/-- **The course of a loading.**  The outline is wrong; or a node entry stops it; or a
connection entry does; or it comes to its end. -/
inductive Course (limit : Nesting) (c : Catalog) (g : Graph) (doc : Value) :
    Outcome Graph Report → Prop
  | refused {cause : OutlineFault} (houtline : Outline.ofValue doc = .error cause) :
      Course limit c g doc ⟨g, [], .error (.outline cause)⟩
  | atNode {outline : Outline} {s : Loading} {fault : Fault}
      (houtline : Outline.ofValue doc = .ok outline)
      (hnodes : runUntil (Loading.addNode limit c) (Loading.start outline) outline.nodes.zipIdx =
        (s, some fault)) :
      Course limit c g doc (s.stopped fault)
  | atLink {outline : Outline} {s t : Loading} {fault : Fault}
      (houtline : Outline.ofValue doc = .ok outline)
      (hnodes : runUntil (Loading.addNode limit c) (Loading.start outline) outline.nodes.zipIdx =
        (s, none))
      (hlinks : runUntil (Loading.addLink limit) s outline.connections.zipIdx = (t, some fault)) :
      Course limit c g doc (t.stopped fault)
  | finished {outline : Outline} {s t : Loading} (houtline : Outline.ofValue doc = .ok outline)
      (hnodes : runUntil (Loading.addNode limit c) (Loading.start outline) outline.nodes.zipIdx =
        (s, none))
      (hlinks : runUntil (Loading.addLink limit) s outline.connections.zipIdx = (t, none)) :
      Course limit c g doc t.finish

theorem course (limit : Nesting) (c : Catalog) (g : Graph) (doc : Value) :
    Course limit c g doc (loadWithin limit c g doc) := by
  unfold loadWithin
  split
  · rename_i cause houtline
    exact .refused houtline
  · rename_i outline houtline
    dsimp only
    split
    · rename_i s fault hnodes
      exact .atNode houtline hnodes
    · rename_i s hnodes
      split
      · rename_i t fault hlinks
        exact .atLink houtline hnodes hlinks
      · rename_i t hlinks
        exact .finished houtline hnodes hlinks

/-- **A connection entry can be told**: the ids that it gives, its own and those of its
nodes, have not too many digits and lie not too deep for a line of the log. -/
structure LinkEntry.Told (limit : Nesting) (v : Value) : Prop where
  id : limit.ofLine.fault? (entryId v) = none
  source : limit.ofLine.fault? ((v.field "from").field "nodeId") = none
  target : limit.ofLine.fault? ((v.field "to").field "nodeId") = none

/-- **A document can be told** when its connection entries can. -/
def Told (limit : Nesting) (doc : Value) : Prop :=
  ∀ outline, Outline.ofValue doc = .ok outline → ∀ v ∈ outline.connections, LinkEntry.Told limit v

/-- A whole number that can be told can be written. -/
theorem isWritable_of_fault? {id : Scalar} (htold : limit.ofLine.fault? id.toValue = none) :
    id.isWritable = true := by
  have hfits := (limit.ofLine.fault?_eq_none_iff id.toValue).mp htold
  rw [← Scalar.isWritable_toValue]
  exact hfits.1 rfl

/-- **A connection entry that can be told does not stop the loading.** -/
theorem Loading.addLink_told {s : Loading} {entry : Value × Nat}
    (htold : LinkEntry.Told limit entry.1) :
    (s.addLink limit entry).2 = none := by
  rw [Option.eq_none_iff_forall_ne_some]
  intro fault hfault
  -- the reason for which an entry is skipped names a node of the entry, if any
  have hskip : ∀ reason : SkipReason, reason.fault? = none →
      (s.skip limit .connection entry.2 entry.1 reason).2 ≠ some fault := by
    intro reason hreason hstop
    obtain ⟨_, hcause | hid⟩ := Loading.skip_eq_fault (Prod.ext rfl hstop)
    · rw [hreason] at hcause
      cases hcause
    · rw [htold.id] at hid
      cases hid
  have hstep := Loading.linkStep limit s entry
  generalize s.addLink limit entry = t at hstep hfault
  cases hstep with
  | malformed hread => exact hskip _ rfl hfault
  | @refused e reason hread hverdict =>
      refine hskip reason ?_ hfault
      obtain ⟨⟨_, hsource⟩, _, htarget⟩ := LinkEntry.ofValue_ends hread
      exact LinkEntry.fault?_of_admit hverdict (isWritable_of_fault? (hsource ▸ htold.source))
        (isWritable_of_fault? (htarget ▸ htold.target))
  | rejected hread hverdict hinsert => exact hskip _ rfl hfault
  | inserted hread hverdict hinsert => cases hfault

/-- **What loading can leave.**  The old graph, when the outline is wrong; some
nodes without links, when a fault ends the loading there; links that are not repaired,
when it ends at a connection entry of a document that cannot be told; or a repaired
graph.  Its nodes fit their types and its links are named by whole numbers. -/
theorem loadWithin_cases (limit : Nesting) (c : Catalog) (g : Graph) (doc : Value) :
    ((loadWithin limit c g doc).state = g ∧ ∃ e, (loadWithin limit c g doc).result = .error e) ∨
    (NodesFit limit c (loadWithin limit c g doc).state ∧
      ∃ e, (loadWithin limit c g doc).result = .error e) ∨
    (Linked limit c (loadWithin limit c g doc).state ∧ ¬ Told limit doc ∧
      ∃ e, (loadWithin limit c g doc).result = .error e) ∨
    ∃ loaded : Graph, Linked limit c loaded ∧
      (loadWithin limit c g doc).state = loaded.repair.1 := by
  have hcourse := course limit c g doc
  generalize loadWithin limit c g doc = outcome at hcourse
  cases hcourse with
  | refused => exact Or.inl ⟨rfl, _, rfl⟩
  | @atNode outline s fault _ hnodes =>
      have hrun := Loading.nodesFit_run (nodesFit_start limit c outline) outline.nodes.zipIdx
      rw [hnodes] at hrun
      exact Or.inr (Or.inl ⟨hrun, _, rfl⟩)
  | @atLink outline s t fault houtline hnodes hlinks =>
      have hrun := Loading.nodesFit_run (nodesFit_start limit c outline) outline.nodes.zipIdx
      rw [hnodes] at hrun
      have hlinked := Loading.linked_run hrun.linked outline.connections.zipIdx
      rw [hlinks] at hlinked
      refine Or.inr (Or.inr (Or.inl ⟨hlinked, fun htold => ?_, _, rfl⟩))
      obtain ⟨before, entry, after, reached, hsplit, _, hstop⟩ := runUntil_eq_fault hlinks
      have hentry : entry ∈ outline.connections.zipIdx :=
        hsplit ▸ List.mem_append_right _ List.mem_cons_self
      have hnone := Loading.addLink_told (s := reached)
        (htold outline houtline entry.1 (List.fst_mem_of_mem_zipIdx hentry))
      rw [hstop] at hnone
      cases hnone
  | @finished outline s t _ hnodes hlinks =>
      have hrun := Loading.nodesFit_run (nodesFit_start limit c outline) outline.nodes.zipIdx
      rw [hnodes] at hrun
      have hlinked := Loading.linked_run hrun.linked outline.connections.zipIdx
      rw [hlinks] at hlinked
      exact Or.inr (Or.inr (Or.inr ⟨_, hlinked, Graph.Recorded.repair_state _⟩))

end Document

end NodeWeave
