import NodeWeave.Catalog.Merge
import NodeWeave.Proofs.Loading

/-!
# How loading ends

A document with a wrong outline is refused and the graph stays as it was.  Below
the outline loading forgives: entries that are refused are skipped and reported.
But a node entry can also make an operation meet a value it has no meaning for,
when the node is built from its type and its position, and such a fault ends the
loading with part of the nodes in the graph.  So does a line of the log that cannot be
written: that of a skipped entry, or at the end that of the links that were removed.

`loadWithin_outcome` says that these are all faults there are, and that the first kind
happens only at an entry whose type is not `Sturdy`.  A type is sturdy when nodes of it
can be built at every position that an entry can give: the properties of its ports can
be read, its width is a whole number that a double can hold, and its first value is not
too deep to be copied.  A width with a fraction is not enough, as `loadWithin_fatal`
shows: it cannot be added to a whole number beyond the largest double.
-/

namespace NodeWeave

/-! ## Sums that always exist -/

/-- A whole number, or a truth value, that a double can hold.  It can be added to
every number. -/
def Value.IsSpan (v : Value) : Prop :=
  ∃ n : Int, v.number? = some (.int n) ∧ (Binary64.ofInt? n).isSome = true

namespace Value

variable {v w : Value}

instance (v : Value) : Decidable v.IsSpan :=
  decidable_of_iff ((match v.number? with
      | some (.int n) => (Binary64.ofInt? n).isSome
      | _ => false) = true) (by
    unfold IsSpan
    split
    · rename_i n hn
      simp [hn]
    · rename_i hnone
      constructor
      · intro h
        cases h
      · rintro ⟨n, hn, _⟩
        exact (hnone n hn).elim)

theorem number?_of_isNumber (hv : v.isNumber = true) : ∃ a, v.number? = some a := by
  cases v <;> first | exact ⟨_, rfl⟩ | cases hv

theorem isNumber_ofNumber (a : Number) : (ofNumber a).isNumber = true := by
  cases a <;> rfl

/-- An operation on a number and a span has a result. -/
theorem onNumbers_span {onInt : Int → Int → Int} {onReal : Float → Float → Float}
    (hv : v.isNumber = true) (hw : w.IsSpan) :
    ∃ z, onNumbers (Number.combine onInt onReal) v w = .ok z ∧ z.isNumber = true := by
  obtain ⟨a, ha⟩ := number?_of_isNumber hv
  obtain ⟨n, hn, hdouble⟩ := hw
  obtain ⟨f, hf⟩ := Option.isSome_iff_exists.mp hdouble
  have hop : ∃ b, Number.combine onInt onReal a (.int n) = some b := by
    cases a with
    | int m => exact ⟨_, rfl⟩
    | real r => exact ⟨.real (onReal r f), by simp [Number.combine, Number.toFloat?, hf]⟩
  obtain ⟨b, hb⟩ := hop
  refine ⟨ofNumber b, ?_, isNumber_ofNumber b⟩
  simp only [onNumbers, ha, hn, hb]

theorem add_span (hv : v.isNumber = true) (hw : w.IsSpan) :
    ∃ z, v.add w = .ok z ∧ z.isNumber = true := by
  have hadd : v.add w = onNumbers Number.add? v w := by
    cases v <;> first | rfl | cases hv
  rw [hadd]
  exact onNumbers_span hv hw

theorem sub_span (hv : v.isNumber = true) (hw : w.IsSpan) :
    ∃ z, v.sub w = .ok z ∧ z.isNumber = true :=
  onNumbers_span hv hw

end Value

theorem isSpan_portInset : (Value.int Node.portInset).IsSpan :=
  ⟨_, rfl, by decide +kernel⟩

theorem isSpan_portTop : (Value.int Node.portTop).IsSpan :=
  ⟨_, rfl, by decide +kernel⟩

/-! ## Types of which nodes can always be built -/

/-- Nodes of the type can be built at every position of numbers, or they are
refused. -/
structure NodeType.Sturdy (limit : Nesting) (t : NodeType) : Prop where
  /-- Properties of ports that cannot be read are refused. -/
  readable : ∀ side, ∀ d ∈ t.visiblePorts side, ∀ fault,
    Port.readDynamic d = .error fault → fault.isRefusal = true
  /-- There are not so many ports that a place could not be computed. -/
  places : ∀ side index, index < (t.visiblePorts side).length →
    (Value.int (index * Node.portSpacing)).IsSpan
  width : t.visiblePorts .output = [] ∨ (t.minWidth.orElse Node.defaultWidth).IsSpan
  first : ∀ slot ∈ t.slot, limit.copies slot.default = true

instance {P : Side → Prop} [DecidablePred P] : Decidable (∀ side, P side) :=
  decidable_of_iff (P .input ∧ P .output)
    ⟨fun h side => match side with
      | .input => h.1
      | .output => h.2,
    fun h => ⟨h .input, h .output⟩⟩

instance {α : Type} (x : Except Fault α) :
    Decidable (∀ fault, x = .error fault → fault.isRefusal = true) :=
  match x with
  | .ok _ => isTrue fun _ h => nomatch h
  | .error e => decidable_of_iff (e.isRefusal = true)
      ⟨fun he _ h => Except.error.inj h ▸ he, fun h => h e rfl⟩

instance (limit : Nesting) (t : NodeType) : Decidable (t.Sturdy limit) :=
  decidable_of_iff _
    ⟨fun ⟨readable, places, width, first⟩ => ⟨readable, places, width, first⟩,
      fun h => And.intro h.readable (And.intro h.places (And.intro h.width h.first))⟩

/-- A type with a port on each side and a whole number for a width is sturdy, and
with a fraction in the width it is not. -/
example : let port : PortDef := { (default : PortDef) with kind := "float" }
    let type (width : Value) : NodeType :=
      { (default : NodeType) with inputs := [port], outputs := [port], minWidth := width }
    (type (.int 120)).Sturdy .direct ∧ ¬ (type (.float 120.5)).Sturdy .direct := by
  decide +kernel

namespace Node

variable {limit : Nesting} {c : Catalog} {n m : Node} {id k : Scalar} {s : String} {t : NodeType}
  {x y : Value} {fault : Fault}

theorem portY_ok (hy : n.y.isNumber = true) {index : Nat}
    (hplace : (Value.int (index * portSpacing)).IsSpan) : ∃ v, n.portY index = .ok v := by
  obtain ⟨top, htop, hnumber⟩ := Value.add_span hy isSpan_portTop
  obtain ⟨v, hv, _⟩ := Value.add_span hnumber hplace
  exact ⟨v, by simp only [portY, htop, bind, Except.bind, hv]⟩

theorem portX_input_ok (hx : n.x.isNumber = true) : ∃ v, n.portX .input = .ok v := by
  obtain ⟨v, hv, _⟩ := Value.add_span hx isSpan_portInset
  exact ⟨v, hv⟩

theorem portX_output_ok (hx : n.x.isNumber = true) (hwidth : n.width.IsSpan) :
    ∃ v, n.portX .output = .ok v := by
  obtain ⟨edge, hedge, hnumber⟩ := Value.add_span hx hwidth
  obtain ⟨v, hv, _⟩ := Value.sub_span hnumber isSpan_portInset
  exact ⟨v, by simp only [portX, hedge, bind, Except.bind, hv]⟩

/-- The ports of a side can be placed when each of them has a position. -/
theorem placeAll_eq_none {side : Side} {row : Port.Row side} (hx : ∃ v, n.portX side = .ok v)
    (hy : ∀ index, index < row.ports.length → ∃ v, n.portY index = .ok v) :
    (n.placeAll row).2 = none := by
  obtain ⟨v, hv⟩ := hx
  rw [Option.eq_none_iff_forall_ne_some]
  intro fault hfault
  obtain ⟨index, p, _, hlt, hplace⟩ := updateUntil_eq_fault hfault
  obtain ⟨w, hw⟩ := hy index (by omega)
  simp [Port.place, hv, hw] at hplace

/-- What a new node has of its type. -/
theorem ofType_fields (hof : ofType c id k s t x y = .ok m) :
    m.x = x ∧ m.y = y ∧ m.width = t.minWidth.orElse defaultWidth ∧
      ∀ side, (m.ports side).length = (t.visiblePorts side).length := by
  unfold ofType at hof
  obtain ⟨inputs, hin, hof⟩ := bind_eq_ok hof
  obtain ⟨outputs, hout, hof⟩ := bind_eq_ok hof
  cases hof
  refine ⟨rfl, rfl, rfl, ?_⟩
  intro side
  cases side with
  | input => exact Port.Row.length_ofDefs hin
  | output => exact Port.Row.length_ofDefs hout

/-- A new node of a sturdy type can be laid out. -/
theorem layOut_of_sturdy (ht : t.Sturdy limit) (hx : x.isNumber = true) (hy : y.isNumber = true)
    (hof : ofType c id k s t x y = .ok m) : m.layOut.2 = none := by
  obtain ⟨rfl, rfl, hwidth, hlength⟩ := ofType_fields hof
  have hplaces : ∀ side index, index < (m.ports side).length → ∃ v, m.portY index = .ok v := by
    intro side index hlt
    rw [hlength side] at hlt
    exact portY_ok hy (ht.places side index hlt)
  have hinputs : (m.placeAll m.inputs).2 = none :=
    placeAll_eq_none (portX_input_ok hx) (hplaces .input)
  have houtputs : (m.placeAll m.outputs).2 = none := by
    rcases ht.width with hnone | hspan
    · have hempty : m.outputs.ports = [] := by
        apply List.eq_nil_of_length_eq_zero
        exact (hlength .output).trans (by rw [hnone, List.length_nil])
      show (updateUntil _ 0 m.outputs.ports).2 = none
      rw [hempty]
      rfl
    · rw [← hwidth] at hspan
      exact placeAll_eq_none (portX_output_ok hx hspan) (hplaces .output)
  unfold layOut
  split
  · rename_i inputs e hplace
    rw [hplace] at hinputs
    cases hinputs
  · exact houtputs

/-- A new node fails only because of the properties of a port. -/
theorem ofType_eq_error (hof : ofType c id k s t x y = .error fault) :
    ∃ side, ∃ d ∈ t.visiblePorts side, Port.readDynamic d = .error fault := by
  unfold ofType at hof
  rcases bind_eq_error hof with hin | ⟨inputs, _, hof⟩
  · exact ⟨.input, Port.Row.ofDefs_eq_error hin⟩
  · rcases bind_eq_error hof with hout | ⟨outputs, _, hof⟩
    · exact ⟨.output, Port.Row.ofDefs_eq_error hout⟩
    · cases hof

/-- A type that is not there is refused. -/
theorem require_eq_error {category type : String}
    (hrequire : c.require (.str category) (.str type) = .error fault) : fault.isRefusal = true := by
  have hlookup : ∃ found, c.lookup (.str category) (.str type) = .ok found := by
    simp only [Catalog.lookup, Value.name, Value.scalar?, bind, Except.bind, pure, Except.pure]
    split <;> exact ⟨_, rfl⟩
  obtain ⟨found, hfound⟩ := hlookup
  unfold Catalog.require at hrequire
  cases hloaded : c.loaded with
  | false =>
      simp only [hloaded, bind, Except.bind, pure, Except.pure] at hrequire
      cases hrequire
      rfl
  | true =>
      simp only [hloaded, if_true, hfound, bind, Except.bind, pure, Except.pure] at hrequire
      cases found with
      | some entry => cases hrequire
      | none =>
          cases hrequire
          rfl

/-- **Why a node cannot be built.**  At a position of numbers the fault is a
refusal, or else the type is there and is not sturdy. -/
theorem build_eq_error {category type : String} (hx : x.isNumber = true) (hy : y.isNumber = true)
    (hbuild : Node.build c id (.str category) (.str type) x y = .error fault)
    (hfault : fault.isRefusal = false) (limit : Nesting) :
    ∃ t, c.find? (.text category) type = some t ∧ ¬ t.Sturdy limit := by
  unfold build at hbuild
  rcases bind_eq_error hbuild with hrequire | ⟨⟨k, s, t⟩, hrequire, hrest⟩
  · rw [require_eq_error hrequire] at hfault
    cases hfault
  · obtain ⟨rfl, rfl, hfind⟩ := require_text hrequire
    refine ⟨t, hfind, ?_⟩
    intro ht
    rcases bind_eq_error hrest with hof | ⟨m, hof, hlast⟩
    · obtain ⟨side, d, hd, hread⟩ := ofType_eq_error hof
      rw [ht.readable side d hd fault hread] at hfault
      cases hfault
    · have hlay := layOut_of_sturdy ht hx hy hof
      split at hlast
      · cases hlast
      · rename_i laid e hm
        rw [hm] at hlay
        cases hlay

end Node

namespace Document

variable {limit : Nesting} {c : Catalog} {s s' : Loading} {entry : Value × Nat} {n : Node}
  {e : NodeEntry} {fault : Fault}

/-! ## One entry -/

/-- A type whose first value cannot be copied is not sturdy. -/
theorem not_sturdy_of_builds (h : limit.builds c n = false) :
    ∃ t, c.find? n.category n.type = some t ∧ ¬ t.Sturdy limit := by
  unfold Nesting.builds at h
  split at h
  · rename_i slot hslot
    obtain ⟨t, hfind, hslot⟩ := Option.bind_eq_some_iff.mp hslot
    refine ⟨t, hfind, ?_⟩
    intro ht
    rw [ht.first slot hslot] at h
    cases h
  · cases h

/-- **Why the node of an entry cannot be built.**  The fault is a refusal, or else the
type is there and is not sturdy. -/
theorem NodeEntry.build_eq_error (hx : e.x.isNumber = true) (hy : e.y.isNumber = true)
    (h : e.build limit c = .error fault) (hfault : fault.isRefusal = false) :
    ∃ t, c.find? (.text e.category) e.type = some t ∧ ¬ t.Sturdy limit := by
  unfold NodeEntry.build at h
  rcases bind_eq_error h with hbuild | ⟨base, hbuild, h⟩
  · exact Node.build_eq_error hx hy hbuild hfault limit
  · split at h
    · rename_i hbuilds
      obtain ⟨hcategory, htype⟩ := Node.build_text hbuild
      rw [← hcategory, ← htype]
      exact not_sturdy_of_builds (by simpa using hbuilds)
    · exfalso
      split at h
      · cases h
      · split at h
        · rcases bind_eq_error h with hstored | ⟨_, _, h⟩
          · rcases Node.setValue_eq_error hstored with ⟨_, rfl⟩ | ⟨rfl, _⟩
            · cases hfault
            · cases hfault
          · cases h
        · split at h
          · cases h
          · cases h
            cases hfault

/-- **Why a node entry ends the loading.**  The node cannot be built, and its type is not
sturdy; or the entry is to be skipped, and its id cannot be shown. -/
theorem Loading.addNode_eq_fault (hadd : s.addNode limit c entry = (s', some fault)) :
    s' = s ∧ ((∃ e t, NodeEntry.ofValue entry.1 = .ok e ∧ s.graph.node? (.int e.id) = none ∧
        e.build limit c = .error fault ∧ fault.isRefusal = false ∧
        c.find? (.text e.category) e.type = some t ∧ ¬ t.Sturdy limit) ∨
      limit.ofLine.fault? (entryId entry.1) = some fault) := by
  have hskip : ∀ {reason : SkipReason}, reason.fault? = none →
      s.skip limit .node entry.2 entry.1 reason = (s', some fault) →
      s' = s ∧ limit.ofLine.fault? (entryId entry.1) = some fault := by
    intro reason hreason hstop
    obtain ⟨hsame, hcause | hid⟩ := Loading.skip_eq_fault hstop
    · rw [hreason] at hcause
      cases hcause
    · exact ⟨hsame, hid⟩
  have hstep := Loading.nodeStep limit c s entry
  generalize s.addNode limit c entry = t at hstep hadd
  cases hstep with
  | malformed => exact (hskip rfl hadd).imp_right Or.inr
  | inUse => exact (hskip rfl hadd).imp_right Or.inr
  | refused => exact (hskip rfl hadd).imp_right Or.inr
  | rejected => exact (hskip rfl hadd).imp_right Or.inr
  | inserted => cases hadd
  | @failed e cause hread hfree hbuild hcause =>
      cases hadd
      obtain ⟨hx, hy⟩ := NodeEntry.ofValue_numbers hread
      obtain ⟨t, hfind, hsturdy⟩ := NodeEntry.build_eq_error hx hy hbuild hcause
      exact ⟨rfl, Or.inl ⟨e, t, hread, hfree, hbuild, hcause, hfind, hsturdy⟩⟩

/-- **Why a connection entry ends the loading.**  It is to be skipped, and its id cannot
be shown, or that of a node of it which is missing. -/
theorem Loading.addLink_eq_fault (hadd : s.addLink limit entry = (s', some fault)) :
    s' = s ∧ ((∃ e, LinkEntry.ofValue entry.1 = .ok e ∧ fault = .unwritable ∧
        (e.source.node.isWritable = false ∨ e.target.node.isWritable = false)) ∨
      limit.ofLine.fault? (entryId entry.1) = some fault) := by
  have hstep := Loading.linkStep limit s entry
  generalize s.addLink limit entry = t at hstep hadd
  cases hstep with
  | malformed =>
      obtain ⟨hsame, hcause | hid⟩ := Loading.skip_eq_fault hadd
      · cases hcause
      · exact ⟨hsame, Or.inr hid⟩
  | rejected =>
      obtain ⟨hsame, hcause | hid⟩ := Loading.skip_eq_fault hadd
      · cases hcause
      · exact ⟨hsame, Or.inr hid⟩
  | @refused e reason hread hverdict =>
      obtain ⟨hsame, hcause | hid⟩ := Loading.skip_eq_fault hadd
      · refine ⟨hsame, Or.inl ⟨e, hread, SkipReason.eq_unwritable hcause, ?_⟩⟩
        by_contra hboth
        rw [not_or, Bool.not_eq_false, Bool.not_eq_false] at hboth
        rw [LinkEntry.fault?_of_admit hverdict hboth.1 hboth.2] at hcause
        cases hcause
      · exact ⟨hsame, Or.inr hid⟩
  | inserted => cases hadd

/-! ## The whole document -/

variable {g : Graph} {doc : Value} {outline : Outline}

/-- **How loading ends.**  A wrong outline is refused and the graph stays as it
was; or there is a report; or loading stops with a fault, and there are three places
for that.

* At a node entry, before there are links: it can be read, has an unused id and names a
  type that is not sturdy, and the fault is that of building the node; or it gives an id
  that cannot be shown.
* At a connection entry: it gives an id that cannot be shown, or an end on a node whose
  id cannot be written.
* At the end, when the id of a link that was removed cannot be written.

The graph then holds what the entries before gave, at the end without the links that
broke a rule. -/
theorem loadWithin_outcome (limit : Nesting) (c : Catalog) (g : Graph) (doc : Value) :
    (∃ cause, Outline.ofValue doc = .error cause ∧
      loadWithin limit c g doc = ⟨g, [], .error (.outline cause)⟩) ∨
    (∃ report, (loadWithin limit c g doc).result = .ok report) ∨
    ∃ outline fault, Outline.ofValue doc = .ok outline ∧
      (loadWithin limit c g doc).result = .error fault ∧
      ((∃ before entry after s, outline.nodes.zipIdx = before ++ entry :: after ∧
          runUntil (Loading.addNode limit c) (Loading.start outline) before = (s, none) ∧
          s.graph.links = [] ∧ loadWithin limit c g doc = s.stopped fault ∧
          ((∃ e t, NodeEntry.ofValue entry.1 = .ok e ∧ s.graph.node? (.int e.id) = none ∧
              e.build limit c = .error fault ∧ fault.isRefusal = false ∧
              c.find? (.text e.category) e.type = some t ∧ ¬ t.Sturdy limit) ∨
            limit.ofLine.fault? (entryId entry.1) = some fault)) ∨
        (∃ before entry after s t, outline.connections.zipIdx = before ++ entry :: after ∧
          runUntil (Loading.addNode limit c) (Loading.start outline) outline.nodes.zipIdx =
            (s, none) ∧
          runUntil (Loading.addLink limit) s before = (t, none) ∧
          loadWithin limit c g doc = t.stopped fault ∧
          ((∃ e, LinkEntry.ofValue entry.1 = .ok e ∧ fault = .unwritable ∧
              (e.source.node.isWritable = false ∨ e.target.node.isWritable = false)) ∨
            limit.ofLine.fault? (entryId entry.1) = some fault)) ∨
        ∃ s t, runUntil (Loading.addNode limit c) (Loading.start outline) outline.nodes.zipIdx =
            (s, none) ∧
          runUntil (Loading.addLink limit) s outline.connections.zipIdx = (t, none) ∧
          (loadWithin limit c g doc).state = t.graph.repair.1 ∧ fault = .unwritable ∧
          ∃ l ∈ t.graph.repair.2, l.id.isWritable = false) := by
  have hcourse := course limit c g doc
  generalize loadWithin limit c g doc = outcome at hcourse
  cases hcourse with
  | refused houtline => exact Or.inl ⟨_, houtline, rfl⟩
  | @atNode outline s fault houtline hnodes =>
      obtain ⟨before, entry, after, reached, hsplit, hbefore, hstop⟩ := runUntil_eq_fault hnodes
      obtain ⟨rfl, hcause⟩ := Loading.addNode_eq_fault hstop
      obtain ⟨_, hlinks, _⟩ := Loading.nodesFit_run (nodesFit_start limit c outline) before
      rw [hbefore] at hlinks
      exact Or.inr (Or.inr ⟨outline, fault, houtline, rfl, Or.inl
        ⟨before, entry, after, s, hsplit, hbefore, hlinks, rfl, hcause⟩⟩)
  | @atLink outline s t fault houtline hnodes hlinks =>
      obtain ⟨before, entry, after, reached, hsplit, hbefore, hstop⟩ := runUntil_eq_fault hlinks
      obtain ⟨rfl, hcause⟩ := Loading.addLink_eq_fault hstop
      exact Or.inr (Or.inr ⟨outline, fault, houtline, rfl, Or.inr (Or.inl
        ⟨before, entry, after, s, t, hsplit, hnodes, hbefore, rfl, hcause⟩)⟩)
  | @finished outline s t houtline hnodes hlinks =>
      cases hrepair : (Graph.Recorded.repair t.graph).result with
      | ok removed => exact Or.inr (Or.inl ⟨_, by rw [Loading.finish, hrepair]; rfl⟩)
      | error fault =>
          obtain ⟨rfl, hlong⟩ := Graph.Recorded.repair_eq_error hrepair
          exact Or.inr (Or.inr ⟨outline, .unwritable, houtline, by rw [Loading.finish, hrepair]; rfl,
            Or.inr (Or.inr ⟨s, t, hnodes, hlinks, Graph.Recorded.repair_state t.graph, rfl, hlong⟩)⟩)

/-- A catalog with one type of nodes, whose width has a fraction. -/
def wideCatalog : Value :=
  .obj [("nodeCategories", .obj [("math", .obj [("nodes", .obj [("wide", .obj [
    ("outputs", .list [.obj [("type", .str "float")]]),
    ("style", .obj [("minWidth", .float 120.5)])])])])])]

/-- A document with two nodes, of which the second lies far out. -/
def farDocument : Value :=
  let node (id x : Int) : Value := .obj [("id", .int id), ("category", .str "math"),
    ("type", .str "wide"), ("x", .int x), ("y", .int 0)]
  .obj [("nodes", .list [node 7 0, node 8 (Nat.pow 10 400)])]

/-- Is it a number beyond the largest double? -/
def isOutOfRange : Fault → Bool
  | .outOfRange => true
  | _ => false

theorem eq_outOfRange {fault : Fault} (h : isOutOfRange fault = true) : fault = .outOfRange := by
  unfold isOutOfRange at h
  split at h
  · rfl
  · cases h

/-- **An entry may end the loading.**  The catalog was merged without a fault and
the outline of the document is right, but the position of its second node cannot
be added to the width of the type: loading fails there, with the first node in the
graph. -/
theorem loadWithin_fatal :
    (Catalog.merge {} wideCatalog).2 = none ∧
      (loadWithin .direct (Catalog.merge {} wideCatalog).1 Graph.empty farDocument).result =
        .error .outOfRange ∧
      (loadWithin .direct (Catalog.merge {} wideCatalog).1 Graph.empty farDocument).state.nodes.map
        Node.id = [.int 7] := by
  obtain ⟨fault, hresult, htest⟩ := exists_error_of_failsWith
    (show failsWith isOutOfRange (loadWithin .direct (Catalog.merge {} wideCatalog).1 Graph.empty
      farDocument).result = true by decide +kernel)
  refine ⟨rfl, ?_, by decide +kernel⟩
  rw [hresult, eq_outOfRange htest]

end Document

end NodeWeave
