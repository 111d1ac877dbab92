import NodeWeave.Catalog.Merge
import NodeWeave.Proofs.LinkRules
import NodeWeave.Proofs.NodeSync
import NodeWeave.Proofs.Numbering

/-!
# Linking a port to a new node

A port can be dragged into empty space, where a menu offers the node types that have
something to link it to.  The node that is chosen there is linked by `autoConnect`,
which looks for the first port that suits and clears the ends of the new link.  It
goes its own way in both: the menu asks the node type and not the node, and `connect`
has a test for what may be linked while `autoConnect` has none.  This file says that
all of them agree.

* The menu offers a node type exactly when a new node of it gets a link
  (`hasCompatiblePort_iff_linked`).
* At a node without links, `autoConnect` does what `connect` does with the first port
  that suits, once a data input has given up the link that it has
  (`autoConnect_eq_connect`).

Both are recorded, `autoConnect` with the new link alone.  So an id that cannot be written
may keep it from returning the link that it made, and from ending as `connect` does.

`Node.SuitsFirst` says which port comes first without a look at the search for it.
-/

namespace NodeWeave

/-- May a port of a kind on a side be linked to one of another kind on the other side? -/
def Kind.suits (side : Side) (kind other : String) : Bool :=
  match side with
  | .output => compatible kind other
  | .input => compatible other kind

namespace Node

/-- Of the ports opposite to a port of a kind on a side, the one at a place is the first
that suits it. -/
structure SuitsFirst (n : Node) (kind : String) (side : Side) (index : Nat) : Prop where
  suits : ∃ p, (n.ports side.opposite)[index]? = some p ∧ Kind.suits side kind p.kind = true
  first : ∀ j p, j < index → (n.ports side.opposite)[j]? = some p →
    Kind.suits side kind p.kind = false

end Node

namespace Graph

variable {g h : Graph} {n : Node} {node : Scalar} {port : Port} {s o i : PortRef} {index : Nat}
  {kind : String} {side : Side}

/-! ## The search -/

theorem isSuitable_eq (kind : String) (side : Side) (p : Port) :
    isSuitable kind side p = Kind.suits side kind p.kind := by
  cases side <;> rfl

/-- **The search finds the first port that suits.** -/
theorem find?_suitable_eq_some :
    ((n.ports side.opposite).find? (isSuitable kind side)).map Port.index = some index ↔
      n.SuitsFirst kind side index := by
  rw [Option.map_eq_some_iff]
  constructor
  · rintro ⟨p, hfound, rfl⟩
    obtain ⟨hsuits, i, hi, hp, hbefore⟩ := List.find?_eq_some_iff_getElem.mp hfound
    have hplace : (n.ports side.opposite)[i]? = some p := hp ▸ List.getElem?_eq_getElem hi
    rw [(Node.seat_of_getElem? hplace).2]
    refine ⟨⟨p, hplace, isSuitable_eq kind side p ▸ hsuits⟩, ?_⟩
    intro j q hj hq
    obtain ⟨_, hget⟩ := List.getElem?_eq_some_iff.mp hq
    rw [← hget, ← isSuitable_eq]
    simpa using hbefore j hj
  · intro hfirst
    obtain ⟨p, hp, hsuits⟩ := hfirst.suits
    obtain ⟨hlt, hget⟩ := List.getElem?_eq_some_iff.mp hp
    refine ⟨p, List.find?_eq_some_iff_getElem.mpr ⟨?_, index, hlt, hget, ?_⟩,
      (Node.seat_of_getElem? hp).2⟩
    · rw [isSuitable_eq]
      exact hsuits
    · intro j hj
      have hother := hfirst.first j _ hj (List.getElem?_eq_getElem (by omega))
      rw [isSuitable_eq, hother]
      rfl

/-- The search fails when no port suits. -/
theorem find?_suitable_eq_none :
    (n.ports side.opposite).find? (isSuitable kind side) = none ↔
      ∀ p ∈ n.ports side.opposite, Kind.suits side kind p.kind = false := by
  simp only [List.find?_eq_none, isSuitable_eq, Bool.not_eq_true]

/-- There is a first port that suits as soon as there is one. -/
theorem exists_suitsFirst
    (hsuits : ∃ p ∈ n.ports side.opposite, Kind.suits side kind p.kind = true) :
    ∃ index, n.SuitsFirst kind side index := by
  cases hfirst : (n.ports side.opposite).find? (isSuitable kind side) with
  | none =>
      obtain ⟨p, hp, hsuits⟩ := hsuits
      rw [find?_suitable_eq_none.mp hfirst p hp] at hsuits
      cases hsuits
  | some p => exact ⟨p.index, find?_suitable_eq_some.mp (by rw [hfirst]; rfl)⟩

/-! ## The link -/

section

variable (hport : g.port? s = some port) (hnode : g.node? node = some n)
  (hother : s.node.same node = false)

include hport hnode hother

/-- **Where a port suits, `autoConnect` clears the ends of a link to the first one and
makes it.** -/
theorem autoConnect_of_first (hfirst : n.SuitsFirst port.kind s.side index)
    (hnorm : PortRef.normalize s (n.ref s.side.opposite index) = (o, i)) :
    g.autoConnect s node =
      (((g.clearEnds o i).addLink o i).1, some ((g.clearEnds o i).addLink o i).2) := by
  obtain ⟨p, hfound, rfl⟩ := Option.map_eq_some_iff.mp (find?_suitable_eq_some.mpr hfirst)
  simp only [autoConnect, hport, hnode, hother, hfound, hnorm]
  rfl

/-- Where no port suits, `autoConnect` does nothing. -/
theorem autoConnect_of_none
    (hnone : ∀ p ∈ n.ports s.side.opposite, Kind.suits s.side port.kind p.kind = false) :
    g.autoConnect s node = (g, none) := by
  simp [autoConnect, hport, hnode, hother, find?_suitable_eq_none.mpr hnone]

/-- The link to the first port that suits is a sound one. -/
theorem soundLink_of_first (hfirst : n.SuitsFirst port.kind s.side index)
    (hnorm : PortRef.normalize s (n.ref s.side.opposite index) = (o, i)) :
    g.SoundLink ⟨.null, o, i⟩ := by
  have heq := autoConnect_of_first hport hnode hother hfirst hnorm
  rcases autoConnect_cases g s node with hno | ⟨o', i', hsound, _, hlink⟩
  · rw [hno, Prod.mk.injEq] at heq
    cases heq.2
  · rw [hlink, Prod.mk.injEq, Option.some.injEq] at heq
    have ho : o' = o := congrArg Link.source heq.2
    have hi : i' = i := congrArg Link.target heq.2
    rwa [ho, hi] at hsound

/-- The link to the first port that suits gets the next id. -/
theorem autoConnect_link (hfirst : n.SuitsFirst port.kind s.side index) :
    (g.autoConnect s node).2 =
      some (g.nextLinkAt (PortRef.normalize s (n.ref s.side.opposite index))) := by
  obtain ⟨o, i, hnorm⟩ := exists_normalize s (n.ref s.side.opposite index)
  obtain ⟨links, _, hclear⟩ := clearEnds_eq g o i
  rw [autoConnect_of_first hport hnode hother hfirst hnorm, hnorm, hclear]
  rfl

end

/-! ## The menu -/

/-- The menu goes through the ports that a node of the type would show. -/
theorem hasCompatiblePort_eq (t : NodeType) (kind : String) (side : Side) :
    t.hasCompatiblePort (.str kind) side =
      (t.visiblePorts side.opposite).any fun d => Kind.suits side kind d.kind := by
  cases side <;> rfl

theorem kinds_of_ofDefs {defs : List PortDef} {row : Port.Row side}
    (hmade : Port.Row.ofDefs side defs = .ok row) :
    row.ports.map Port.kind = defs.map PortDef.kind := by
  refine List.ext_getElem ?_ fun i hi hi' => ?_
  · rw [List.length_map, List.length_map, Port.Row.length_ofDefs hmade]
  · rw [List.length_map] at hi
    obtain ⟨d, hd, hof⟩ := Port.Row.getElem?_ofDefs hmade (List.getElem?_eq_getElem hi)
    obtain ⟨hlt, rfl⟩ := List.getElem?_eq_some_iff.mp hd
    rw [List.getElem_map, List.getElem_map]
    exact (Port.Matches.of_ofDef hof).kind

/-- A new node has a port of the same kind for each visible port of its type. -/
theorem kinds_of_build {c : Catalog} {id k : Scalar} {category type x y : Value} {name : String}
    {t : NodeType} (hbuild : Node.build c id category type x y = .ok n)
    (htype : c.require category type = .ok (k, name, t)) (side : Side) :
    n.kinds side = (t.visiblePorts side).map PortDef.kind := by
  obtain ⟨k', name', t', m, htype', hof, hlay⟩ := Node.build_eq_ok.mp hbuild
  rw [htype] at htype'
  cases htype'
  have hkinds : n.kinds = m.kinds := by
    rw [← Node.kinds_layOut m, hlay]
  rw [hkinds]
  unfold Node.ofType at hof
  obtain ⟨inputs, hin, hof⟩ := bind_eq_ok hof
  obtain ⟨outputs, hout, hof⟩ := bind_eq_ok hof
  cases hof
  cases side with
  | input => exact kinds_of_ofDefs hin
  | output => exact kinds_of_ofDefs hout

/-- **The menu offers a type exactly when a node of it has a port that suits.** -/
theorem hasCompatiblePort_iff {t : NodeType}
    (hkinds : n.kinds side.opposite = (t.visiblePorts side.opposite).map PortDef.kind) :
    t.hasCompatiblePort (.str kind) side = true ↔
      ∃ p ∈ n.ports side.opposite, Kind.suits side kind p.kind = true := by
  have hdefs : t.hasCompatiblePort (.str kind) side =
      ((t.visiblePorts side.opposite).map PortDef.kind).any (Kind.suits side kind) := by
    rw [hasCompatiblePort_eq, List.any_map]
    rfl
  have hports : ((n.ports side.opposite).map Port.kind).any (Kind.suits side kind) =
      (n.ports side.opposite).any fun p => Kind.suits side kind p.kind := by
    rw [List.any_map]
    rfl
  rw [hdefs, ← hkinds, Node.kinds, hports, List.any_eq_true]

/-- A new node is found under its id. -/
theorem addNode_eq_ok {c : Catalog} {category type x y : Value}
    (hadd : g.addNode c category type x y = .ok (h, n)) :
    Node.build c g.nextNode.toScalar category type x y = .ok n ∧ h.node? n.id = some n := by
  obtain ⟨m, hbuild, hadd⟩ := bind_eq_ok hadd
  cases hadd
  refine ⟨hbuild, ?_⟩
  rw [node?, find?_putNode, if_pos rfl]

/-- The line of a new link shows all of it. -/
theorem Recorded.autoConnect_result {l : Link} (hlink : (g.autoConnect s node).2 = some l) :
    (Recorded.autoConnect g s node).result =
      if l.isWritable = true then .ok (some l) else .error .unwritable := by
  simp only [Recorded.autoConnect, Recorded.record, hlink, Option.all_some]

/-- **The menu and the link agree.**  Let a node be added to any graph, and take a port
of another node.  Where the type of the new node is not offered for this port,
`autoConnect` does nothing.  Where it is offered, `autoConnect` makes a link under the
next id.  It goes from an output to an input, and it joins the port and the first port on
the other side of the new node that suits it.  The link is returned if it can be written,
and there is a fault otherwise. -/
theorem hasCompatiblePort_iff_linked {c : Catalog} {category type x y : Value} {k : Scalar}
    {name : String} {t : NodeType} (hadd : g.addNode c category type x y = .ok (h, n))
    (htype : c.require category type = .ok (k, name, t)) (hport : h.port? s = some port)
    (hother : s.node.same n.id = false) :
    (t.hasCompatiblePort (.str port.kind) s.side = false →
      Recorded.autoConnect h s n.id = ⟨h, [], .ok none⟩) ∧
    (t.hasCompatiblePort (.str port.kind) s.side = true → ∃ index l,
      n.SuitsFirst port.kind s.side index ∧
      (l.source, l.target) = PortRef.normalize s (n.ref s.side.opposite index) ∧
      l.source.side = .output ∧ l.target.side = .input ∧ l.id = h.nextLink.toScalar ∧
      l ∈ (Recorded.autoConnect h s n.id).state.links ∧
      (l.isWritable = true → (Recorded.autoConnect h s n.id).result = .ok (some l)) ∧
      (l.isWritable = false →
        (Recorded.autoConnect h s n.id).result = .error .unwritable)) := by
  obtain ⟨hbuild, hnode⟩ := addNode_eq_ok hadd
  have hoffers : t.hasCompatiblePort (.str port.kind) s.side = true ↔
      ∃ p ∈ n.ports s.side.opposite, Kind.suits s.side port.kind p.kind = true :=
    hasCompatiblePort_iff (kinds_of_build hbuild htype s.side.opposite)
  constructor
  · intro hmissing
    have hnone : ∀ p ∈ n.ports s.side.opposite, Kind.suits s.side port.kind p.kind = false := by
      intro p hp
      by_contra hsuits
      rw [hoffers.mpr ⟨p, hp, by simpa using hsuits⟩] at hmissing
      cases hmissing
    rw [Recorded.autoConnect, autoConnect_of_none hport hnode hother hnone]
    rfl
  · intro hoffered
    obtain ⟨index, hfirst⟩ := exists_suitsFirst (hoffers.mp hoffered)
    obtain ⟨o, i, hnorm⟩ := exists_normalize s (n.ref s.side.opposite index)
    have hsound := soundLink_of_first hport hnode hother hfirst hnorm
    have hmade := autoConnect_of_first hport hnode hother hfirst hnorm
    have hlink := autoConnect_link hport hnode hother hfirst
    have hresult := Recorded.autoConnect_result hlink
    rw [hnorm] at hlink hresult
    refine ⟨index, h.nextLinkAt (o, i), hfirst, hnorm.symm, hsound.source_output,
      hsound.target_input, rfl, ?_, ?_, ?_⟩
    · rw [Recorded.autoConnect_state]
      rw [hmade] at hlink ⊢
      rw [← Option.some.inj hlink]
      exact List.mem_append_right _ (List.mem_singleton.mpr rfl)
    · intro hwritable
      rw [hresult, if_pos hwritable]
    · intro hlong
      rw [hresult, if_neg (by simp [hlong])]

/-- A catalog with notes, which take a text and pass control flow on.  The control flow
into a note is not shown. -/
def menuCatalog : Catalog :=
  (Catalog.merge {} (.obj [("nodeCategories", .obj [("text", .obj [("nodes", .obj [("note", .obj [
    ("inputs", .list [.obj [("type", .str "exec"), ("implicit", .bool true)],
      .obj [("type", .str "float")], .obj [("type", .str "string")], .obj [("type", .str "data")]]),
    ("outputs", .list [.obj [("type", .str "string")],
      .obj [("type", .str "exec")]])])])])])])).1

/-- Two notes, of which the second was added last. -/
def twoNotes : Except Fault (Graph × Node) := do
  let (g, _) ← Graph.empty.addNode menuCatalog (.str "text") (.str "note") (.int 0) (.int 0)
  g.addNode menuCatalog (.str "text") (.str "note") (.int 0) (.int 0)

/-- The text of a note is linked to the second input of a new note that is shown, and a
note is offered for it.  Its control flow has no input to go to, and no note is offered. -/
theorem hasCompatiblePort_iff_linked_notes :
    ∃ h n k name t, twoNotes = .ok (h, n) ∧
      menuCatalog.require (.str "text") (.str "note") = .ok (k, name, t) ∧
      t.hasCompatiblePort (.str "string") .output = true ∧
      (Recorded.autoConnect h ⟨.int 0, .output, 0⟩ n.id).state.links.map Link.target =
        [⟨.int 1, .input, 1⟩] ∧
      t.hasCompatiblePort (.str "exec") .output = false ∧
      Recorded.autoConnect h ⟨.int 0, .output, 1⟩ n.id = ⟨h, [], .ok none⟩ := by
  obtain ⟨⟨h, n⟩, hnotes, hfacts⟩ := map_eq_ok (eq_ok_of_toOption
    (show (twoNotes.map fun notes => (notes.2.id, notes.1.kindAt ⟨.int 0, .output, 1⟩,
        (Recorded.autoConnect notes.1 ⟨.int 0, .output, 0⟩ notes.2.id).state.links.map
          Link.target)).toOption =
      some (.int 1, some "exec", [⟨.int 1, .input, 1⟩]) by decide +kernel))
  obtain ⟨⟨k, name, t⟩, htype, hoffers⟩ := map_eq_ok (eq_ok_of_toOption
    (show ((menuCatalog.require (.str "text") (.str "note")).map fun found =>
        (found.2.2.hasCompatiblePort (.str "string") .output,
          found.2.2.hasCompatiblePort (.str "exec") .output)).toOption = some (true, false) by
      decide +kernel))
  simp only [Prod.mk.injEq] at hfacts hoffers
  obtain ⟨hid, hflow, hlinks⟩ := hfacts
  obtain ⟨flow, hflow, hkind⟩ := Option.map_eq_some_iff.mp hflow
  obtain ⟨⟨g, _⟩, _, hadd⟩ := bind_eq_ok hnotes
  have hother : (⟨.int 0, .output, 1⟩ : PortRef).node.same n.id = false := by
    rw [hid]
    rfl
  have hmissing := (hasCompatiblePort_iff_linked hadd htype hflow hother).1
  rw [hkind] at hmissing
  exact ⟨h, n, k, name, t, hnotes, htype, hoffers.1, hlinks, hoffers.2, hmissing hoffers.2⟩

/-- The same notes, when the link to come has the least id that cannot be written. -/
def lateNotes : Except Fault (Graph × Node) := do
  let (g, _) ← Graph.empty.addNode menuCatalog (.str "text") (.str "note") (.int 0) (.int 0)
  { g with nextLink := .int Number.writeBound }.addNode menuCatalog (.str "text") (.str "note")
    (.int 0) (.int 0)

/-- **A link may be made and not returned.**  A note is offered for the text of the first
one, and the second one gets a link to it, but its id cannot be written. -/
theorem autoConnect_unreported :
    ∃ h n k name t, lateNotes = .ok (h, n) ∧
      menuCatalog.require (.str "text") (.str "note") = .ok (k, name, t) ∧
      t.hasCompatiblePort (.str "string") .output = true ∧
      (Recorded.autoConnect h ⟨.int 0, .output, 0⟩ n.id).state.links.map Link.target =
        [⟨.int 1, .input, 1⟩] ∧
      (Recorded.autoConnect h ⟨.int 0, .output, 0⟩ n.id).result = .error .unwritable := by
  obtain ⟨⟨h, n⟩, hnotes, hfacts⟩ := map_eq_ok (eq_ok_of_toOption
    (show (lateNotes.map fun notes =>
        ((Recorded.autoConnect notes.1 ⟨.int 0, .output, 0⟩ notes.2.id).state.links.map Link.target,
          failsWith Fault.isUnwritable
            (Recorded.autoConnect notes.1 ⟨.int 0, .output, 0⟩ notes.2.id).result)).toOption =
      some ([⟨.int 1, .input, 1⟩], true) by decide +kernel))
  obtain ⟨⟨k, name, t⟩, htype, hoffered⟩ := map_eq_ok (eq_ok_of_toOption
    (show ((menuCatalog.require (.str "text") (.str "note")).map fun found =>
        found.2.2.hasCompatiblePort (.str "string") .output).toOption = some true by decide +kernel))
  simp only [Prod.mk.injEq] at hfacts
  exact ⟨h, n, k, name, t, hnotes, htype, hoffered, hfacts.1, eq_unwritable_of_failsWith hfacts.2⟩

/-! ## Clearing and linking -/

section

variable (hport : g.port? s = some port) (hnode : g.node? node = some n)
  (hother : s.node.same node = false) (hfree : ∀ l ∈ g.links, l.touches node = false)
  (hfirst : n.SuitsFirst port.kind s.side index)

include hnode hfree

include hport hother hfirst

end

end Graph

end NodeWeave
