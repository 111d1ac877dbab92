import NodeWeave.Proofs.NodeShape

/-!
# Nodes in step with the catalog

A node takes its type over twice: when it is built, and whenever a document was
merged.  The second time the number of its ports stays, so a node may have fewer or
more ports than its type.  What both leave is that the ports of each side agree with
the definitions as far as both lists go.  `Agrees` states this, and a node that
agrees with its type is changed by nothing when it takes the type over again
(`Agrees.sync`).  A node is `InStep` when the catalog has its type and it agrees with
that.
-/

namespace NodeWeave

namespace Port

variable {p q : Port} {d : PortDef}

/-- The port is as the definition gives it, wherever it lies. -/
structure Matches (p : Port) (d : PortDef) : Prop where
  kind : p.kind = d.kind
  name : p.name = d.name
  code : p.code = d.code
  dynamic : readDynamic d = .ok p.dynamic

theorem Matches.of_ofDef {side : Side} {i : Nat} (h : ofDef side (d, i) = .ok p) : p.Matches d := by
  obtain ⟨dynamic, hread, h⟩ := bind_eq_ok h
  cases h
  exact ⟨rfl, rfl, rfl, hread⟩

theorem Matches.of_sync (h : q.sync d = (p, none)) : p.Matches d := by
  unfold sync at h
  dsimp only at h
  split at h
  · rename_i dynamic hread
    cases h
    exact ⟨rfl, rfl, rfl, hread⟩
  · cases h

/-- A port that matches its definition has nothing to take over. -/
theorem Matches.sync (h : p.Matches d) : p.sync d = (p, none) := by
  simp only [Port.sync, ← h.kind, ← h.name, ← h.code, h.dynamic]

/-- The position of a port has no part in whether it matches. -/
theorem Matches.of_bare (h : p.Matches d) (hbare : q.bare = p.bare) : q.Matches d := by
  simp only [Port.bare, Port.mk.injEq] at hbare
  obtain ⟨hkind, _, _, hname, hcode, hdynamic, _⟩ := hbare
  exact ⟨hkind.trans h.kind, hname.trans h.name, hcode.trans h.code, by rw [hdynamic, h.dynamic]⟩

end Port

namespace Node

variable {c : Catalog} {n m : Node} {t : NodeType}

/-! ## Both sides of a node -/

/-- The ports and the definitions of a side agree as far as both go. -/
def Agrees (n : Node) (t : NodeType) : Prop :=
  ∀ (side : Side) (i : Nat) (p : Port) (d : PortDef), (n.ports side)[i]? = some p →
    (t.visiblePorts side)[i]? = some d → p.Matches d

/-- **Taking a type over** ends with the inputs if one of them fails, and goes on with the
outputs otherwise. -/
theorem sync_cases (n : Node) (t : NodeType) :
    (∃ inputs fault, syncPorts (t.visiblePorts .input) n.inputs = (inputs, some fault) ∧
      n.sync t = ({ n with inputs }, some fault)) ∨
    ∃ inputs outputs result, syncPorts (t.visiblePorts .input) n.inputs = (inputs, none) ∧
      syncPorts (t.visiblePorts .output) n.outputs = (outputs, result) ∧
      n.sync t = ({ n with inputs, outputs }, result) := by
  unfold sync
  dsimp only
  split
  · rename_i inputs fault hin
    exact Or.inl ⟨inputs, fault, hin, rfl⟩
  · rename_i inputs hin
    exact Or.inr ⟨inputs, _, _, hin, rfl, rfl⟩

/-- A type is taken over when this goes well on both sides. -/
theorem sync_eq_ok : n.sync t = (m, none) ↔ ∃ inputs outputs,
    syncPorts (t.visiblePorts .input) n.inputs = (inputs, none) ∧
      syncPorts (t.visiblePorts .output) n.outputs = (outputs, none) ∧
      m = { n with inputs, outputs } := by
  rcases n.sync_cases t with ⟨inputs, fault, hin, hsync⟩ | ⟨inputs, outputs, result, hin, hout, hsync⟩
  · rw [hsync, hin]
    constructor
    · intro h
      cases h
    · rintro ⟨_, _, h, _⟩
      cases h
  · rw [hsync, hin, hout]
    constructor
    · intro h
      cases h
      exact ⟨inputs, outputs, rfl, rfl, rfl⟩
    · rintro ⟨_, _, hdone, hresult, rfl⟩
      cases hdone
      cases hresult
      rfl

theorem syncPorts_eq_self {side : Side} {defs : List PortDef} {row : Port.Row side}
    (h : ∀ (i : Nat) p d, row.ports[i]? = some p → defs[i]? = some d → p.Matches d) :
    syncPorts defs row = (row, none) := by
  rw [syncPorts, Port.Row.update_eq_iff]
  apply updateUntil_eq_self
  intro i p hp
  rw [Nat.zero_add, syncPort]
  cases hd : defs[i]? with
  | none => rfl
  | some d => exact (h i p d hp hd).sync

theorem matches_of_syncPorts {side : Side} {defs : List PortDef} {row done : Port.Row side}
    (h : syncPorts defs row = (done, none)) {i : Nat} {p : Port} {d : PortDef}
    (hp : done.ports[i]? = some p) (hd : defs[i]? = some d) : p.Matches d := by
  rw [syncPorts, Port.Row.update_eq_iff] at h
  obtain ⟨old, _, hupdate⟩ := getElem?_updateUntil h hp
  rw [Nat.zero_add, syncPort, hd] at hupdate
  exact Port.Matches.of_sync hupdate

/-- **A node that agrees with its type is not changed by taking it over.** -/
theorem Agrees.sync (h : n.Agrees t) : n.sync t = (n, none) :=
  sync_eq_ok.mpr ⟨n.inputs, n.outputs, syncPorts_eq_self (h .input), syncPorts_eq_self (h .output),
    rfl⟩

/-- **A node agrees with a type that it took over.** -/
theorem Agrees.of_sync (h : m.sync t = (n, none)) : n.Agrees t := by
  obtain ⟨inputs, outputs, hin, hout, hn⟩ := sync_eq_ok.mp h
  subst hn
  intro side i p d hp hd
  cases side with
  | input => exact matches_of_syncPorts hin hp hd
  | output => exact matches_of_syncPorts hout hp hd

/-- The positions of the ports have no part in whether a node agrees with a type. -/
theorem Agrees.of_bare (h : n.Agrees t)
    (hbare : ∀ side, (m.ports side).map Port.bare = (n.ports side).map Port.bare) :
    m.Agrees t := by
  intro side i p d hp hd
  have hplace : ((n.ports side).map Port.bare)[i]? = some p.bare := by
    rw [← hbare side, List.getElem?_map, hp, Option.map_some]
  rw [List.getElem?_map] at hplace
  obtain ⟨q, hq, hqp⟩ := Option.map_eq_some_iff.mp hplace
  exact (h side i q d hq hd).of_bare hqp.symm

/-- A new node agrees with its type, before its ports are placed. -/
theorem Agrees.of_ofType {id category : Scalar} {type : String} {x y : Value}
    (h : ofType c id category type t x y = .ok n) : n.Agrees t := by
  unfold ofType at h
  obtain ⟨inputs, hin, h⟩ := bind_eq_ok h
  obtain ⟨outputs, hout, h⟩ := bind_eq_ok h
  cases h
  have hside : ∀ {side} {row : Port.Row side}, Port.Row.ofDefs side (t.visiblePorts side) = .ok row →
      ∀ (i : Nat) p d, row.ports[i]? = some p → (t.visiblePorts side)[i]? = some d →
        p.Matches d := by
    intro side row hrow i p d hp hd
    obtain ⟨made, hmade, hof⟩ := Port.Row.getElem?_ofDefs hrow hp
    rw [hd] at hmade
    cases hmade
    exact Port.Matches.of_ofDef hof
  intro side
  cases side with
  | input => exact hside hin
  | output => exact hside hout

/-- Laying out a node changes the positions of the ports only, on both sides. -/
theorem bare_ports_layOut (n : Node) (side : Side) :
    (n.layOut.1.ports side).map Port.bare = (n.ports side).map Port.bare := by
  rw [← ports_bare, bare_layOut, ports_bare]

/-! ## Nodes and the catalog -/

/-- The catalog has the type of the node, and the node agrees with it. -/
def InStep (c : Catalog) (n : Node) : Prop :=
  ∃ t, c.find? n.category n.type = some t ∧ n.Agrees t

/-- What is looked up is found under the names that come with it. -/
theorem find?_of_lookup {category type : Value} {k : Scalar} {s : String}
    (h : c.lookup category type = .ok (some (k, s, t))) : c.find? k s = some t := by
  unfold Catalog.lookup at h
  obtain ⟨name, _, h⟩ := bind_eq_ok h
  split at h
  · cases h
  · rename_i file hfile
    obtain ⟨named, _, h⟩ := bind_eq_ok h
    split at h
    · obtain ⟨found, hget, heq⟩ := Option.map_eq_some_iff.mp (Except.ok.inj h)
      cases heq
      simp [Catalog.find?, hfile, hget]
    · cases h

/-- The type that a node is built of is the one that is found under its names. -/
theorem find?_of_require {category type : Value} {k : Scalar} {s : String}
    (h : c.require category type = .ok (k, s, t)) : c.find? k s = some t := by
  unfold Catalog.require at h
  cases hloaded : c.loaded with
  | false => simp [hloaded, bind, Except.bind, pure, Except.pure] at h
  | true =>
      simp only [hloaded, ↓reduceIte] at h
      obtain ⟨found, hlookup, h⟩ := bind_eq_ok h
      cases found with
      | none => cases h
      | some entry =>
          cases h
          exact find?_of_lookup hlookup

/-- What has the same type and, but for their positions, the same ports is in step as
well. -/
theorem InStep.of_bare (h : n.InStep c) (hcategory : m.category = n.category)
    (htype : m.type = n.type)
    (hbare : ∀ side, (m.ports side).map Port.bare = (n.ports side).map Port.bare) :
    m.InStep c := by
  obtain ⟨t, hfind, hagrees⟩ := h
  exact ⟨t, by rw [hcategory, htype, hfind], hagrees.of_bare hbare⟩

theorem InStep.of_value (h : n.InStep c) (v : Value) : ({ n with value := v } : Node).InStep c := by
  obtain ⟨t, hfind, hagrees⟩ := h
  exact ⟨t, hfind, hagrees⟩

/-- A new node is filed under its type and agrees with it. -/
theorem Agrees.of_build {id k : Scalar} {category type x y : Value} {s : String}
    (h : Node.build c id category type x y = .ok n)
    (hrequire : c.require category type = .ok (k, s, t)) :
    c.find? n.category n.type = some t ∧ n.Agrees t := by
  obtain ⟨k', s', t', m, hrequire', hof, hlay⟩ := build_eq_ok.mp h
  rw [hrequire] at hrequire'
  cases hrequire'
  obtain ⟨_, hcategory, htype, _⟩ := ofType_eq_ok hof
  have hports := bare_ports_layOut m
  rw [hlay] at hports
  obtain ⟨inputs, outputs, _, _, hn⟩ := layOut_eq_ok.mp hlay
  refine ⟨?_, (Agrees.of_ofType hof).of_bare hports⟩
  rw [hn, hcategory, htype, find?_of_require hrequire]

/-- **A new node is in step with the catalog.** -/
theorem InStep.of_build {id : Scalar} {category type x y : Value}
    (h : Node.build c id category type x y = .ok n) : n.InStep c := by
  obtain ⟨k, s, t, _, hrequire, _, _⟩ := build_eq_ok.mp h
  exact ⟨t, Agrees.of_build h hrequire⟩

theorem IsBuilt.inStep (h : n.IsBuilt c) : n.InStep c := by
  obtain ⟨id, category, base, hbuild, hn⟩ := h.built
  rw [hn]
  exact (InStep.of_build hbuild).of_value n.value

/-- A moved node stays in step, also when the move fails. -/
theorem InStep.moveTo (h : n.InStep c) (x y : Value) : (n.moveTo x y).1.InStep c := by
  have hbare := bare_layOut { n with x, y }
  have hcategory := congrArg Node.category hbare
  have htype := congrArg Node.type hbare
  exact h.of_bare hcategory htype (bare_ports_layOut { n with x, y })

/-- A node that took over what the catalog has for it is in step. -/
theorem InStep.of_sync (hfind : c.find? m.category m.type = some t) (h : m.sync t = (n, none)) :
    n.InStep c := by
  have hagrees := Agrees.of_sync h
  obtain ⟨inputs, outputs, _, _, hn⟩ := sync_eq_ok.mp h
  refine ⟨t, ?_, hagrees⟩
  rw [hn]
  exact hfind

end Node

end NodeWeave
