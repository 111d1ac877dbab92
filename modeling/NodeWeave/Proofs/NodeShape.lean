import NodeWeave.Nesting
import NodeWeave.Proofs.Lookup

/-!
# The shape of a node

Laying out, moving and storing a value leave a node the one it was: its id, its
type and the kinds of its ports stay.  More precisely, a node that was built and
then moved any number of times is the node that would have been built at its last
position, but for the value in its slot.  `IsBuilt` states this, and it holds of
a new node (`IsBuilt.of_build`) and is kept by a move that succeeds
(`IsBuilt.moveTo`) and by storing a value (`IsBuilt.setValue`).

The argument rests on one observation about `layOut`: it overwrites the position of
every port, so what it gives depends on the ports without their positions (`bare`).
-/

namespace NodeWeave

namespace Port

/-- The port without its position. -/
def bare (p : Port) : Port :=
  { p with x := .null, y := .null }

theorem seat_bare (p : Port) : p.bare.seat = p.seat := rfl

/-- Placing a port changes its position only. -/
theorem bare_place (p : Port) (x y : Except Fault Value) : (p.place x y).1.bare = p.bare := by
  unfold place
  split
  · rfl
  · split <;> rfl

/-- A port that is placed with success forgets where it was. -/
theorem place_congr {p q r : Port} {x y : Except Fault Value} (hbare : p.bare = q.bare)
    (hplace : p.place x y = (r, none)) : q.place x y = (r, none) := by
  unfold place at hplace ⊢
  split at hplace
  · cases hplace
  · split at hplace
    · cases hplace
    · cases hplace
      cases p
      cases q
      simp_all [bare]

end Port

namespace Node

/-- The node without the positions of its ports. -/
def bare (n : Node) : Node :=
  { n with
    inputs := n.inputs.map Port.bare Port.seat_bare
    outputs := n.outputs.map Port.bare Port.seat_bare }

theorem ports_bare (n : Node) (side : Side) : n.bare.ports side = (n.ports side).map Port.bare := by
  cases side <;> rfl

variable {c : Catalog} {n m k : Node} {id : Scalar} {category type x y v : Value}

/-- Placing ports with success depends on what they are without their positions. -/
theorem placeAll_congr {side : Side} {xs ys zs : Port.Row side}
    (hbare : xs.ports.map Port.bare = ys.ports.map Port.bare)
    (hplace : n.placeAll xs = (zs, none)) : n.placeAll ys = (zs, none) := by
  unfold placeAll at hplace ⊢
  rw [Port.Row.update_eq_iff] at hplace ⊢
  generalize xs.ports = xs at hbare hplace
  generalize ys.ports = ys at hbare ⊢
  generalize zs.ports = zs at hplace ⊢
  generalize (0 : Nat) = i at hplace ⊢
  induction xs generalizing ys zs i with
  | nil =>
      have : ys = [] := by simpa using hbare.symm
      rwa [this]
  | cons p rest ih =>
      cases ys with
      | nil => simp at hbare
      | cons q rest' =>
          simp only [List.map_cons, List.cons.injEq] at hbare
          unfold updateUntil at hplace
          split at hplace
          · cases hplace
          · rename_i b hstep
            cases hrest : updateUntil (fun i p => p.place (n.portX side) (n.portY i)) (i + 1) rest with
            | mk done fault =>
                rw [hrest] at hplace
                cases hplace
                have hq := Port.place_congr hbare.1 hstep
                have hrest' := ih _ hbare.2 _ (i + 1) hrest
                simp [updateUntil, hq, hrest']

/-- A layout succeeds when the ports of both sides can be placed. -/
theorem layOut_eq_ok : n.layOut = (k, none) ↔ ∃ inputs outputs,
    n.placeAll n.inputs = (inputs, none) ∧ n.placeAll n.outputs = (outputs, none) ∧
      k = { n with inputs, outputs } := by
  constructor
  · intro hlay
    unfold layOut at hlay
    split at hlay
    · cases hlay
    · rename_i inputs hin
      cases hout : n.placeAll n.outputs with
      | mk outputs fault =>
          rw [hout] at hlay
          cases hlay
          exact ⟨inputs, outputs, hin, rfl, rfl⟩
  · rintro ⟨inputs, outputs, hin, hout, rfl⟩
    simp [layOut, hin, hout]

/-- Laying out a node changes the positions of its ports only. -/
theorem bare_layOut (n : Node) : n.layOut.1.bare = n.bare := by
  have hside : ∀ {side : Side} (row : Port.Row side),
      (n.placeAll row).1.map Port.bare Port.seat_bare = row.map Port.bare Port.seat_bare :=
    fun row => Port.Row.ext (map_updateUntil Port.bare (fun i p => Port.bare_place p _ _) 0 row.ports)
  have hin := hside n.inputs
  have hout := hside n.outputs
  unfold layOut
  split
  · rename_i inputs e hplace
    rw [hplace] at hin
    simp only [bare, hin]
  · rename_i inputs hplace
    rw [hplace] at hin
    simp only [bare, hin, hout]

/-- **A layout that succeeds forgets the old positions.** -/
theorem layOut_congr (hbare : n.bare = m.bare) (hlay : n.layOut = (k, none)) :
    m.layOut = (k, none) := by
  obtain ⟨inputs, outputs, hin, hout, rfl⟩ := layOut_eq_ok.mp hlay
  -- the positions of a node's own ports play no part in where its ports lie
  have hplace : ∀ {side : Side} (row : Port.Row side), m.placeAll row = n.placeAll row := by
    intro side row
    rw [show m.placeAll row = m.bare.placeAll row from rfl, ← hbare]
    rfl
  have hports : ∀ side, (n.ports side).map Port.bare = (m.ports side).map Port.bare := by
    intro side
    rw [← ports_bare, hbare, ports_bare]
  refine layOut_eq_ok.mpr ⟨inputs, outputs, ?_, ?_, ?_⟩
  · rw [hplace]
    exact placeAll_congr (hports .input) hin
  · rw [hplace]
    exact placeAll_congr (hports .output) hout
  · rw [show ({ m with inputs, outputs } : Node) = { m.bare with inputs, outputs } from rfl, ← hbare]
    rfl

/-- The value of a node has no part in its layout. -/
theorem layOut_value (n : Node) (v : Value) :
    { n with value := v }.layOut = ({ n.layOut.1 with value := v }, n.layOut.2) := by
  unfold layOut
  rw [show @placeAll _ ({ n with value := v } : Node) = @placeAll _ n from rfl]
  cases hin : n.placeAll n.inputs with
  | mk inputs fault =>
      cases fault with
      | none => rfl
      | some e => rfl

/-- Laying out a node keeps the kinds of its ports. -/
theorem kinds_layOut (n : Node) : n.layOut.1.kinds = n.kinds := by
  have hkinds : ∀ m : Node, m.kinds = m.bare.kinds := by
    intro m
    funext side
    simp [kinds, ports_bare, Port.bare, Function.comp_def]
  rw [hkinds, bare_layOut, ← hkinds]

/-- Laying out a node keeps its id. -/
theorem id_layOut (n : Node) : n.layOut.1.id = n.id := by
  have hbare := congrArg Node.id (bare_layOut n)
  exact hbare

/-- A node that is moved keeps its id, also when the move fails. -/
theorem id_moveTo (n : Node) (x y : Value) : (n.moveTo x y).1.id = n.id :=
  id_layOut { n with x, y }

/-- A node that is moved keeps the kinds of its ports, also when the move fails. -/
theorem kinds_moveTo (n : Node) (x y : Value) : (n.moveTo x y).1.kinds = n.kinds :=
  kinds_layOut { n with x, y }

/-- Taking over a changed node type keeps the id of a node. -/
theorem id_sync (n : Node) (t : NodeType) : (n.sync t).1.id = n.id := by
  unfold sync
  dsimp only
  split <;> rfl

/-! ## Nodes as their type gives them -/

/-- How a node is built: its type is found, its ports are made, and they are laid
out. -/
theorem build_eq_ok : Node.build c id category type x y = .ok n ↔ ∃ k s t m,
    c.require category type = .ok (k, s, t) ∧ ofType c id k s t x y = .ok m ∧
      m.layOut = (n, none) := by
  unfold build
  constructor
  · intro h
    cases hrequire : c.require category type with
    | error e => simp [hrequire, bind, Except.bind] at h
    | ok entry =>
        obtain ⟨k, s, t⟩ := entry
        cases hof : ofType c id k s t x y with
        | error e => simp [hrequire, bind, Except.bind, hof] at h
        | ok m =>
            cases hlay : m.layOut with
            | mk built fault =>
                cases fault with
                | some e => simp [hrequire, bind, Except.bind, hof, hlay] at h
                | none =>
                    simp only [hrequire, bind, Except.bind, hof, hlay, pure, Except.pure,
                      Except.ok.injEq] at h
                    exact ⟨k, s, t, m, rfl, hof, by rw [hlay, h]⟩
  · rintro ⟨k, s, t, m, hrequire, hof, hlay⟩
    simp [hrequire, bind, Except.bind, hof, hlay, pure, Except.pure]

/-- What a new node has before its ports are placed. -/
theorem ofType_eq_ok {k : Scalar} {s : String} {t : NodeType}
    (hof : ofType c id k s t x y = .ok m) :
    m.id = id ∧ m.category = k ∧ m.type = s ∧ m.x = x ∧ m.y = y ∧
      (m.slot = none → m.value = .null) ∧
      ∀ x' y', ofType c id k s t x' y' = .ok { m with x := x', y := y' } := by
  unfold ofType at hof ⊢
  cases hin : Port.Row.ofDefs .input (t.visiblePorts .input) with
  | error e => simp [hin, bind, Except.bind] at hof
  | ok inputs =>
      cases hout : Port.Row.ofDefs .output (t.visiblePorts .output) with
      | error e => simp [hin, hout, bind, Except.bind] at hof
      | ok outputs =>
          simp only [hin, hout, bind, Except.bind, pure, Except.pure, Except.ok.injEq] at hof
          subst hof
          refine ⟨rfl, rfl, rfl, rfl, rfl, ?_, fun _ _ => rfl⟩
          intro hslot
          simp only [Option.map_eq_none_iff] at hslot
          simp [hslot]

/-- **A node as its type gives it.**  It is what the catalog builds under its id
and its type at its position, but for the value in its slot, which is null
without a slot. -/
structure IsBuilt (c : Catalog) (n : Node) : Prop where
  built : ∃ (id : Int) (category : String) (base : Node),
    Node.build c (.int id) (.str category) (.str n.type) n.x n.y = .ok base ∧
      n = { base with value := n.value }
  no_slot : n.slot = none → n.value = .null

/-- The type that is found under texts is filed under these texts. -/
theorem require_text {category type : String} {k : Scalar} {s : String} {t : NodeType}
    (h : c.require (.str category) (.str type) = .ok (k, s, t)) :
    k = .text category ∧ s = type ∧ c.find? (.text category) type = some t := by
  unfold Catalog.require at h
  cases hloaded : c.loaded with
  | false => simp [hloaded, bind, Except.bind, pure, Except.pure] at h
  | true =>
      cases hcat : c.category? (.text category) with
      | none =>
          simp [hloaded, Catalog.lookup, Value.name, Value.scalar?, hcat, bind, Except.bind, pure,
            Except.pure] at h
      | some file =>
          cases htype : file.types.get? type with
          | none =>
              simp [hloaded, Catalog.lookup, Value.name, Value.scalar?, hcat, htype, bind,
                Except.bind, pure, Except.pure] at h
          | some found =>
              simp [hloaded, Catalog.lookup, Value.name, Value.scalar?, hcat, htype, bind,
                Except.bind, pure, Except.pure] at h
              obtain ⟨rfl, rfl, rfl⟩ := h
              exact ⟨rfl, rfl, by simp [Catalog.find?, hcat, htype]⟩

/-- What a built node has of what was asked for. -/
theorem build_fields (h : Node.build c id category type x y = .ok n) :
    n.id = id ∧ n.x = x ∧ n.y = y ∧ (n.slot = none → n.value = .null) := by
  obtain ⟨k, s, t, m, _, hof, hlay⟩ := build_eq_ok.mp h
  obtain ⟨hid, _, _, hx, hy, hslot, _⟩ := ofType_eq_ok hof
  obtain ⟨inputs, outputs, _, _, rfl⟩ := layOut_eq_ok.mp hlay
  exact ⟨hid, hx, hy, hslot⟩

/-- A node that was built from texts is filed under them. -/
theorem build_text {category type : String}
    (h : Node.build c id (.str category) (.str type) x y = .ok n) :
    n.category = .text category ∧ n.type = type := by
  obtain ⟨k, s, t, m, hrequire, hof, hlay⟩ := build_eq_ok.mp h
  obtain ⟨rfl, rfl, _⟩ := require_text hrequire
  obtain ⟨_, hcat, htype, _⟩ := ofType_eq_ok hof
  obtain ⟨inputs, outputs, _, _, rfl⟩ := layOut_eq_ok.mp hlay
  exact ⟨hcat, htype⟩

/-- A new node is as its type gives it. -/
theorem IsBuilt.of_build {id : Int} {category type : String}
    (h : Node.build c (.int id) (.str category) (.str type) x y = .ok n) : n.IsBuilt c := by
  obtain ⟨_, hx, hy, hslot⟩ := build_fields h
  obtain ⟨_, htype⟩ := build_text h
  exact ⟨⟨id, category, n, by rw [htype, hx, hy]; exact h, rfl⟩, hslot⟩

/-- A value is stored in a node with a slot, if it suits that or the node can be
named. -/
theorem setValue_eq_ok : n.setValue v = .ok m ↔
    n.slot.isSome = true ∧ (n.accepts v || n.id.isWritable) = true ∧ m = { n with value := v } := by
  unfold setValue
  cases hslot : n.slot with
  | none => simp
  | some slot =>
      by_cases hline : (n.accepts v || n.id.isWritable) = true
      · simp [hline, eq_comm]
      · simp [hline]

/-- **Why a value cannot be stored**: the node has no slot, or the value does not suit it
and the node cannot be named in the line that says so. -/
theorem setValue_eq_error {fault : Fault} (h : n.setValue v = .error fault) :
    (n.slot = none ∧ fault = .noValueSlot n.id n.category n.type) ∨
      (fault = .unwritable ∧ n.id.isWritable = false) := by
  unfold setValue at h
  split at h
  · rename_i hslot
    cases h
    exact Or.inl ⟨by simpa using hslot, rfl⟩
  · split at h
    · cases h
    · rename_i hline
      cases h
      rw [Bool.or_eq_true, not_or, Bool.not_eq_true, Bool.not_eq_true] at hline
      exact Or.inr ⟨rfl, hline.2⟩

/-- Storing a value in a slot leaves the node as its type gives it. -/
theorem IsBuilt.setValue (hn : n.IsBuilt c) (h : n.setValue v = .ok m) : m.IsBuilt c := by
  obtain ⟨hslot, _, rfl⟩ := setValue_eq_ok.mp h
  obtain ⟨id, category, base, hbuild, heq⟩ := hn.built
  refine ⟨⟨id, category, base, hbuild, ?_⟩, fun hnone => ?_⟩
  · rw [heq]
  · simp [show n.slot = none from hnone] at hslot

/-- **A moved node is the one that would have been built where it is now.** -/
theorem IsBuilt.moveTo (hn : n.IsBuilt c) (h : n.moveTo x y = (m, none)) : m.IsBuilt c := by
  obtain ⟨id, category, base, hbuild, heq⟩ := hn.built
  obtain ⟨k, s, t, raw, hrequire, hof, hlay⟩ := build_eq_ok.mp hbuild
  obtain ⟨_, _, _, _, _, _, hmoved⟩ := ofType_eq_ok hof
  have hbare : ({ n with x, y } : Node).bare = { raw with x, y, value := n.value }.bare := by
    have hraw : base.bare = raw.bare := by simpa [hlay] using bare_layOut raw
    have hn' : ({ n with x, y } : Node).bare = { base.bare with x, y, value := n.value } := by
      rw [heq]
      rfl
    rw [hn', hraw]
    rfl
  have hlaid := layOut_congr hbare h
  rw [layOut_value { raw with x, y } n.value] at hlaid
  cases hnew : ({ raw with x, y } : Node).layOut with
  | mk base' fault =>
      rw [hnew] at hlaid
      cases hlaid
      obtain ⟨inputs, outputs, _, _, hbase'⟩ := layOut_eq_ok.mp hnew
      obtain ⟨ins, outs, _, _, hbase⟩ := layOut_eq_ok.mp hlay
      have htype : base'.type = n.type := by rw [hbase', heq, hbase]
      have hslot : base'.slot = n.slot := by rw [hbase', heq, hbase]
      have hxy : base'.x = x ∧ base'.y = y := by
        rw [hbase']
        exact ⟨rfl, rfl⟩
      refine ⟨⟨id, category, base', ?_, rfl⟩, fun hnone => hn.no_slot (hslot ▸ hnone)⟩
      rw [htype, hxy.1, hxy.2]
      exact build_eq_ok.mpr ⟨k, s, t, _, hrequire, hmoved x y, hnew⟩

end Node

end NodeWeave
