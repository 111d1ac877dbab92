import Mathlib.Algebra.Order.Ring.Abs
import NodeWeave.Proofs.LoadOutcome
import NodeWeave.Proofs.NodeSync

/-!
# Hit testing

A point hits a port when it lies within a distance of 8 of the port's centre.  Centres
are kept with the ports, so they have to follow the node: `UpToDate` says that they do,
and it holds of every node whatever happened to it since it was built
(`History.upToDate`).  Between whole numbers nothing is rounded, and a move never fails.

Ports of one side lie 25 apart, and the two sides lie `width - 20` apart.  Two discs of
radius 8 cannot meet at a distance of more than 16 in one direction, so a point hits at
most one port unless the sides are too near to each other (`Placed.covers_unique`).  Then
it does not matter that `portAt` takes the first port that it finds
(`portAt_unambiguous`).
-/

namespace NodeWeave

/-- A whole number as positions and sizes are given; truth values count as 0 and 1. -/
structure Value.Whole where
  value : Value
  number : Int
  isNumber : value.number? = some (.int number)

namespace Value.Whole

/-- A whole number that is given as such. -/
def ofInt (n : Int) : Whole :=
  ⟨.int n, n, rfl⟩

/-- An operation on whole numbers is exact. -/
theorem onNumbers_eq (onInt : Int → Int → Int) (onReal : Float → Float → Float) (a b : Whole) :
    onNumbers (Number.combine onInt onReal) a.value b.value =
      .ok (.int (onInt a.number b.number)) := by
  simp only [onNumbers, a.isNumber, b.isNumber, Number.combine, ofNumber]

theorem add_eq (a b : Whole) : a.value.add b.value = .ok (.int (a.number + b.number)) := by
  have hadd : a.value.add b.value = onNumbers Number.add? a.value b.value := by
    have hnumber := a.isNumber
    cases h : a.value <;> rw [h] at hnumber <;> first | rfl | cases hnumber
  rw [hadd]
  exact onNumbers_eq _ _ a b

theorem sub_eq (a b : Whole) : a.value.sub b.value = .ok (.int (a.number - b.number)) :=
  onNumbers_eq _ _ a b

theorem mul_eq (a b : Whole) : a.value.mul b.value = .ok (.int (a.number * b.number)) :=
  onNumbers_eq _ _ a b

end Value.Whole

theorem Value.le_int (a b : Int) : (Value.int a).le (.int b) = .ok (decide (a ≤ b)) := by
  simp only [le, le.leNumber, number?, Number.le, Number.compare?]
  rcases Int.lt_trichotomy a b with hlt | heq | hgt
  · simp [Int.compare_eq_lt.mpr hlt, Int.le_of_lt hlt]
  · simp [heq]
  · simp [Int.compare_eq_gt.mpr hgt, Int.not_le.mpr hgt]

namespace Port

/-- The port has its centre at a point. -/
def IsAt (p : Port) (x y : Int) : Prop :=
  p.x = .int x ∧ p.y = .int y

/-- The point lies within a distance of 8 of the centre of the port. -/
def Covers (p : Port) (px py : Int) : Prop :=
  ∃ x y, p.IsAt x y ∧ (px - x) ^ 2 + (py - y) ^ 2 ≤ 8 ^ 2

variable {p : Port} {x y px py : Int}

theorem IsAt.covers_iff (h : p.IsAt x y) :
    p.Covers px py ↔ (px - x) ^ 2 + (py - y) ^ 2 ≤ 8 ^ 2 := by
  constructor
  · rintro ⟨x', y', ⟨hx, hy⟩, hnear⟩
    cases h.1.symm.trans hx
    cases h.2.symm.trans hy
    exact hnear
  · intro hnear
    exact ⟨x, y, h, hnear⟩

/-- A port covers its own centre. -/
theorem IsAt.covers_centre (h : p.IsAt x y) : p.Covers x y :=
  h.covers_iff.mpr (by simp)

/-- A disc lies in the square around it. -/
theorem IsAt.near (h : p.IsAt x y) (hcovers : p.Covers px py) :
    (-8 ≤ px - x ∧ px - x ≤ 8) ∧ (-8 ≤ py - y ∧ py - y ≤ 8) := by
  have hsum := h.covers_iff.mp hcovers
  have hx := sq_nonneg (px - x)
  have hy := sq_nonneg (py - y)
  exact ⟨abs_le_of_sq_le_sq' (by omega) (by omega), abs_le_of_sq_le_sq' (by omega) (by omega)⟩

end Port

namespace Node

open Value (Whole)

variable {n m : Node} {x y width : Whole}

/-! ## Ports follow their node -/

/-- Where the ports of a side lie across. -/
def centreX (x width : Int) : Side → Int
  | .input => x + portInset
  | .output => x + width - portInset

/-- Where the port at a place of a side lies down. -/
def centreY (y : Int) (index : Nat) : Int :=
  y + portTop + index * portSpacing

/-- All ports lie where a node at this position has them. -/
def Placed (n : Node) (x y width : Int) : Prop :=
  ∀ (side : Side) (i : Nat) (p : Port), (n.ports side)[i]? = some p →
    p.IsAt (centreX x width side) (centreY y i)

/-- **The ports lie where the node has them now.** -/
def UpToDate (n : Node) : Prop :=
  ∀ x y width : Whole, n.x = x.value → n.y = y.value → n.width = width.value →
    n.Placed x.number y.number width.number

theorem portX_eq (hx : n.x = x.value) (hwidth : n.width = width.value) (side : Side) :
    n.portX side = .ok (.int (centreX x.number width.number side)) := by
  cases side with
  | input =>
      rw [portX, hx]
      exact x.add_eq (.ofInt portInset)
  | output =>
      simp only [portX, hx, hwidth, x.add_eq, bind, Except.bind]
      exact (Whole.ofInt (x.number + width.number)).sub_eq (.ofInt portInset)

theorem portY_eq (hy : n.y = y.value) (index : Nat) :
    n.portY index = .ok (.int (centreY y.number index)) := by
  have htop : y.value.add (.int portTop) = .ok (.int (y.number + portTop)) :=
    y.add_eq (.ofInt portTop)
  simp only [portY, hy, htop, bind, Except.bind]
  exact (Whole.ofInt (y.number + portTop)).add_eq (.ofInt (index * portSpacing))

/-- **At whole numbers a layout succeeds**, and all ports are placed. -/
theorem layOut_whole (hx : n.x = x.value) (hy : n.y = y.value) (hwidth : n.width = width.value) :
    ∃ inputs outputs, n.layOut = ({ n with inputs, outputs }, none) ∧
      ({ n with inputs, outputs } : Node).Placed x.number y.number width.number := by
  have hside : ∀ {side : Side} (row : Port.Row side), ∃ placed, n.placeAll row = (placed, none) ∧
      ∀ (i : Nat) (p : Port), placed.ports[i]? = some p →
        p.IsAt (centreX x.number width.number side) (centreY y.number i) := by
    intro side row
    have hnone : (n.placeAll row).2 = none :=
      placeAll_eq_none ⟨_, portX_eq hx hwidth side⟩ fun index _ => ⟨_, portY_eq hy index⟩
    have hplaced : n.placeAll row = ((n.placeAll row).1, none) := by rw [← hnone]
    refine ⟨_, hplaced, fun i p hp => ?_⟩
    obtain ⟨old, _, hplace⟩ := getElem?_updateUntil (Port.Row.update_eq_iff.mp hplaced) hp
    rw [Nat.zero_add, portX_eq hx hwidth side, portY_eq hy i] at hplace
    cases hplace
    exact ⟨rfl, rfl⟩
  obtain ⟨inputs, hin, hinputs⟩ := hside n.inputs
  obtain ⟨outputs, hout, houtputs⟩ := hside n.outputs
  refine ⟨inputs, outputs, layOut_eq_ok.mpr ⟨inputs, outputs, hin, hout, rfl⟩, ?_⟩
  intro side
  cases side with
  | input => exact hinputs
  | output => exact houtputs

/-- A layout brings the ports up to date, and a layout that fails is not at whole numbers. -/
theorem upToDate_layOut (n : Node) : n.layOut.1.UpToDate := by
  intro x y width hx hy hwidth
  have hbare := bare_layOut n
  have hx' : n.x = x.value := (congrArg Node.x hbare).symm.trans hx
  have hy' : n.y = y.value := (congrArg Node.y hbare).symm.trans hy
  have hwidth' : n.width = width.value := (congrArg Node.width hbare).symm.trans hwidth
  obtain ⟨inputs, outputs, hlay, hplaced⟩ := layOut_whole hx' hy' hwidth'
  rw [hlay]
  exact hplaced

/-- The centres of the ports of a side. -/
def centres (n : Node) (side : Side) : List (Value × Value) :=
  (n.ports side).map fun p => (p.x, p.y)

/-- What moves neither the node nor its ports keeps the ports up to date. -/
theorem UpToDate.congr (h : n.UpToDate) (hx : m.x = n.x) (hy : m.y = n.y)
    (hwidth : m.width = n.width) (hcentres : m.centres = n.centres) : m.UpToDate := by
  intro x y width hx' hy' hwidth' side i p hp
  have hcentre : (n.centres side)[i]? = some (p.x, p.y) := by
    rw [← hcentres, centres, List.getElem?_map, hp]
    rfl
  rw [centres, List.getElem?_map] at hcentre
  obtain ⟨q, hq, hsame⟩ := Option.map_eq_some_iff.mp hcentre
  obtain ⟨hqx, hqy⟩ := h x y width (hx ▸ hx') (hy ▸ hy') (hwidth ▸ hwidth') side i q hq
  simp only [Prod.mk.injEq] at hsame
  exact ⟨hsame.1.symm.trans hqx, hsame.2.symm.trans hqy⟩

/-- Taking over a changed node type moves no port. -/
theorem centres_sync (n : Node) (t : NodeType) : (n.sync t).1.centres = n.centres := by
  have hside : ∀ defs {side : Side} (row : Port.Row side),
      (syncPorts defs row).1.ports.map (fun p => (p.x, p.y)) =
        row.ports.map fun p => (p.x, p.y) := by
    intro defs side row
    refine map_updateUntil _ (fun i p => ?_) 0 row.ports
    unfold syncPort
    split
    · unfold Port.sync
      dsimp only
      split <;> rfl
    · rfl
  have hin := hside (t.visiblePorts .input) n.inputs
  have hout := hside (t.visiblePorts .output) n.outputs
  funext side
  rcases n.sync_cases t with
    ⟨inputs, e, hinputs, hsync⟩ | ⟨inputs, outputs, e, hinputs, houtputs, hsync⟩
  · rw [hinputs] at hin
    rw [hsync]
    cases side with
    | input => exact hin
    | output => rfl
  · rw [hinputs] at hin
    rw [houtputs] at hout
    rw [hsync]
    cases side with
    | input => exact hin
    | output => exact hout

/-! ## The life of a node -/

/-- **What can happen to a node**: it is built, moved, given a value, selected, and brought
in step with a changed type.  A move and a change of its type may also fail. -/
inductive History : Node → Prop
  | built {c : Catalog} {id : Scalar} {category type x y : Value} {n : Node}
      (hbuild : Node.build c id category type x y = .ok n) : History n
  | moved {n : Node} (h : History n) (x y : Value) : History (n.moveTo x y).1
  | valued {n m : Node} {v : Value} (h : History n) (hset : n.setValue v = .ok m) : History m
  | chosen {n : Node} (h : History n) (selected : Value) : History { n with selected }
  | synced {n : Node} (h : History n) (t : NodeType) : History (n.sync t).1

/-- **The ports of a node are up to date at all times.** -/
theorem History.upToDate (h : n.History) : n.UpToDate := by
  induction h with
  | built hbuild =>
      obtain ⟨_, _, _, m, _, _, hlay⟩ := build_eq_ok.mp hbuild
      have hm := upToDate_layOut m
      rwa [hlay] at hm
  | moved _ x y _ => exact upToDate_layOut _
  | valued _ hset ih =>
      obtain ⟨_, _, rfl⟩ := setValue_eq_ok.mp hset
      exact ih.congr rfl rfl rfl rfl
  | chosen _ selected ih => exact ih.congr rfl rfl rfl rfl
  | @synced n _ t ih =>
      have hkept : (n.sync t).1.x = n.x ∧ (n.sync t).1.y = n.y ∧ (n.sync t).1.width = n.width := by
        rcases n.sync_cases t with ⟨_, _, _, hsync⟩ | ⟨_, _, _, _, _, hsync⟩ <;> rw [hsync] <;>
          exact ⟨rfl, rfl, rfl⟩
      exact ih.congr hkept.1 hkept.2.1 hkept.2.2 (centres_sync n t)

/-- Moves the node from point to point until a move fails. -/
def moveAlong (n : Node) (points : List (Whole × Whole)) : Node × Option Fault :=
  runUntil (fun n p => n.moveTo p.1.value p.2.value) n points

/-- **Moves between whole numbers succeed**, and the ports end up where the last one went. -/
theorem moveAlong_placed (hn : n.History) (hx : n.x = x.value) (hy : n.y = y.value)
    (hwidth : n.width = width.value) (points : List (Whole × Whole)) :
    ∃ m, n.moveAlong points = (m, none) ∧ m.id = n.id ∧ m.kinds = n.kinds ∧
      m.Placed (points.getLastD (x, y)).1.number (points.getLastD (x, y)).2.number width.number := by
  induction points generalizing n x y with
  | nil => exact ⟨n, rfl, rfl, rfl, hn.upToDate x y width hx hy hwidth⟩
  | cons point rest ih =>
      obtain ⟨x', y'⟩ := point
      obtain ⟨inputs, outputs, hmove, _⟩ :=
        layOut_whole (n := { n with x := x'.value, y := y'.value }) rfl rfl hwidth
      have hlived := hn.moved x'.value y'.value
      have hkinds := n.kinds_moveTo x'.value y'.value
      rw [moveTo, hmove] at hlived hkinds
      obtain ⟨m, halong, hid, hkept, hplaced⟩ := ih hlived rfl rfl hwidth
      refine ⟨m, ?_, hid, hkept.trans hkinds, ?_⟩
      · rw [← halong]
        simp only [moveAlong, runUntil, moveTo, hmove]
      · rw [List.getLastD_cons]
        exact hplaced

/-! ## The ports that a point hits -/

/-- **A point hits at most one port** when the two sides are more than 16 apart. -/
theorem Placed.covers_unique {x y width px py : Int} (hn : n.Placed x y width)
    (hfar : 16 < |width - 20|) {side side' : Side} {i i' : Nat} {p p' : Port}
    (hp : (n.ports side)[i]? = some p) (hp' : (n.ports side')[i']? = some p')
    (hcovers : p.Covers px py) (hcovers' : p'.Covers px py) : side = side' ∧ i = i' := by
  obtain ⟨⟨hleft, hright⟩, hup, hdown⟩ := (hn side i p hp).near hcovers
  obtain ⟨⟨hleft', hright'⟩, hup', hdown'⟩ := (hn side' i' p' hp').near hcovers'
  simp only [centreY, portTop, portSpacing] at hup hdown hup' hdown'
  refine ⟨?_, by omega⟩
  rcases lt_abs.mp hfar with hfar | hfar <;> cases side <;> cases side' <;>
    simp only [centreX, portInset] at hleft hright hleft' hright' <;> first | rfl | omega

theorem hits_eq {p : Port} {cx cy : Int} (hp : p.IsAt cx cy) (px py : Whole) :
    hits p px.value py.value =
      .ok (decide ((px.number - cx) ^ 2 + (py.number - cy) ^ 2 ≤ 8 ^ 2)) := by
  have hdx : px.value.sub p.x = .ok (.int (px.number - cx)) := hp.1 ▸ px.sub_eq (.ofInt cx)
  have hdy : py.value.sub p.y = .ok (.int (py.number - cy)) := hp.2 ▸ py.sub_eq (.ofInt cy)
  have hsquare : ∀ d : Int, (Value.int d).mul (.int d) = .ok (.int (d * d)) := fun d =>
    (Whole.ofInt d).mul_eq (.ofInt d)
  have hsum : ∀ a b : Int, (Value.int a).add (.int b) = .ok (.int (a + b)) := fun a b =>
    (Whole.ofInt a).add_eq (.ofInt b)
  simp only [hits, hdx, hdy, hsquare, hsum, bind, Except.bind, Value.le_int, pow_two, portRadius]

/-- The search through a list of ports ends at one that the point hits, or there is none. -/
theorem firstHit_cases {ports : List Port} (hports : ∀ p ∈ ports, ∃ cx cy, p.IsAt cx cy)
    (px py : Whole) :
    (∃ p ∈ ports, firstHit px.value py.value ports = .ok (some p) ∧
        p.Covers px.number py.number) ∨
      firstHit px.value py.value ports = .ok none ∧
        ∀ p ∈ ports, ¬ p.Covers px.number py.number := by
  induction ports with
  | nil => exact Or.inr ⟨rfl, fun p hp => nomatch hp⟩
  | cons p rest ih =>
      obtain ⟨cx, cy, hp⟩ := hports p List.mem_cons_self
      have hfirst : firstHit px.value py.value (p :: rest) =
          if (px.number - cx) ^ 2 + (py.number - cy) ^ 2 ≤ 8 ^ 2 then .ok (some p)
          else firstHit px.value py.value rest := by
        simp only [firstHit, hits_eq hp, bind, Except.bind, decide_eq_true_eq]
        rfl
      rw [hfirst]
      by_cases hcovers : p.Covers px.number py.number
      · rw [if_pos (hp.covers_iff.mp hcovers)]
        exact Or.inl ⟨p, List.mem_cons_self, rfl, hcovers⟩
      · rw [if_neg fun hnear => hcovers (hp.covers_iff.mpr hnear)]
        rcases ih (fun q hq => hports q (List.mem_cons_of_mem p hq)) with
          ⟨q, hq, hfound, hhit⟩ | ⟨hnone, hmiss⟩
        · exact Or.inl ⟨q, List.mem_cons_of_mem p hq, hfound, hhit⟩
        · refine Or.inr ⟨hnone, fun q hq => ?_⟩
          rcases List.mem_cons.mp hq with rfl | hq
          · exact hcovers
          · exact hmiss q hq

/-- **Hit testing ends at a port that the point hits, or there is none.**  The port is named
by the side and the place that it keeps. -/
theorem portAt_cases {x y width : Int} (hn : n.Placed x y width) (px py : Whole) :
    (∃ (side : Side) (i : Nat) (p : Port), n.portAt px.value py.value = .ok (some (n.ref side i)) ∧
        (n.ports side)[i]? = some p ∧ p.Covers px.number py.number) ∨
      n.portAt px.value py.value = .ok none ∧
        ∀ side, ∀ p ∈ n.ports side, ¬ p.Covers px.number py.number := by
  have hmem : ∀ {p : Port}, p ∈ n.ports .input ++ n.ports .output ↔ ∃ side, p ∈ n.ports side := by
    intro p
    rw [List.mem_append]
    constructor
    · rintro (hp | hp)
      · exact ⟨.input, hp⟩
      · exact ⟨.output, hp⟩
    · rintro ⟨side, hp⟩
      cases side with
      | input => exact Or.inl hp
      | output => exact Or.inr hp
  have hports : ∀ p ∈ n.ports .input ++ n.ports .output, ∃ cx cy, p.IsAt cx cy := by
    intro p hp
    obtain ⟨side, hp⟩ := hmem.mp hp
    obtain ⟨i, hi⟩ := List.mem_iff_getElem?.mp hp
    exact ⟨_, _, hn side i p hi⟩
  rcases firstHit_cases hports px py with ⟨p, hp, hfound, hhit⟩ | ⟨hnone, hmiss⟩
  · obtain ⟨side, hp⟩ := hmem.mp hp
    obtain ⟨rfl, hplace⟩ := getElem?_of_mem_ports hp
    refine Or.inl ⟨p.side, p.index, p, ?_, hplace, hhit⟩
    simp [portAt, hfound, bind, Except.bind, pure, Except.pure]
  · refine Or.inr ⟨?_, fun side p hp => hmiss p (hmem.mpr ⟨side, hp⟩)⟩
    simp [portAt, hnone, bind, Except.bind, pure, Except.pure]

/-- **The answer of hit testing** is the port that the point hits. -/
theorem Placed.portAt_iff {x y width : Int} (hn : n.Placed x y width) (hfar : 16 < |width - 20|)
    (px py : Whole) :
    (∀ r, n.portAt px.value py.value = .ok (some r) ↔
        ∃ (side : Side) (i : Nat) (p : Port), (n.ports side)[i]? = some p ∧
          p.Covers px.number py.number ∧ r = n.ref side i) ∧
      (n.portAt px.value py.value = .ok none ↔
        ∀ side, ∀ p ∈ n.ports side, ¬ p.Covers px.number py.number) := by
  rcases portAt_cases hn px py with ⟨side, i, p, hfound, hp, hcovers⟩ | ⟨hnone, hmiss⟩
  · rw [hfound]
    refine ⟨fun r => ⟨?_, ?_⟩, (nomatch ·), ?_⟩
    · intro hr
      cases hr
      exact ⟨side, i, p, hp, hcovers, rfl⟩
    · rintro ⟨side', i', p', hp', hcovers', rfl⟩
      obtain ⟨rfl, rfl⟩ := hn.covers_unique hfar hp hp' hcovers hcovers'
      rfl
    · intro hmiss
      exact absurd hcovers (hmiss side p (List.mem_of_getElem? hp))
  · rw [hnone]
    refine ⟨fun r => ⟨(nomatch ·), ?_⟩, fun _ => hmiss, fun _ => rfl⟩
    rintro ⟨side, i, p, hp, hcovers, _⟩
    exact absurd hcovers (hmiss side p (List.mem_of_getElem? hp))

/-- **Hit testing is unambiguous.**  A node at whole numbers whose sides are not too near to
each other can be moved from point to point, and its ports come along.  Then a point hits at
most one of them, and hit testing finds that one, or nothing if there is none.  So the
centre of each port leads to the port itself, which still has its side and its place. -/
theorem portAt_unambiguous (hn : n.History) (hx : n.x = x.value) (hy : n.y = y.value)
    (hwidth : n.width = width.value) (hfar : 16 < |width.number - 20|)
    (points : List (Whole × Whole)) :
    ∃ m, n.moveAlong points = (m, none) ∧ m.kinds = n.kinds ∧
      m.Placed (points.getLastD (x, y)).1.number (points.getLastD (x, y)).2.number width.number ∧
      (∀ px py : Whole,
        (∀ (side side' : Side) (i i' : Nat) (p p' : Port),
          (m.ports side)[i]? = some p → (m.ports side')[i']? = some p' →
          p.Covers px.number py.number → p'.Covers px.number py.number → side = side' ∧ i = i') ∧
        (∀ r, m.portAt px.value py.value = .ok (some r) ↔
          ∃ (side : Side) (i : Nat) (p : Port), (m.ports side)[i]? = some p ∧
            p.Covers px.number py.number ∧ r = n.ref side i) ∧
        (m.portAt px.value py.value = .ok none ↔
          ∀ side, ∀ p ∈ m.ports side, ¬ p.Covers px.number py.number)) ∧
      ∀ (side : Side) (i : Nat) (p : Port), (m.ports side)[i]? = some p →
        p.side = side ∧ p.index = i ∧
          ∃ cx cy, p.IsAt cx cy ∧ m.portAt (.int cx) (.int cy) = .ok (some (n.ref side i)) := by
  obtain ⟨m, halong, hid, hkinds, hplaced⟩ := moveAlong_placed hn hx hy hwidth points
  have href : m.ref = n.ref := by
    funext side i
    rw [ref, ref, hid]
  refine ⟨m, halong, hkinds, hplaced, fun px py => ?_, fun side i p hp => ?_⟩
  · rw [← href]
    exact ⟨fun _ _ _ _ _ _ => hplaced.covers_unique hfar, hplaced.portAt_iff hfar px py⟩
  · have hcentre := hplaced side i p hp
    obtain ⟨hside, hindex⟩ := seat_of_getElem? hp
    refine ⟨hside, hindex, _, _, hcentre, ?_⟩
    rw [← href]
    exact ((hplaced.portAt_iff hfar (.ofInt _) (.ofInt _)).1 _).mpr
      ⟨side, i, p, hp, hcentre.covers_centre, rfl⟩

/-- A catalog with sums, which are 120 wide. -/
def wideCatalog : Catalog :=
  let port : Value := .obj [("type", .str "number")]
  (Catalog.merge {} (.obj [("nodeCategories", .obj [("math", .obj [("nodes", .obj [("sum", .obj [
    ("inputs", .list [port, port]), ("outputs", .list [port]),
    ("style", .obj [("minWidth", .int 120)])])])])])])).1

/-- A sum that was moved twice is hit at its second input and at its output, and not in the
middle. -/
theorem portAt_unambiguous_sum :
    ∃ n m, Node.build wideCatalog (.int 3) (.str "math") (.str "sum") (.int 0) (.bool true) = .ok n ∧
      n.moveAlong [(.ofInt (-7), .ofInt 9), (.ofInt 100, .ofInt 50)] = (m, none) ∧
      m.portAt (.int 112) (.int 117) = .ok (some ⟨.int 3, .input, 1⟩) ∧
      m.portAt (.int 205) (.int 92) = .ok (some ⟨.int 3, .output, 0⟩) ∧
      m.portAt (.int 150) (.int 100) = .ok none := by
  obtain ⟨n, hbuild, hfacts⟩ := map_eq_ok (eq_ok_of_toOption
    (show ((Node.build wideCatalog (.int 3) (.str "math") (.str "sum") (.int 0) (.bool true)).map
        fun n => (n.width.number?, n.kinds .input, n.kinds .output)).toOption =
      some (some (.int 120), ["number", "number"], ["number"]) by decide +kernel))
  simp only [Prod.mk.injEq] at hfacts
  obtain ⟨hwidth, hinputs, houtputs⟩ := hfacts
  obtain ⟨hid, hx, hy, _⟩ := build_fields hbuild
  let width : Whole := ⟨n.width, 120, hwidth⟩
  have hwide : n.width = width.value := rfl
  obtain ⟨m, halong, hkinds, hplaced, hpoints, _⟩ :=
    portAt_unambiguous (x := .ofInt 0) (y := ⟨.bool true, 1, rfl⟩) (.built hbuild) hx hy hwide
      (show (16 : Int) < |120 - 20| by decide) [(.ofInt (-7), .ofInt 9), (.ofInt 100, .ofInt 50)]
  have hplaced : m.Placed 100 50 120 := hplaced
  rw [← hkinds] at hinputs houtputs
  have hport (side : Side) (i : Nat) (kind : String) (hkind : (m.kinds side)[i]? = some kind) :
      ∃ p, (m.ports side)[i]? = some p := by
    rw [kinds, List.getElem?_map] at hkind
    obtain ⟨p, hp, _⟩ := Option.map_eq_some_iff.mp hkind
    exact ⟨p, hp⟩
  obtain ⟨p, hp⟩ := hport .input 1 "number" (by rw [hinputs]; rfl)
  obtain ⟨q, hq⟩ := hport .output 0 "number" (by rw [houtputs]; rfl)
  have hfound (px py : Int) (side : Side) (i : Nat) (p : Port) (hp : (m.ports side)[i]? = some p)
      (hcovers : p.Covers px py) : m.portAt (.int px) (.int py) = .ok (some ⟨.int 3, side, i⟩) :=
    ((hpoints (.ofInt px) (.ofInt py)).2.1 _).mpr ⟨side, i, p, hp, hcovers, by rw [ref, hid]⟩
  refine ⟨n, m, hbuild, halong, hfound 112 117 .input 1 p hp ?_, hfound 205 92 .output 0 q hq ?_, ?_⟩
  · exact (hplaced .input 1 p hp).covers_iff.mpr (by decide)
  · exact (hplaced .output 0 q hq).covers_iff.mpr (by decide)
  · refine (hpoints (.ofInt 150) (.ofInt 100)).2.2.mpr fun side p hp hcovers => ?_
    obtain ⟨i, hi⟩ := List.mem_iff_getElem?.mp hp
    obtain ⟨⟨hleft, hright⟩, _⟩ := (hplaced side i p hi).near hcovers
    cases side with
    | input => exact absurd hright (by decide)
    | output => exact absurd hleft (by decide)

end Node

end NodeWeave
