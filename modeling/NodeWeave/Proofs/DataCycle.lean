import NodeWeave.Catalog.Merge
import NodeWeave.Nesting
import NodeWeave.Program.Expression
import NodeWeave.Proofs.Lookup

/-!
# Data cycles

The expression of an output is made by following data links backwards.  `Feeds`
is one step of this, and a `Walk` is a row of steps with the outputs that it
passed.  A walk is `Stuck` when its last node lies on the path already or when
the walk is as long as the room allows.

The search reports a data cycle only if some walk is stuck, and gives a text only if
none is (`expressionIn_settles`): the recursion goes over the room, and in each round
the stuck walks from an output are those from the outputs that feed it, with its node
put on the path (`stuck_succ`).  Nodes that are met twice on different ways are no
trouble, since the path holds only what lies between the start and the output at hand.

A third end is that the bounds of the text stop the search.  They do not as long as
they hold every walk on which no node is met twice (`Spans`).
-/

namespace NodeWeave

/-- Does the fault report a data cycle? -/
def Fault.isDataCycle : Fault → Bool
  | dataCycle _ => true
  | dataTooDeep .. => true
  | _ => false

/-- Every port has a text for a name, or none. -/
def Graph.TextNames (g : Graph) : Prop :=
  ∀ n ∈ g.nodes, ∀ p ∈ n.ports .input ++ n.ports .output, (p.name.isNull || p.name.isStr) = true

instance (g : Graph) : Decidable g.TextNames :=
  inferInstanceAs (Decidable (∀ n ∈ g.nodes, ∀ p ∈ n.ports .input ++ n.ports .output, _))

namespace Program

variable {c : Catalog} {g : Graph} {limit : Value} {n m : Node} {p q : Port}

/-- **One step back along the data.**  The first output has a template, and some
link brings the second output to a data input of its node. -/
structure Feeds (c : Catalog) (g : Graph) (s t : Node × Port) : Prop where
  template : ∃ type output, typeOf c s.1 = some type ∧
    type.findOutput s.2.name (.str s.2.kind) = some output ∧ output.code.isSome = true
  link : ∃ l ∈ g.links, l.target.node.same s.1.id = true ∧
    (∃ input, g.port? l.target = some input ∧ input.isExec = false) ∧
    g.node? l.source.node = some t.1 ∧ g.port? l.source = some t.2

/-- A walk back along the data, with the outputs that it passed before its end. -/
inductive Walk (c : Catalog) (g : Graph) :
    Node × Port → List (Node × Port) → Node × Port → Prop
  | nil (s : Node × Port) : Walk c g s [] s
  | cons {s t finish : Node × Port} {passed : List (Node × Port)}
      (hfeeds : Feeds c g s t) (tail : Walk c g t passed finish) :
      Walk c g s (s :: passed) finish

/-- Some walk comes back to its own nodes or to the path that led to its start,
or is as long as there is room. -/
def Stuck (c : Catalog) (g : Graph) (room : Nat) (path : List Scalar) (s : Node × Port) : Prop :=
  ∃ passed finish, Walk c g s passed finish ∧
    (onPath (path ++ passed.map fun t => t.1.id) finish.1.id = true ∨ room ≤ passed.length)

theorem stuck_zero (path : List Scalar) (s : Node × Port) : Stuck c g 0 path s :=
  ⟨[], s, .nil s, Or.inr (Nat.zero_le _)⟩

/-- **One round of the search** in terms of walks. -/
theorem stuck_succ {room : Nat} {path : List Scalar} {s : Node × Port} :
    Stuck c g (room + 1) path s ↔ onPath path s.1.id = true ∨
      ∃ t, Feeds c g s t ∧ Stuck c g room (path ++ [s.1.id]) t := by
  constructor
  · rintro ⟨passed, finish, hwalk, hend⟩
    cases hwalk with
    | nil => exact Or.inl (by simpa using hend)
    | @cons _ t _ rest hfeeds tail =>
        refine Or.inr ⟨t, hfeeds, rest, finish, tail, ?_⟩
        simpa using hend
  · rintro (hpath | ⟨t, hfeeds, passed, finish, hwalk, hend⟩)
    · exact ⟨[], s, .nil s, Or.inl (by simpa using hpath)⟩
    · refine ⟨s :: passed, finish, .cons hfeeds hwalk, ?_⟩
      simpa using hend

/-! ## Room for walks -/

/-- Is there room for a node that so many others led to?  Each of them takes two steps,
and the value of the node as many as it is high. -/
structure HasRoom (b : Bounds) (n : Node) (passed : Nat) : Prop where
  digits : b.digits = true →
    n.id.isWritable = true ∧ (n.slot.isSome = true → n.value.isWritable = true)
  depth : ∀ depth, b.depth = some depth →
    2 * passed + (if n.slot.isSome then n.value.height else 0) ≤ depth

/-- No output of the walk belongs to a node on the path or to one that it passed before. -/
def Fresh (path : List Scalar) : List (Node × Port) → Prop
  | [] => True
  | t :: rest => onPath path t.1.id = false ∧ Fresh (path ++ [t.1.id]) rest

/-- **The bounds hold every walk** that meets no node twice and is not longer than the
room, and what is said if such a walk ends in a cycle or at the limit. -/
structure Spans (b : Bounds) (c : Catalog) (g : Graph) (limit : Value) (room : Nat)
    (path : List Scalar) (s : Node × Port) : Prop where
  names : b.digits = true → limit.isWritable = true ∧ ∀ id ∈ path, id.isWritable = true
  walks : ∀ passed finish, Walk c g s passed finish → passed.length ≤ room → Fresh path passed →
    HasRoom b finish.1 passed.length

theorem spans_free (room : Nat) (path : List Scalar) (s : Node × Port) :
    Spans .free c g limit room path s :=
  ⟨nofun, fun _ _ _ _ _ => ⟨nofun, nofun⟩⟩

theorem Walk.finish_mem {s finish : Node × Port} {passed : List (Node × Port)}
    (hwalk : Walk c g s passed finish) : finish.1 ∈ s.1 :: g.nodes := by
  induction hwalk with
  | nil s => exact List.mem_cons_self
  | cons hfeeds _ ih =>
      obtain ⟨_, _, _, _, hnode, _⟩ := hfeeds.link
      rcases List.mem_cons.mp ih with heq | hmem
      · exact List.mem_cons_of_mem _ (heq ▸ List.mem_of_find?_eq_some hnode)
      · exact List.mem_cons_of_mem _ hmem

/-- **A low limit keeps every walk within the bounds:** two steps for each node that it
allows, and room for the highest value. -/
theorem spans_of_le {b : Bounds} (d : Int) {s : Node × Port} (height : Nat)
    (hdigits : Number.isWritable d = true ∧ ∀ n ∈ s.1 :: g.nodes,
      n.id.isWritable = true ∧ (n.slot.isSome = true → n.value.isWritable = true))
    (hheight : ∀ n ∈ s.1 :: g.nodes, (if n.slot.isSome then n.value.height else 0) ≤ height)
    (hdepth : ∀ depth, b.depth = some depth → 2 * d.toNat + height ≤ depth) :
    Spans b c g (.int d) d.toNat [] s := by
  refine ⟨fun _ => ⟨hdigits.1, by simp⟩, fun passed finish hwalk hlength _ => ?_⟩
  refine ⟨fun _ => hdigits.2 _ hwalk.finish_mem, fun depth hb => ?_⟩
  have hvalue := hheight _ hwalk.finish_mem
  have hle := hdepth depth hb
  omega

/-- The start of the walks has room for its own. -/
theorem Spans.hasRoom {b : Bounds} {room : Nat} {path : List Scalar} {s : Node × Port}
    (hspans : Spans b c g limit room path s) : HasRoom b s.1 0 :=
  hspans.walks [] s (.nil s) (Nat.zero_le _) trivial

/-- One step back takes two steps down. -/
theorem Spans.step {b b' : Bounds} {room : Nat} {path : List Scalar} {s t : Node × Port}
    (hspans : Spans b c g limit (room + 1) path s) (hpath : onPath path s.1.id = false)
    (hfeeds : Feeds c g s t) (hbelow : b.below 2 = .ok b') :
    Spans b' c g limit room (path ++ [s.1.id]) t := by
  obtain ⟨hdigits, hdepth⟩ := Bounds.below_eq_ok hbelow
  constructor
  · intro hb
    rw [hdigits] at hb
    refine ⟨(hspans.names hb).1, fun id hid => ?_⟩
    rcases List.mem_append.mp hid with hid | hid
    · exact (hspans.names hb).2 id hid
    · rw [List.mem_singleton.mp hid]
      exact (hspans.hasRoom.digits hb).1
  · intro passed finish hwalk hlength hfresh
    have hroom := hspans.walks (s :: passed) finish (.cons hfeeds hwalk) (by simpa using hlength)
      ⟨hpath, hfresh⟩
    refine ⟨fun hb => hroom.digits (hdigits ▸ hb), fun depth hb => ?_⟩
    have hle := hroom.depth (depth + 2) (hdepth depth hb)
    rw [List.length_cons] at hle
    omega

/-- There is room for the two steps to an output that feeds another one. -/
theorem Spans.not_of_below {b : Bounds} {room : Nat} {path : List Scalar} {s t : Node × Port}
    {e : Fault} (hpath : onPath path s.1.id = false) (hfeeds : Feeds c g s t)
    (hbelow : b.below 2 = .error e) : ¬ Spans b c g limit (room + 1) path s := by
  intro hspans
  have hroom := hspans.walks [s] t (.cons hfeeds (.nil t)) (Nat.le_add_left 1 room)
    ⟨hpath, trivial⟩
  obtain ⟨b', hb', _⟩ := Bounds.below_of_le b 2 fun depth hb => by
    have hle := hroom.depth depth hb
    rw [List.length_singleton] at hle
    omega
  rw [hb'] at hbelow
  cases hbelow

/-- **How a search may end:** with a text if no walk is stuck, with a data cycle if one
is, or at the bounds, if they do not hold all walks. -/
inductive Settles (b : Bounds) (stuck spans : Prop) : Except Fault (List Char) → Prop
  | text (text : List Char) (hfree : ¬ stuck) : Settles b stuck spans (.ok text)
  | cycle {fault : Fault} (hcycle : fault.isDataCycle = true) (hstuck : stuck) :
      Settles b stuck spans (.error fault)
  | bound {fault : Fault} (hcauses : b.Causes fault) (hnot : ¬ spans) :
      Settles b stuck spans (.error fault)

theorem Settles.imp {b : Bounds} {stuck stuck' spans spans' : Prop}
    {result : Except Fault (List Char)} (h : Settles b stuck spans result) (hstuck : stuck ↔ stuck')
    (hspans : spans' → spans) : Settles b stuck' spans' result := by
  cases h with
  | text text hfree => exact .text text fun h => hfree (hstuck.mpr h)
  | cycle hcycle h => exact .cycle hcycle (hstuck.mp h)
  | bound hcauses hnot => exact .bound hcauses fun h => hnot (hspans h)

theorem guard_bind_eq_some {α : Type} {b : Bool} {rest : Unit → Option α} {a : α} :
    (guard b >>= rest : Option α) = some a ↔ b = true ∧ rest () = some a := by
  cases b with
  | false => exact ⟨fun h => (nomatch h), fun h => (nomatch h.1)⟩
  | true => exact ⟨fun h => ⟨rfl, h⟩, fun h => h.2⟩

theorem feed?_eq_some {l : Link} {input : Port} {t : Node × Port} :
    feed? g l = some (input, t) ↔ g.port? l.target = some input ∧ input.isExec = false ∧
      g.node? l.source.node = some t.1 ∧ g.port? l.source = some t.2 := by
  obtain ⟨m, q⟩ := t
  constructor
  · intro hfeed
    obtain ⟨found, htarget, hrest⟩ := Option.bind_eq_some_iff.mp hfeed
    obtain ⟨hexec, hrest⟩ := guard_bind_eq_some.mp hrest
    obtain ⟨producer, hnode, hrest⟩ := Option.bind_eq_some_iff.mp hrest
    obtain ⟨output, hsource, heq⟩ := Option.bind_eq_some_iff.mp hrest
    cases heq
    exact ⟨htarget, by simpa using hexec, hnode, hsource⟩
  · rintro ⟨htarget, hexec, hnode, hsource⟩
    refine Option.bind_eq_some_iff.mpr ⟨input, htarget, guard_bind_eq_some.mpr ⟨by simp [hexec], ?_⟩⟩
    simp [hnode, hsource]

theorem feed?_eq_none {l : Link} : feed? g l = none ↔
    ∀ input, g.port? l.target = some input → input.isExec = false →
      ∀ t : Node × Port, g.node? l.source.node = some t.1 → g.port? l.source ≠ some t.2 := by
  rw [Option.eq_none_iff_forall_ne_some]
  constructor
  · intro hnone input htarget hexec t hnode hsource
    exact hnone (input, t) (feed?_eq_some.mpr ⟨htarget, hexec, hnode, hsource⟩)
  · rintro hno ⟨input, t⟩ hfeed
    obtain ⟨htarget, hexec, hnode, hsource⟩ := feed?_eq_some.mp hfeed
    exact hno input htarget hexec t hnode hsource

/-- The templates of outputs and of statements are found in the same way: the type
gives a port, and the port a text. -/
theorem template_isSome {type? : Option NodeType} {port? : NodeType → Option PortDef} :
    (do let t ← type?; let d ← port? t; let code ← d.code; return code.toList :
      Option (List Char)).isSome = true ↔ ∃ type port, type? = some type ∧
        port? type = some port ∧ port.code.isSome = true := by
  constructor
  · intro hsome
    obtain ⟨text, htext⟩ := Option.isSome_iff_exists.mp hsome
    obtain ⟨type, htype, htext⟩ := Option.bind_eq_some_iff.mp htext
    obtain ⟨port, hport, htext⟩ := Option.bind_eq_some_iff.mp htext
    obtain ⟨code, hcode, _⟩ := Option.bind_eq_some_iff.mp htext
    exact ⟨type, port, htype, hport, by rw [hcode]; rfl⟩
  · rintro ⟨type, port, rfl, hport, hcode⟩
    obtain ⟨code, hcode⟩ := Option.isSome_iff_exists.mp hcode
    simp [hport, hcode]

/-- A step back in terms of what the search looks up. -/
theorem feeds_iff {t : Node × Port} : Feeds c g (n, p) t ↔
    (outputTemplate? c n p).isSome = true ∧
      ∃ l ∈ g.linksInto n.id, ∃ input, feed? g l = some (input, t) := by
  constructor
  · rintro ⟨htemplate, l, hl, hnode, ⟨input, htarget, hexec⟩, hsource, hport⟩
    refine ⟨template_isSome.mpr htemplate, l, List.mem_filter.mpr ⟨hl, hnode⟩, input, ?_⟩
    exact feed?_eq_some.mpr ⟨htarget, hexec, hsource, hport⟩
  · rintro ⟨htemplate, l, hl, input, hfeed⟩
    obtain ⟨hlink, hnode⟩ := List.mem_filter.mp hl
    obtain ⟨htarget, hexec, hsource, hport⟩ := feed?_eq_some.mp hfeed
    exact ⟨template_isSome.mp htemplate, l, hlink, hnode, ⟨input, htarget, hexec⟩,
      hsource, hport⟩

/-- Filling in a text under the name of a port of the graph never fails. -/
theorem applyNamed_ok (hnames : g.TextNames) {r : PortRef} (hport : g.port? r = some p)
    (put : List Char → List Char → List Char → List Char) (code text : List Char) :
    ∃ filled, applyNamed put p.name code text = .ok filled := by
  obtain ⟨m, hnode, hm⟩ := Option.bind_eq_some_iff.mp hport
  have hmem : p ∈ m.ports .input ++ m.ports .output := by
    unfold Node.port? at hm
    split at hm
    · have hside := List.mem_of_getElem? hm
      cases hr : r.side <;> rw [hr] at hside
      · exact List.mem_append_left _ hside
      · exact List.mem_append_right _ hside
    · cases hm
  have hname := hnames m (List.mem_of_find?_eq_some hnode) p hmem
  unfold applyNamed
  split
  · exact ⟨_, rfl⟩
  · exact ⟨_, rfl⟩
  · cases hp : p.name <;> simp_all [Value.isNull, Value.isStr]

theorem applyLink_of_feed {express : Node → Port → Except Fault (List Char)} {l : Link}
    {input : Port} {t : Node × Port} (hfeed : feed? g l = some (input, t)) (code : List Char) :
    applyLink g express code l =
      express t.1 t.2 >>= applyNamed Template.substitute input.name code := by
  simp only [applyLink, hfeed]

/-- The links into a node are followed one after the other; the first one that
leads into a cycle or out of the bounds ends the search. -/
theorem foldlM_applyLink_settles {b : Bounds} (hnames : g.TextNames)
    (express : Node → Port → Except Fault (List Char)) {stuck : Node × Port → Prop} {spans : Prop}
    (links : List Link) (code : List Char)
    (hexpress : ∀ l ∈ links, ∀ input t, feed? g l = some (input, t) →
      Settles b (stuck t) spans (express t.1 t.2)) :
    Settles b (∃ t, (∃ l ∈ links, ∃ input, feed? g l = some (input, t)) ∧ stuck t) spans
      (links.foldlM (applyLink g express) code) := by
  induction links generalizing code with
  | nil => exact .text code (by simp)
  | cons l rest ih =>
      have hrest := fun code => ih code fun l hl => hexpress l (List.mem_cons_of_mem _ hl)
      rw [List.foldlM_cons]
      cases hfeed : feed? g l with
      | none =>
          have happly : applyLink g express code l = .ok code := by simp [applyLink, hfeed]
          rw [happly]
          exact (hrest code).imp (by simp [hfeed]) id
      | some found =>
          obtain ⟨input, t⟩ := found
          rw [applyLink_of_feed hfeed]
          have hfirst := hexpress l List.mem_cons_self input t hfeed
          generalize express t.1 t.2 = first at hfirst
          cases hfirst with
          | cycle hcycle hstuck =>
              exact .cycle hcycle ⟨t, ⟨l, List.mem_cons_self, input, hfeed⟩, hstuck⟩
          | bound hcauses hnot => exact .bound hcauses hnot
          | text text hfree =>
              obtain ⟨filled, hfilled⟩ := applyNamed_ok hnames (feed?_eq_some.mp hfeed).1
                Template.substitute code text
              simp only [bind, Except.bind, hfilled]
              refine (hrest filled).imp ⟨?_, ?_⟩ id
              · rintro ⟨u, ⟨k, hk, hfed⟩, hstuck⟩
                exact ⟨u, ⟨k, List.mem_cons_of_mem _ hk, hfed⟩, hstuck⟩
              · -- the head feeds an output that is not stuck
                rintro ⟨u, ⟨k, hk, found, hfed⟩, hstuck⟩
                rcases List.mem_cons.mp hk with rfl | hk
                · rw [hfeed] at hfed
                  cases hfed
                  exact absurd hstuck hfree
                · exact ⟨u, ⟨k, hk, found, hfed⟩, hstuck⟩

/-- A fault that names nodes is the one it stands for, unless an id is too long. -/
theorem settles_naming {b : Bounds} {stuck spans : Prop} {names : List Scalar} {fault : Fault}
    (hcycle : fault.isDataCycle = true) (hstuck : stuck)
    (hnames : spans → b.digits = true → ∀ id ∈ names, id.isWritable = true) :
    Settles b stuck spans (.error (b.naming names fault)) := by
  unfold Bounds.naming
  split
  · exact .cycle hcycle hstuck
  · rename_i hnot
    obtain ⟨id, hid, hlong⟩ : ∃ id ∈ names, b.writes id = false := by simpa using hnot
    simp only [Bounds.writes, Bool.or_eq_false_iff, Bool.not_eq_false'] at hlong
    refine .bound (Or.inr ⟨rfl, hlong.1⟩) fun hspans => ?_
    rw [hnames hspans hlong.1 id hid] at hlong
    cases hlong.2

theorem settles_cycleFault {b : Bounds} {room : Nat} {path : List Scalar} {s : Node × Port}
    (hpath : onPath path s.1.id = true) :
    Settles b (Stuck c g room path s) (Spans b c g limit room path s)
      (.error (cycleFault b path s.1.id)) := by
  refine settles_naming rfl ⟨[], s, .nil s, Or.inl (by simpa using hpath)⟩ fun hspans hb id hid => ?_
  rcases List.mem_append.mp hid with hid | hid
  · exact (hspans.names hb).2 id ((List.dropWhile_sublist _).subset hid)
  · rw [List.mem_singleton.mp hid]
    exact (hspans.hasRoom.digits hb).1

theorem settles_limitFault {b : Bounds} {path : List Scalar} {s : Node × Port} {d : Int} :
    Settles b (Stuck c g 0 path s) (Spans b c g (.int d) 0 path s)
      (.error (limitFault b (.int d) (path ++ [s.1.id]))) := by
  unfold limitFault
  rw [show (Value.int d).number? = some (.int d) from rfl]
  dsimp only
  cases hfault : b.fault? (.int d) with
  | some e =>
      have hcauses := Bounds.causes_of_fault? _ hfault
      refine .bound hcauses fun hspans => ?_
      have hnone : b.fault? (.int d) = none :=
        (b.fault?_eq_none_iff _).mpr ⟨fun hb => (hspans.names hb).1, fun _ _ => Nat.zero_le _⟩
      rw [hnone] at hfault
      cases hfault
  | none =>
      refine settles_naming rfl (stuck_zero path s) fun hspans hb id hid => ?_
      rcases List.mem_append.mp hid with hid | hid
      · exact (hspans.names hb).2 id hid
      · rw [List.mem_singleton.mp hid]
        exact (hspans.hasRoom.digits hb).1

theorem fillValue_eq_error {b : Bounds} {code : List Char} {e : Fault}
    (h : fillValue b n code = .error e) : b.Causes e ∧ ¬ HasRoom b n 0 := by
  unfold fillValue at h
  split at h
  · rename_i hslot
    rcases bind_eq_error h with hcheck | ⟨_, _, hpure⟩
    · rw [Bounds.check_eq_error] at hcheck
      refine ⟨Bounds.causes_of_fault? _ hcheck, fun hroom => ?_⟩
      have hnone := (b.fault?_eq_none_iff n.value).mpr ⟨fun hb => (hroom.digits hb).2 hslot,
        fun depth hb => by
          have hle := hroom.depth depth hb
          rw [if_pos hslot] at hle
          omega⟩
      rw [hnone] at hcheck
      cases hcheck
    · cases hpure
  · cases h

theorem fillId_eq_error {b : Bounds} {code : List Char} {e : Fault}
    (h : fillId b n code = .error e) : b.Causes e ∧ ¬ HasRoom b n 0 := by
  rcases bind_eq_error h with hcheck | ⟨_, _, hpure⟩
  · obtain ⟨hcauses, hlong⟩ := Bounds.checkScalar_eq_error hcheck
    refine ⟨hcauses, fun hroom => ?_⟩
    simp only [Bounds.writes, Bool.or_eq_false_iff, Bool.not_eq_false'] at hlong
    rw [(hroom.digits hlong.1).1] at hlong
    cases hlong.2
  · cases hpure

/-- What feeds an output is looked up two steps further down. -/
theorem settles_under {b : Bounds} {room : Nat} {path : List Scalar} {s t : Node × Port}
    {write : Bounds → Except Fault (List Char)} (hpath : onPath path s.1.id = false)
    (hfeeds : Feeds c g s t)
    (hwrite : ∀ b', Settles b' (Stuck c g room (path ++ [s.1.id]) t)
      (Spans b' c g limit room (path ++ [s.1.id]) t) (write b')) :
    Settles b (Stuck c g room (path ++ [s.1.id]) t) (Spans b c g limit (room + 1) path s)
      (b.under 2 write) := by
  unfold Bounds.under
  cases hbelow : b.below 2 with
  | error e =>
      exact .bound (Bounds.causes_of_below_error hbelow) (Spans.not_of_below hpath hfeeds hbelow)
  | ok b' =>
      show Settles b _ _ (write b')
      have h := hwrite b'
      generalize write b' = result at h
      cases h with
      | text text hfree => exact .text text hfree
      | cycle hcycle hstuck => exact .cycle hcycle hstuck
      | bound hcauses hnot =>
          exact .bound (Bounds.causes_of_below hbelow hcauses) fun hspans =>
            hnot (hspans.step hpath hfeeds hbelow)

/-- The last step is to fill in the id. -/
theorem Settles.finish {b : Bounds} {stuck spans : Prop} {filled : Except Fault (List Char)}
    (h : Settles b stuck spans filled) (hspans : spans → HasRoom b n 0) :
    Settles b stuck spans (do
      let code ← filled
      let code ← fillId b n code
      return Template.strip code) := by
  cases h with
  | cycle hcycle hstuck => exact .cycle hcycle hstuck
  | bound hcauses hnot => exact .bound hcauses hnot
  | text code hfree =>
      show Settles b stuck spans (fillId b n code >>= fun code => pure (Template.strip code))
      cases hid : fillId b n code with
      | ok code => exact .text _ hfree
      | error e =>
          obtain ⟨hcauses, hnot⟩ := fillId_eq_error hid
          exact .bound hcauses fun h => hnot (hspans h)

/-- **The search settles every output.**  The induction is on the room; the path
grows by the node at hand, whose links are then followed. -/
theorem expressionIn_settles (hnames : g.TextNames) {d : Int} (room : Nat) (b : Bounds)
    (path : List Scalar) (s : Node × Port) :
    Settles b (Stuck c g room path s) (Spans b c g (.int d) room path s)
      (expressionIn c g (.int d) room b path s.1 s.2) := by
  induction room generalizing b path s with
  | zero =>
      unfold expressionIn
      split
      · rename_i hpath
        exact settles_cycleFault hpath
      · exact settles_limitFault
  | succ room ih =>
      unfold expressionIn
      split
      · rename_i hpath
        exact settles_cycleFault hpath
      · rename_i hpath
        rw [Bool.not_eq_true] at hpath
        cases htemplate : outputTemplate? c s.1 s.2 with
        | none =>
            refine .text [] fun hstuck => ?_
            rcases stuck_succ.mp hstuck with hon | ⟨t, hfeeds, _⟩
            · rw [hpath] at hon
              cases hon
            · have hsome := (feeds_iff.mp hfeeds).1
              simp [htemplate] at hsome
        | some code =>
            dsimp only
            cases hvalue : fillValue b s.1 code with
            | error e =>
                obtain ⟨hcauses, hnot⟩ := fillValue_eq_error hvalue
                exact .bound hcauses fun hspans => hnot hspans.hasRoom
            | ok code =>
                have hfeeds : ∀ t, (∃ l ∈ g.linksInto s.1.id, ∃ input, feed? g l = some (input, t)) →
                    Feeds c g s t := fun t hfed => feeds_iff.mpr ⟨by rw [htemplate]; rfl, hfed⟩
                have hinputs := foldlM_applyLink_settles hnames (b := b)
                  (fun m q => b.under 2 fun b =>
                    expressionIn c g (.int d) room b (path ++ [s.1.id]) m q)
                  (g.linksInto s.1.id) code fun l hl input t hfeed =>
                    settles_under hpath (hfeeds t ⟨l, hl, input, hfeed⟩) fun b' =>
                      ih b' (path ++ [s.1.id]) t
                have hstuck : (∃ t, (∃ l ∈ g.linksInto s.1.id, ∃ input, feed? g l = some (input, t)) ∧
                    Stuck c g room (path ++ [s.1.id]) t) ↔ Stuck c g (room + 1) path s := by
                  rw [stuck_succ]
                  constructor
                  · rintro ⟨t, hfed, hstuck⟩
                    exact Or.inr ⟨t, hfeeds t hfed, hstuck⟩
                  · rintro (hon | ⟨t, hfeeds, hstuck⟩)
                    · rw [hpath] at hon
                      cases hon
                    · exact ⟨t, (feeds_iff.mp hfeeds).2, hstuck⟩
                exact (hinputs.imp hstuck id).finish fun hspans => hspans.hasRoom

/-- Some walk back along the data returns to a node that it passed, or passes as
many nodes as the limit allows.  Nodes are the same when their ids are. -/
def DataCyclic (c : Catalog) (g : Graph) (d : Int) (s : Node × Port) : Prop :=
  ∃ passed finish, Walk c g s passed finish ∧
    ((∃ t ∈ passed, t.1.id.same finish.1.id = true) ∨ d ≤ passed.length)

theorem stuck_iff_dataCyclic {d : Int} {s : Node × Port} :
    Stuck c g d.toNat [] s ↔ DataCyclic c g d s := by
  have hsame : ∀ (passed : List (Node × Port)) (id : Scalar),
      onPath ([] ++ passed.map fun t => t.1.id) id = true ↔ ∃ t ∈ passed, t.1.id.same id = true := by
    intro passed id
    simp only [onPath, List.nil_append, List.any_map, List.any_eq_true, Function.comp_def,
      Scalar.same_iff]
    exact ⟨fun ⟨t, ht, hkey⟩ => ⟨t, ht, hkey.symm⟩, fun ⟨t, ht, hkey⟩ => ⟨t, ht, hkey.symm⟩⟩
  simp only [Stuck, DataCyclic, hsame, Int.toNat_le]

theorem expressionWithin_settles (hnames : g.TextNames) (b : Bounds) (n : Node) (p : Port) (d : Int) :
    Settles b (DataCyclic c g d (n, p)) (Spans b c g (.int d) d.toNat [] (n, p))
      (expressionWithin b c g (.int d) [] n p) := by
  have hroom : roomFor g (.int d) [] = d.toNat := by simp [roomFor, Value.number?, Number.ceil?]
  unfold expressionWithin
  rw [hroom]
  exact (expressionIn_settles hnames d.toNat b [] (n, p)).imp stuck_iff_dataCyclic id

/-- **Data cycles are found, and nothing else is taken for one.**  For every output
of every node and every limit, there is an expression only if there is no data cycle, and
a data cycle is reported only if there is one; whatever else stops the search are bounds
that do not hold all walks.  Where they do, a cycle is reported exactly if there is one,
and in all other cases there is an expression. -/
theorem expressionWithin_dataCycle (hnames : g.TextNames) (b : Bounds) (n : Node) (p : Port)
    (d : Int) :
    (∀ text, expressionWithin b c g (.int d) [] n p = .ok text → ¬ DataCyclic c g d (n, p)) ∧
    (∀ fault, expressionWithin b c g (.int d) [] n p = .error fault →
      (fault.isDataCycle = true ∧ DataCyclic c g d (n, p)) ∨
        (b.Causes fault ∧ ¬ Spans b c g (.int d) d.toNat [] (n, p))) ∧
    (Spans b c g (.int d) d.toNat [] (n, p) →
      ((∃ fault, expressionWithin b c g (.int d) [] n p = .error fault ∧ fault.isDataCycle = true) ↔
        DataCyclic c g d (n, p)) ∧
      (¬ DataCyclic c g d (n, p) → ∃ text, expressionWithin b c g (.int d) [] n p = .ok text)) := by
  have hsettles := expressionWithin_settles (c := c) hnames b n p d
  generalize expressionWithin b c g (.int d) [] n p = result at hsettles ⊢
  cases hsettles with
  | text text hfree =>
      refine ⟨fun _ _ => hfree, nofun, fun _ => ⟨⟨?_, fun h => absurd h hfree⟩, ?_⟩⟩
      · rintro ⟨_, h, _⟩
        cases h
      · exact fun _ => ⟨text, rfl⟩
  | @cycle fault hcycle hstuck =>
      refine ⟨nofun, fun _ h => ?_, fun _ => ⟨⟨fun _ => hstuck, fun _ => ?_⟩, ?_⟩⟩
      · cases h
        exact Or.inl ⟨hcycle, hstuck⟩
      · exact ⟨fault, rfl, hcycle⟩
      · exact fun hfree => absurd hstuck hfree
  | bound hcauses hnot =>
      refine ⟨nofun, fun _ h => ?_, fun hspans => absurd hspans hnot⟩
      cases h
      exact Or.inr ⟨hcauses, hnot⟩

/-- A catalog with sums of two numbers. -/
def sumCatalog : Catalog :=
  let port (name : String) : Value := .obj [("type", .str "number"), ("name", .str name)]
  (Catalog.merge {} (.obj [("nodeCategories", .obj [("math", .obj [("nodes", .obj [("sum", .obj [
    ("inputs", .list [port "a", port "b"]),
    ("outputs", .list [.obj [("type", .str "number"), ("code", .str "($\x7ba\x7d + $\x7bb\x7d)")]])])])])])])).1

/-- A sum under an id. -/
def sumNode (id : Int) : Node :=
  ((Node.build sumCatalog (.int id) (.str "math") (.str "sum") (.int 0) (.int 0)).toOption).getD
    default

/-- A sum that takes another one twice, on two ways. -/
def diamond : Graph :=
  { nodes := [sumNode 0, sumNode 1]
    links := [⟨.int 0, ⟨.int 0, .output, 0⟩, ⟨.int 1, .input, 0⟩⟩,
      ⟨.int 1, ⟨.int 0, .output, 0⟩, ⟨.int 1, .input, 1⟩⟩] }

/-- The same with a link back. -/
def knot : Graph :=
  { diamond with links := diamond.links ++ [⟨.int 2, ⟨.int 1, .output, 0⟩, ⟨.int 0, .input, 1⟩⟩] }

/-- The output of the second sum. -/
def sumOutput : Node × Port :=
  (sumNode 1, ((sumNode 1).ports .output).headD default)

/-- Two ways to one node are no cycle.  A lower limit makes them one, and so does
a link back. -/
theorem expressionWithin_dataCycle_knot :
    ¬ DataCyclic sumCatalog diamond 2 sumOutput ∧ DataCyclic sumCatalog diamond 1 sumOutput ∧
      DataCyclic sumCatalog knot 256 sumOutput := by
  have hdiamond : diamond.TextNames := by decide +kernel
  have hknot : knot.TextNames := by decide +kernel
  have hspans : Spans Nesting.direct.ofText sumCatalog knot (.int 256) 256 [] sumOutput :=
    spans_of_le 256 0 (by decide +kernel) (by decide +kernel) fun depth hdepth => by
      cases hdepth
      decide
  refine ⟨?_, ?_, ?_⟩
  · obtain ⟨text, htext⟩ := exists_ok_of_toBool (show (expressionWithin Nesting.direct.ofText
      sumCatalog diamond (.int 2) [] sumOutput.1 sumOutput.2).toBool = true by decide +kernel)
    exact (expressionWithin_dataCycle hdiamond _ _ _ 2).1 text htext
  · exact ((expressionWithin_dataCycle hdiamond .free _ _ 1).2.2 (spans_free _ _ _)).1.mp
      (exists_error_of_failsWith (by decide +kernel))
  · exact ((expressionWithin_dataCycle hknot _ _ _ 256).2.2 hspans).1.mp
      (exists_error_of_failsWith (by decide +kernel))

/-! ## Rings

Each sum of a ring takes the next one, and the last one takes the first.  A ring is a data
cycle, but one that is found only after as many nodes as it has. -/

/-- The output of a sum of a ring. -/
def ringAt (i : Nat) : Node × Port :=
  ({ sumNode 0 with id := .int i }, sumOutput.2)

/-- The link from the next sum of a ring. -/
def ringLink (size i : Nat) : Link :=
  ⟨.int i, ⟨.int ((i + 1) % size : Nat), .output, 0⟩, ⟨.int i, .input, 0⟩⟩

/-- Sums in a ring. -/
def ring (size : Nat) : Graph :=
  { nodes := (List.range size).map fun i => (ringAt i).1
    links := (List.range size).map (ringLink size) }

section Ring

variable {size i : Nat}

theorem same_int_iff (i j : Nat) : (Scalar.int i).same (.int j) = (i == j) := by
  rw [Bool.eq_iff_iff, Scalar.same_iff, beq_iff_eq]
  simp only [Scalar.key, Key.whole.injEq]
  exact Int.natCast_inj

theorem ring_textNames (size : Nat) : (ring size).TextNames := by
  have hsum : ∀ p ∈ (sumNode 0).ports .input ++ (sumNode 0).ports .output,
      (p.name.isNull || p.name.isStr) = true := by decide +kernel
  intro n hn p hp
  obtain ⟨i, _, rfl⟩ := List.mem_map.mp hn
  exact hsum p hp

theorem ring_node? (hi : i < size) : (ring size).node? (.int i) = some (ringAt i).1 := by
  have hids : (ring size).DistinctIds := by
    unfold Graph.DistinctIds ring
    rw [List.map_map]
    refine List.Pairwise.map _ (fun a b hne hkeys => hne ?_) List.nodup_range
    exact Int.ofNat_inj.mp (Key.whole.inj hkeys)
  exact hids.node?_of_mem (List.mem_map_of_mem (List.mem_range.mpr hi))

theorem ring_linksInto (hi : i < size) : (ring size).linksInto (.int i) = [ringLink size i] := by
  have hsame : (fun l : Link => l.target.node.same (.int i)) ∘ ringLink size = fun j => j == i := by
    funext j
    exact same_int_iff j i
  rw [Graph.linksInto, ring, List.filter_map, hsame, List.filter_beq, List.count_range, if_pos hi]
  rfl

/-- Each sum of a ring is fed by the next one. -/
theorem ring_feed? (hi : i < size) :
    ∃ input, feed? (ring size) (ringLink size i) = some (input, ringAt ((i + 1) % size)) := by
  have hinput : ∃ input, (sumNode 0).port? .input 0 = some input ∧ input.isExec = false :=
    ⟨_, by rfl, by decide +kernel⟩
  have houtput : (sumNode 0).port? .output 0 = some sumOutput.2 := by rfl
  obtain ⟨input, hport, hexec⟩ := hinput
  have hnext : (i + 1) % size < size := Nat.mod_lt _ (Nat.zero_lt_of_lt hi)
  refine ⟨input, feed?_eq_some.mpr ⟨?_, hexec, ring_node? hnext, ?_⟩⟩
  · simp only [ringLink, Graph.port?, ring_node? hi, Option.bind_some]
    exact hport
  · simp only [ringLink, Graph.port?, ring_node? hnext, Option.bind_some]
    exact houtput

/-- A walk through a ring comes back to its start. -/
theorem ring_walk (rest : Nat) (hi : i + rest + 1 = size) :
    Walk sumCatalog (ring size) (ringAt i) ((List.range' i (rest + 1)).map ringAt) (ringAt 0) := by
  have htemplate : ∀ i, (outputTemplate? sumCatalog (ringAt i).1 (ringAt i).2).isSome = true :=
    fun _ => show (outputTemplate? sumCatalog (sumNode 0) sumOutput.2).isSome = true by
      decide +kernel
  have hfeeds : ∀ i, i < size →
      Feeds sumCatalog (ring size) (ringAt i) (ringAt ((i + 1) % size)) := by
    intro i hi
    obtain ⟨input, hfeed⟩ := ring_feed? hi
    refine feeds_iff.mpr ⟨htemplate i, ringLink size i, ?_, input, hfeed⟩
    exact (ring_linksInto hi).symm ▸ List.mem_singleton_self _
  have hfirst := hfeeds i (by omega)
  induction rest generalizing i with
  | zero =>
      rw [show (i + 1) % size = 0 by rw [← hi]; exact Nat.mod_self _] at hfirst
      exact .cons hfirst (.nil _)
  | succ rest ih =>
      rw [Nat.mod_eq_of_lt (by omega)] at hfirst
      exact .cons hfirst (ih (by omega) (hfeeds (i + 1) (by omega)))

/-- A sum of a ring fails as the next one does. -/
theorem expressionIn_ring_step {limit : Value} {b : Bounds} {room : Nat} {path : List Scalar}
    {fault : Fault} (hi : i < size) (hpath : ∀ id ∈ path, ∃ j : Nat, j < i ∧ id = .int j)
    (hnext : (b.under 2 fun b => expressionIn sumCatalog (ring size) limit room b (path ++ [.int i])
      (ringAt ((i + 1) % size)).1 (ringAt ((i + 1) % size)).2) = .error fault) :
    expressionIn sumCatalog (ring size) limit (room + 1) b path (ringAt i).1 (ringAt i).2 =
      .error fault := by
  obtain ⟨code, htemplate⟩ :
      ∃ code, outputTemplate? sumCatalog (ringAt i).1 (ringAt i).2 = some code :=
    Option.isSome_iff_exists.mp
      (show (outputTemplate? sumCatalog (sumNode 0) sumOutput.2).isSome = true by decide +kernel)
  have hslot : (ringAt i).1.slot = none := show (sumNode 0).slot = none by decide +kernel
  have hfresh : onPath path (.int i) = false := by
    rw [onPath, List.any_eq_false]
    intro id hid
    obtain ⟨j, hj, rfl⟩ := hpath id hid
    rw [same_int_iff, beq_iff_eq]
    omega
  obtain ⟨input, hfeed⟩ := ring_feed? hi
  unfold expressionIn
  rw [if_neg (by rw [show (ringAt i).1.id = .int i from rfl, hfresh]; simp), htemplate]
  simp only [fillValue, hslot, applyInputs, show (ringAt i).1.id = .int i from rfl,
    ring_linksInto hi, List.foldlM_cons, applyLink_of_feed hfeed, hnext]
  rfl

/-- A ring with more nodes than there is room for.  The induction is on the room. -/
theorem expressionIn_ring {limit : Value} {digits : Bool} (half : Nat) {room : Nat}
    {path : List Scalar} (hi : i + half < size) (hroom : half < room)
    (hpath : ∀ id ∈ path, ∃ j : Nat, j < i ∧ id = .int j) :
    expressionIn sumCatalog (ring size) limit room ⟨some (2 * half), digits⟩ path
      (ringAt i).1 (ringAt i).2 = .error .tooDeep := by
  obtain ⟨room, rfl⟩ := Nat.exists_eq_succ_of_ne_zero (Nat.ne_zero_of_lt hroom)
  induction half generalizing i room path with
  | zero => exact expressionIn_ring_step hi hpath rfl
  | succ half ih =>
      obtain ⟨less, rfl⟩ := Nat.exists_eq_succ_of_ne_zero (show room ≠ 0 by omega)
      refine expressionIn_ring_step (by omega) hpath ?_
      rw [Nat.mod_eq_of_lt (show i + 1 < size by omega)]
      refine ih (i := i + 1) (by omega) (fun id hid => ?_) less (by omega)
      rcases List.mem_append.mp hid with hid | hid
      · obtain ⟨j, hj, rfl⟩ := hpath id hid
        exact ⟨j, by omega, rfl⟩
      · exact ⟨i, by omega, List.mem_singleton.mp hid⟩

end Ring

/-- A ring of 600 sums is a data cycle, also below a limit of 10000 nodes, but before it is
found there is no more room. -/
theorem expressionWithin_ring_tooDeep :
    (ring 600).TextNames ∧ DataCyclic sumCatalog (ring 600) 10000 (ringAt 0) ∧
      expressionWithin Nesting.direct.ofText sumCatalog (ring 600) (.int 10000) []
        (ringAt 0).1 (ringAt 0).2 = .error .tooDeep := by
  refine ⟨ring_textNames 600, ⟨_, _, ring_walk 599 rfl, Or.inl ⟨ringAt 0, ?_, ?_⟩⟩, ?_⟩
  · exact List.mem_map_of_mem (List.mem_range'_1.mpr (by omega))
  · exact Scalar.same_iff.mpr rfl
  · exact expressionIn_ring 492 (by decide) (by decide) (by simp)

end Program

end NodeWeave
