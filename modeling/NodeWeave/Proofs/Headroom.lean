import NodeWeave.Proofs.DepthLimit

/-!
# Programs with room enough

Bounds show in a program in two ways only.  A program for which there is room is the
same however much more room there is: within bounds it is made as without a bound of
depth, or making it goes too deep (`sourceWithin_unless_tooDeep`).  And where all ids
and values, the limit and the comment style can be written, it does not matter that
digits are counted, so that a number without a text is the only cause of that fault
(`not_legible_of_unwritable`).

Both are one argument.  `Lifts` says which two bounds are compared, `UnlessTooDeep`
what is said of the two results, and each step on the way to a program keeps it.
-/

namespace NodeWeave

/-- **The first result is the second one**, or else there is no room for it. -/
def UnlessTooDeep {α : Type} (x y : Except Fault α) : Prop :=
  x = .error .tooDeep ∨ x = y

namespace UnlessTooDeep

variable {α β : Type} {x y : Except Fault α}

theorem refl (x : Except Fault α) : UnlessTooDeep x x :=
  Or.inr rfl

theorem bind {f f' : α → Except Fault β} (hx : UnlessTooDeep x y)
    (hf : ∀ a, UnlessTooDeep (f a) (f' a)) : UnlessTooDeep (x >>= f) (y >>= f') := by
  rcases hx with rfl | rfl
  · exact Or.inl rfl
  · cases x with
    | error fault => exact refl _
    | ok a => exact hf a

theorem foldlM {f f' : β → α → Except Fault β} {xs : List α} (s : β)
    (hstep : ∀ a ∈ xs, ∀ s, UnlessTooDeep (f s a) (f' s a)) :
    UnlessTooDeep (xs.foldlM f s) (xs.foldlM f' s) := by
  induction xs generalizing s with
  | nil => exact refl _
  | cons a rest ih =>
      rw [List.foldlM_cons, List.foldlM_cons]
      refine bind (hstep a List.mem_cons_self s) fun s => ?_
      exact ih s fun a' ha' => hstep a' (List.mem_cons_of_mem a ha')

end UnlessTooDeep

namespace Bounds

variable {b b' : Bounds}

/-- The same bounds with room for any number of steps. -/
def roomy (b : Bounds) : Bounds :=
  { b with depth := none }

theorem below_of_none (hnone : b.depth = none) (steps : Nat) : b.below steps = .ok b := by
  unfold below
  rw [hnone]

theorem under_of_none {α : Type} (hnone : b.depth = none) (steps : Nat)
    (write : Bounds → Except Fault α) : b.under steps write = write b := by
  unfold under
  rw [below_of_none hnone]
  rfl

theorem inside_of_none (hnone : b.depth = none) (fault? : Bounds → Option Fault) :
    b.inside fault? = fault? b := by
  unfold inside
  rw [below_of_none hnone]

theorem inside_roomy {inner : Bounds → Option Fault} (hnone : b'.depth = none)
    (hdigits : b.digits = b'.digits)
    (hinner : ∀ b, b.digits = b'.digits → inner b = some .tooDeep ∨ inner b = inner b') :
    b.inside inner = some .tooDeep ∨ b.inside inner = b'.inside inner := by
  rw [inside_of_none hnone]
  unfold inside
  cases hbelow : b.below 1 with
  | ok less => exact hinner less ((below_eq_ok hbelow).1.trans hdigits)
  | error e => exact Or.inl (congrArg some (below_eq_error hbelow))

theorem or_roomy {x y rest rest' : Option Fault} (hx : x = some .tooDeep ∨ x = y)
    (hrest : rest = some .tooDeep ∨ rest = rest') :
    x.or rest = some .tooDeep ∨ x.or rest = y.or rest' := by
  rcases hx with rfl | rfl
  · exact Or.inl rfl
  · cases x with
    | none => exact hrest
    | some e => exact Or.inr rfl

mutual

/-- What stops the writing of a value also does without a bound of depth, unless it is
that bound. -/
theorem fault?_roomy {b b' : Bounds} (hnone : b'.depth = none) (hdigits : b.digits = b'.digits)
    (v : Value) : b.fault? v = some .tooDeep ∨ b.fault? v = b'.fault? v := by
  cases v with
  | int n => exact Or.inr (by rw [fault?, fault?, hdigits])
  | list items => exact inside_roomy hnone hdigits fun b h => faultOfItems?_roomy hnone h items
  | obj fields => exact inside_roomy hnone hdigits fun b h => faultOfFields?_roomy hnone h fields
  | null => exact Or.inr rfl
  | bool _ => exact Or.inr rfl
  | float _ => exact Or.inr rfl
  | nan _ => exact Or.inr rfl
  | str _ => exact Or.inr rfl

theorem faultOfItems?_roomy {b b' : Bounds} (hnone : b'.depth = none)
    (hdigits : b.digits = b'.digits) (items : List Value) :
    b.faultOfItems? items = some .tooDeep ∨ b.faultOfItems? items = b'.faultOfItems? items := by
  cases items with
  | nil => exact Or.inr rfl
  | cons v rest =>
      rw [faultOfItems?, faultOfItems?]
      exact or_roomy (fault?_roomy hnone hdigits v) (faultOfItems?_roomy hnone hdigits rest)

theorem faultOfFields?_roomy {b b' : Bounds} (hnone : b'.depth = none)
    (hdigits : b.digits = b'.digits) (fields : List (String × Value)) :
    b.faultOfFields? fields = some .tooDeep ∨ b.faultOfFields? fields = b'.faultOfFields? fields := by
  cases fields with
  | nil => exact Or.inr rfl
  | cons field rest =>
      rw [faultOfFields?, faultOfFields?]
      exact or_roomy (fault?_roomy hnone hdigits field.2) (faultOfFields?_roomy hnone hdigits rest)

end

/-- A value whose numbers can be written is written, if there is room enough. -/
theorem fault?_of_writable (hnone : b.depth = none) {v : Value} (hv : v.isWritable = true) :
    b.fault? v = none := by
  refine (b.fault?_eq_none_iff v).mpr ⟨fun _ => hv, fun depth hdepth => ?_⟩
  rw [hnone] at hdepth
  cases hdepth

theorem writes_of_writable {s : Scalar} (hs : s.isWritable = true) : b.writes s = true := by
  simp [writes, hs]

end Bounds

namespace Program

variable {c : Catalog} {g : Graph} {limit : Value} {b b' : Bounds} {n : Node} {p : Port}
  {room : Nat} {path visited : List Scalar} {code : List Char}

/-- **All numbers that a program may have to write can be written**: those of the ids
and of the values, the limit and those of the comment style. -/
structure Legible (c : Catalog) (g : Graph) (limit : Value) : Prop where
  ids : ∀ n ∈ g.nodes, n.id.isWritable = true
  values : ∀ n ∈ g.nodes, n.slot.isSome = true → n.value.isWritable = true
  limit : limit.isWritable = true
  style : c.style.commentStyle.isWritable = true

/-- **Two bounds to compare.**  The second ones have room for everything.  They count
digits as the first ones do, or these have room for everything too and digits do not
matter. -/
def Lifts (c : Catalog) (g : Graph) (limit : Value) (b b' : Bounds) : Prop :=
  b'.depth = none ∧ (b.digits = b'.digits ∨ (b.depth = none ∧ Legible c g limit))

namespace Lifts

theorem below (hlifts : Lifts c g limit b b') {steps : Nat} {less : Bounds}
    (hbelow : b.below steps = .ok less) : Lifts c g limit less b' := by
  obtain ⟨hnone, hdigits | ⟨hdepth, hlegible⟩⟩ := hlifts
  · exact ⟨hnone, Or.inl ((Bounds.below_eq_ok hbelow).1.trans hdigits)⟩
  · rw [Bounds.below_of_none hdepth] at hbelow
    cases hbelow
    exact ⟨hnone, Or.inr ⟨hdepth, hlegible⟩⟩

theorem under (hlifts : Lifts c g limit b b') {α : Type} (steps : Nat)
    {write : Bounds → Except Fault α}
    (hwrite : ∀ less, Lifts c g limit less b' → UnlessTooDeep (write less) (write b')) :
    UnlessTooDeep (b.under steps write) (b'.under steps write) := by
  rw [Bounds.under_of_none hlifts.1]
  unfold Bounds.under
  cases hbelow : b.below steps with
  | ok less => exact hwrite less (hlifts.below hbelow)
  | error e => exact Or.inl (by rw [Bounds.below_eq_error hbelow]; rfl)

theorem fault? (hlifts : Lifts c g limit b b') {v : Value}
    (hv : Legible c g limit → v.isWritable = true) :
    b.fault? v = some .tooDeep ∨ b.fault? v = b'.fault? v := by
  obtain ⟨hnone, hdigits | ⟨hdepth, hlegible⟩⟩ := hlifts
  · exact Bounds.fault?_roomy hnone hdigits v
  · have hwritable := hv hlegible
    rw [Bounds.fault?_of_writable hdepth hwritable, Bounds.fault?_of_writable hnone hwritable]
    exact Or.inr rfl

theorem check (hlifts : Lifts c g limit b b') {v : Value}
    (hv : Legible c g limit → v.isWritable = true) : UnlessTooDeep (b.check v) (b'.check v) := by
  unfold Bounds.check
  rcases hlifts.fault? hv with hfault | hfault
  · exact Or.inl (by rw [hfault])
  · exact Or.inr (by rw [hfault])

theorem writes (hlifts : Lifts c g limit b b') {s : Scalar}
    (hs : Legible c g limit → s.isWritable = true) : b.writes s = b'.writes s := by
  obtain ⟨_, hdigits | ⟨_, hlegible⟩⟩ := hlifts
  · rw [Bounds.writes, Bounds.writes, hdigits]
  · rw [Bounds.writes_of_writable (hs hlegible), Bounds.writes_of_writable (hs hlegible)]

theorem naming (hlifts : Lifts c g limit b b') {names : List Scalar}
    (hnames : Legible c g limit → ∀ s ∈ names, s.isWritable = true) (fault : Fault) :
    b.naming names fault = b'.naming names fault := by
  have hall : names.all b.writes = names.all b'.writes := by
    rw [Bool.eq_iff_iff, List.all_eq_true, List.all_eq_true]
    exact forall₂_congr fun s hs => by rw [hlifts.writes fun hlegible => hnames hlegible s hs]
  rw [Bounds.naming, Bounds.naming, hall]

/-! ## Each step on the way to a program -/

theorem fillValue (hlifts : Lifts c g limit b b') (hn : n ∈ g.nodes) (code : List Char) :
    UnlessTooDeep (fillValue b n code) (fillValue b' n code) := by
  unfold Program.fillValue
  cases hslot : n.slot.isSome with
  | false => exact .refl _
  | true => exact (hlifts.check fun hlegible => hlegible.values n hn hslot).bind fun _ => .refl _

theorem fillId (hlifts : Lifts c g limit b b') (hn : n ∈ g.nodes) (code : List Char) :
    fillId b n code = fillId b' n code := by
  unfold Program.fillId Bounds.checkScalar
  rw [hlifts.writes fun hlegible => hlegible.ids n hn]

theorem writable_concat (hn : n ∈ g.nodes)
    (hpath : Legible c g limit → ∀ id ∈ path, id.isWritable = true)
    (hlegible : Legible c g limit) : ∀ id ∈ path ++ [n.id], id.isWritable = true := by
  intro id hid
  rcases List.mem_append.mp hid with hid | hid
  · exact hpath hlegible id hid
  · rw [List.mem_singleton.mp hid]
    exact hlegible.ids n hn

theorem cycleFault (hlifts : Lifts c g limit b b') (hn : n ∈ g.nodes)
    (hpath : Legible c g limit → ∀ id ∈ path, id.isWritable = true) :
    cycleFault b path n.id = cycleFault b' path n.id := by
  refine hlifts.naming (fun hlegible => ?_) _
  refine writable_concat hn (fun hlegible id hid => hpath hlegible id ?_) hlegible
  exact (List.dropWhile_sublist _).subset hid

theorem limitFault (hlifts : Lifts c g limit b b')
    (hpath : Legible c g limit → ∀ id ∈ path, id.isWritable = true) :
    Program.limitFault b limit path = .tooDeep ∨
      Program.limitFault b limit path = Program.limitFault b' limit path := by
  unfold Program.limitFault
  cases limit.number? with
  | none => exact Or.inr rfl
  | some number =>
      dsimp only
      rw [hlifts.naming hpath]
      rcases hlifts.fault? Legible.limit with hfault | hfault
      · exact Or.inl (by rw [hfault]; rfl)
      · exact Or.inr (by rw [hfault])

theorem applyInputs {express express' : Node → Port → Except Fault (List Char)}
    (hexpress : ∀ m ∈ g.nodes, ∀ q, UnlessTooDeep (express m q) (express' m q)) (n : Node)
    (code : List Char) :
    UnlessTooDeep (applyInputs g express n code) (applyInputs g express' n code) := by
  refine UnlessTooDeep.foldlM code fun l _ code => ?_
  unfold applyLink
  cases hfeed : feed? g l with
  | none => exact .refl _
  | some found =>
      obtain ⟨input, producer, output⟩ := found
      exact (hexpress producer (producer_mem hfeed) output).bind fun _ => .refl _

/-- **An expression**: the induction is on the room, as the recursion is. -/
theorem expressionIn (hlifts : Lifts c g limit b b') (hn : n ∈ g.nodes)
    (hpath : Legible c g limit → ∀ id ∈ path, id.isWritable = true) :
    UnlessTooDeep (expressionIn c g limit room b path n p)
      (expressionIn c g limit room b' path n p) := by
  induction room generalizing b path n p with
  | zero =>
      unfold Program.expressionIn
      split
      · exact Or.inr (by rw [hlifts.cycleFault hn hpath])
      · rcases hlifts.limitFault (writable_concat hn hpath) with hfault | hfault
        · exact Or.inl (by rw [hfault])
        · exact Or.inr (by rw [hfault])
  | succ room ih =>
      rw [Program.expressionIn, Program.expressionIn]
      split
      · exact Or.inr (by rw [hlifts.cycleFault hn hpath])
      · cases outputTemplate? c n p with
        | none => exact .refl _
        | some code =>
            refine (hlifts.fillValue hn code).bind fun code => ?_
            refine UnlessTooDeep.bind (applyInputs (fun m hm q => ?_) n code) fun code => ?_
            · exact hlifts.under 2 fun less hless => ih hless hm (writable_concat hn hpath)
            · rw [hlifts.fillId hn]
              exact .refl _

theorem supplyWithin (hlifts : Lifts c g limit b b') (hn : n ∈ g.nodes) (p : Port) :
    UnlessTooDeep (supplyWithin b c g limit n p) (supplyWithin b' c g limit n p) :=
  hlifts.under 2 fun _ hless => hless.expressionIn hn nofun

theorem statementIn (hlifts : Lifts c g limit b b') (hn : n ∈ g.nodes) :
    UnlessTooDeep (statementIn c g limit room b visited n)
      (statementIn c g limit room b' visited n) := by
  induction room generalizing b visited n with
  | zero =>
      rw [statementIn_zero, statementIn_zero]
      exact .refl _
  | succ room ih =>
      rw [Program.statementIn, Program.statementIn]
      split
      · exact .refl _
      · dsimp only
        cases statementTemplate? c n with
        | none => exact .refl _
        | some code =>
            refine (hlifts.fillValue hn code).bind fun code => ?_
            refine (applyInputs (fun m hm => hlifts.supplyWithin hm) n code).bind fun code => ?_
            refine UnlessTooDeep.bind (UnlessTooDeep.foldlM _ fun l _ s => ?_) fun s => ?_
            · unfold applyFlow
              cases hfollow : follow? g l with
              | none => exact .refl _
              | some found =>
                  refine UnlessTooDeep.bind ?_ fun _ => .refl _
                  exact hlifts.under 1 fun less hless => ih hless (target_mem hfollow)
            · rw [hlifts.fillId hn]
              exact .refl _

theorem blocksWithin (hlifts : Lifts c g limit b b') {nodes : List Node}
    (hnodes : ∀ n ∈ nodes, n ∈ g.nodes) :
    UnlessTooDeep (blocksWithin b c g limit visited nodes)
      (blocksWithin b' c g limit visited nodes) := by
  induction nodes generalizing visited with
  | nil => exact .refl _
  | cons n rest ih =>
      rw [Program.blocksWithin, Program.blocksWithin]
      refine (hlifts.statementIn (hnodes n List.mem_cons_self)).bind fun s => ?_
      refine UnlessTooDeep.bind (ih fun m hm => hnodes m (List.mem_cons_of_mem n hm)) fun _ => ?_
      exact .refl _

theorem bodyWithin (hlifts : Lifts c g limit b b') :
    UnlessTooDeep (bodyWithin b c g limit) (bodyWithin b' c g limit) := by
  have hnodes : ∀ n ∈ entryNodes c g, n ∈ g.nodes := fun n hn => (List.mem_filter.mp hn).1
  unfold Program.bodyWithin
  split
  · exact .refl _
  · exact (hlifts.blocksWithin hnodes).bind fun _ => .refl _

theorem sourceWithin (hlifts : Lifts c g limit b b') (now : Moment) :
    UnlessTooDeep (sourceWithin b c g limit now) (sourceWithin b' c g limit now) := by
  unfold Program.sourceWithin
  refine hlifts.bodyWithin.bind fun text => ?_
  exact (hlifts.check Legible.style).bind fun _ => .refl _

end Lifts

/-- **More room does not change a program.** -/
theorem sourceWithin_unless_tooDeep (b : Bounds) (c : Catalog) (g : Graph) (limit : Value)
    (now : Moment) :
    UnlessTooDeep (sourceWithin b c g limit now) (sourceWithin b.roomy c g limit now) := by
  have hlifts : Lifts c g limit b b.roomy := ⟨rfl, Or.inl rfl⟩
  exact hlifts.sourceWithin now

/-- **Only a number without a text cannot be written.** -/
theorem not_legible_of_unwritable {d : Int} (hnames : g.TextNames) {now : Moment} {stamp : String}
    (hnow : now.timestamp = .ok stamp)
    (hrun : sourceWithin b.roomy c g (.int d) now = .error .unwritable) :
    ¬ Legible c g (.int d) := by
  intro hlegible
  have hlifts : Lifts c g (.int d) b.roomy .free := ⟨rfl, Or.inr ⟨rfl, hlegible⟩⟩
  rcases hlifts.sourceWithin now with hdeep | hfree
  · rw [hdeep] at hrun
    cases hrun
  · rw [hfree] at hrun
    rcases sourceWithin_eq_error hnames hnow hrun with ⟨_, hfault⟩ | ⟨_, hcycle | hcauses⟩
    · cases hfault
    · cases hcycle
    · exact Bounds.not_causes_free _ hcauses

end Program

end NodeWeave
