import NodeWeave.Fault
import NodeWeave.Value.Depth
import NodeWeave.Value.Writable

/-!
# Bounds of writing

To write a text is to go down: from node to node, and into values whose lists and
objects lie in each other.  There is room for a number of steps only, and a whole
number is written up to a number of digits only.  `Bounds` says how much room is
left and whether digits are counted; `fault?` is what stops the writing of a value,
the first such thing in the order in which the value is written.

Nothing stops it without bounds (`fault?_free`), and within bounds nothing does
exactly if the value is low enough and all its numbers are writable
(`fault?_eq_none_iff`).
-/

namespace NodeWeave

/-- What bounds the writing of a text. -/
structure Bounds where
  /-- How many steps there is room for; none means that any number fits. -/
  depth : Option Nat := none
  /-- Is a whole number with too many digits a fault? -/
  digits : Bool := false
  deriving DecidableEq

namespace Bounds

/-- No bounds at all. -/
def free : Bounds := {}

/-- What is left some steps further down. -/
def below (b : Bounds) (steps : Nat) : Except Fault Bounds :=
  match b.depth with
  | none => .ok b
  | some depth =>
    if steps ≤ depth then .ok { b with depth := some (depth - steps) } else .error .tooDeep

/-- Writes something some steps further down. -/
def under {α : Type} (b : Bounds) (steps : Nat) (write : Bounds → Except Fault α) :
    Except Fault α := do
  write (← b.below steps)

/-- Can the scalar be written? -/
def writes (b : Bounds) (s : Scalar) : Bool :=
  !b.digits || s.isWritable

/-- The fault that is raised with a text that names some scalars. -/
def naming (b : Bounds) (names : List Scalar) (fault : Fault) : Fault :=
  if names.all b.writes then fault else .unwritable

/-- What stops the writing of something one step further down. -/
def inside (b : Bounds) (fault? : Bounds → Option Fault) : Option Fault :=
  match b.below 1 with
  | .ok b => fault? b
  | .error e => some e

mutual

/-- What stops the writing of a value, if something does. -/
def fault? (b : Bounds) : Value → Option Fault
  | .int n => if b.digits && !Number.isWritable n then some .unwritable else none
  | .list items => b.inside fun b => faultOfItems? b items
  | .obj fields => b.inside fun b => faultOfFields? b fields
  | _ => none

/-- What stops the writing of the items of a list. -/
def faultOfItems? (b : Bounds) : List Value → Option Fault
  | [] => none
  | v :: rest => (fault? b v).or (faultOfItems? b rest)

/-- What stops the writing of the fields of an object. -/
def faultOfFields? (b : Bounds) : List (String × Value) → Option Fault
  | [] => none
  | (_, v) :: rest => (fault? b v).or (faultOfFields? b rest)

end

/-- Fails if the value cannot be written. -/
def check (b : Bounds) (v : Value) : Except Fault Unit :=
  match b.fault? v with
  | none => .ok ()
  | some e => .error e

/-- Fails if the scalar cannot be written. -/
def checkScalar (b : Bounds) (s : Scalar) : Except Fault Unit :=
  if b.writes s then .ok () else .error .unwritable

/-! ## Going down -/

variable {b b' : Bounds} {steps : Nat}

@[simp] theorem below_free (steps : Nat) : free.below steps = .ok free := rfl

@[simp] theorem under_free {α : Type} (steps : Nat) (write : Bounds → Except Fault α) :
    free.under steps write = write free := rfl

@[simp] theorem writes_free (s : Scalar) : free.writes s = true := rfl

@[simp] theorem checkScalar_free (s : Scalar) : free.checkScalar s = .ok () := rfl

@[simp] theorem naming_free (names : List Scalar) (fault : Fault) :
    free.naming names fault = fault := by
  simp [naming]

/-- Steps down leave bounds of the same kind with less room. -/
theorem below_eq_ok (h : b.below steps = .ok b') :
    b'.digits = b.digits ∧ ∀ depth, b'.depth = some depth → b.depth = some (depth + steps) := by
  unfold below at h
  split at h
  · rename_i hdepth
    cases h
    exact ⟨rfl, fun depth h => by rw [hdepth] at h; cases h⟩
  · rename_i depth hdepth
    split at h
    · rename_i hle
      cases h
      refine ⟨rfl, fun left h => ?_⟩
      cases h
      rw [hdepth, Nat.sub_add_cancel hle]
    · cases h

/-- The only fault of going down is that there is no room. -/
theorem below_eq_error {e : Fault} (h : b.below steps = .error e) : e = .tooDeep := by
  unfold below at h
  split at h
  · cases h
  · split at h
    · cases h
    · cases h
      rfl

/-- There is room for some steps. -/
theorem below_of_le (b : Bounds) (steps : Nat) (h : ∀ depth, b.depth = some depth → steps ≤ depth) :
    ∃ b', b.below steps = .ok b' ∧ b'.digits = b.digits ∧
      ∀ depth, b.depth = some depth → b'.depth = some (depth - steps) := by
  unfold below
  split
  · rename_i hdepth
    exact ⟨b, rfl, rfl, fun depth h => by rw [hdepth] at h; cases h⟩
  · rename_i depth hdepth
    rw [if_pos (h depth hdepth)]
    exact ⟨_, rfl, rfl, fun left h => by cases hdepth.symm.trans h; rfl⟩

theorem below_below (h : b.below steps = .ok b') (more : Nat) :
    b'.below more = b.below (steps + more) := by
  unfold below at h ⊢
  split at h
  · rename_i hdepth
    cases h
    simp only [hdepth]
  · rename_i depth hdepth
    split at h
    · rename_i hle
      cases h
      simp only [Nat.sub_sub, show more ≤ depth - steps ↔ steps + more ≤ depth by omega]
    · cases h

/-- Are these the bounds some steps further down? -/
def IsBelow (b' b : Bounds) : Prop :=
  ∃ steps, b.below steps = .ok b'

theorem isBelow_self : b.IsBelow b := by
  refine ⟨0, ?_⟩
  unfold below
  split
  · rfl
  · rename_i depth hdepth
    rw [if_pos (Nat.zero_le _), Nat.sub_zero, ← hdepth]

theorem IsBelow.below {top : Bounds} (hb : b.IsBelow top) (h : b.below steps = .ok b') :
    b'.IsBelow top := by
  obtain ⟨before, htop⟩ := hb
  exact ⟨before + steps, by rw [← below_below htop, h]⟩

/-- What is written further down, within what is left there. -/
theorem under_eq_ok {α : Type} {write : Bounds → Except Fault α} {a : α} :
    b.under steps write = .ok a ↔ ∃ b', b.below steps = .ok b' ∧ write b' = .ok a := by
  constructor
  · exact bind_eq_ok
  · rintro ⟨b', hb', hwrite⟩
    simp only [under, hb', bind, Except.bind, hwrite]

/-! ## Faults of bounds -/

/-- Is it a fault that bounds of this kind have? -/
def Causes (b : Bounds) (e : Fault) : Prop :=
  (e = .tooDeep ∧ b.depth.isSome = true) ∨ (e = .unwritable ∧ b.digits = true)

theorem not_causes_free (e : Fault) : ¬ free.Causes e := by
  rintro (⟨_, h⟩ | ⟨_, h⟩) <;> cases h

/-- The bounds further down have the same faults. -/
theorem causes_of_below {e : Fault} (hbelow : b.below steps = .ok b') (h : b'.Causes e) :
    b.Causes e := by
  obtain ⟨hdigits, hdepth⟩ := below_eq_ok hbelow
  rcases h with ⟨rfl, hsome⟩ | ⟨rfl, hb⟩
  · obtain ⟨depth, hb'⟩ := Option.isSome_iff_exists.mp hsome
    exact Or.inl ⟨rfl, by rw [hdepth depth hb']; rfl⟩
  · exact Or.inr ⟨rfl, hdigits ▸ hb⟩

theorem IsBelow.causes {e : Fault} (hb : b'.IsBelow b) (h : b'.Causes e) : b.Causes e :=
  hb.elim fun _ hbelow => causes_of_below hbelow h

theorem causes_of_below_error {e : Fault} (h : b.below steps = .error e) : b.Causes e := by
  refine Or.inl ⟨below_eq_error h, ?_⟩
  cases hdepth : b.depth with
  | some depth => rfl
  | none =>
      simp only [below, hdepth] at h
      cases h

/-- Writing further down fails for lack of room, or there. -/
theorem under_eq_error {α : Type} {write : Bounds → Except Fault α} {e : Fault}
    (h : b.under steps write = .error e) :
    (b.below steps = .error e ∧ b.Causes e) ∨ ∃ b', b.below steps = .ok b' ∧ write b' = .error e := by
  rcases bind_eq_error h with hbelow | hwrite
  · exact Or.inl ⟨hbelow, causes_of_below_error hbelow⟩
  · exact Or.inr hwrite

theorem causes_of_inside {inner : Bounds → Option Fault} {e : Fault}
    (hinner : ∀ b', inner b' = some e → b'.Causes e) (h : b.inside inner = some e) : b.Causes e := by
  unfold inside at h
  split at h
  · rename_i b' hbelow
    exact causes_of_below hbelow (hinner b' h)
  · rename_i cause hbelow
    cases h
    exact causes_of_below_error hbelow

theorem checkScalar_eq_error {s : Scalar} {e : Fault} (h : b.checkScalar s = .error e) :
    b.Causes e ∧ b.writes s = false := by
  unfold checkScalar at h
  split at h
  · cases h
  · rename_i hwrites
    cases h
    rw [Bool.not_eq_true] at hwrites
    refine ⟨Or.inr ⟨rfl, ?_⟩, hwrites⟩
    cases hdigits : b.digits with
    | true => rfl
    | false => simp [writes, hdigits] at hwrites

mutual

/-- What stops the writing of a value is a fault of the bounds. -/
theorem causes_of_fault? {b : Bounds} {e : Fault} (v : Value) (h : b.fault? v = some e) :
    b.Causes e := by
  cases v with
  | int n =>
      rw [fault?, Option.ite_none_right_eq_some, Bool.and_eq_true] at h
      exact Or.inr ⟨(Option.some.inj h.2).symm, h.1.1⟩
  | list items => exact causes_of_inside (fun _ h => causes_of_faultOfItems? items h) h
  | obj fields => exact causes_of_inside (fun _ h => causes_of_faultOfFields? fields h) h
  | null => cases h
  | bool _ => cases h
  | float _ => cases h
  | nan _ => cases h
  | str _ => cases h

theorem causes_of_faultOfItems? {b : Bounds} {e : Fault} (items : List Value)
    (h : b.faultOfItems? items = some e) : b.Causes e := by
  cases items with
  | nil => cases h
  | cons v rest =>
      rw [faultOfItems?, Option.or_eq_some_iff] at h
      rcases h with h | ⟨_, h⟩
      · exact causes_of_fault? v h
      · exact causes_of_faultOfItems? rest h

theorem causes_of_faultOfFields? {b : Bounds} {e : Fault} (fields : List (String × Value))
    (h : b.faultOfFields? fields = some e) : b.Causes e := by
  cases fields with
  | nil => cases h
  | cons field rest =>
      rw [faultOfFields?, Option.or_eq_some_iff] at h
      rcases h with h | ⟨_, h⟩
      · exact causes_of_fault? field.2 h
      · exact causes_of_faultOfFields? rest h

end

theorem check_eq_ok {v : Value} : b.check v = .ok () ↔ b.fault? v = none := by
  unfold check
  split <;> simp_all

theorem check_eq_error {v : Value} {e : Fault} : b.check v = .error e ↔ b.fault? v = some e := by
  unfold check
  split <;> simp_all

/-! ## Values within bounds -/

/-- Is the value low enough, and are its numbers short enough? -/
def Fits (b : Bounds) (writable : Bool) (height : Nat) : Prop :=
  (b.digits = true → writable = true) ∧ ∀ depth, b.depth = some depth → height ≤ depth

/-- What lies in a list or an object has one step less room. -/
theorem inside_eq_none_iff {writable : Bool} {height : Nat} {inner : Bounds → Option Fault}
    (hinner : ∀ b, inner b = none ↔ b.Fits writable height) :
    b.inside inner = none ↔ b.Fits writable (1 + height) := by
  unfold inside below Fits
  cases hdepth : b.depth with
  | none => simp [hinner, Fits, hdepth]
  | some depth =>
      by_cases hle : 1 ≤ depth
      · simp only [if_pos hle, hinner, Fits, Option.some.injEq, forall_eq']
        exact and_congr_right fun _ => by omega
      · simp only [if_neg hle, Option.some.injEq, forall_eq', reduceCtorEq, false_iff, not_and]
        omega

theorem fits_both {first second : Bool} {h k : Nat} :
    b.Fits (first && second) (max h k) ↔ b.Fits first h ∧ b.Fits second k := by
  simp only [Fits, Bool.and_eq_true, Nat.max_le]
  constructor
  · rintro ⟨hdigits, hdepth⟩
    exact ⟨⟨fun h => (hdigits h).1, fun d h => (hdepth d h).1⟩,
      fun h => (hdigits h).2, fun d h => (hdepth d h).2⟩
  · rintro ⟨⟨hfirst, hlow⟩, hsecond, hlow'⟩
    exact ⟨fun h => ⟨hfirst h, hsecond h⟩, fun d h => ⟨hlow d h, hlow' d h⟩⟩

theorem fits_leaf : b.Fits true 0 :=
  ⟨fun _ => rfl, fun _ _ => Nat.zero_le _⟩

mutual

/-- **A value is written without fault** exactly if it is low enough and its numbers
are short enough. -/
theorem fault?_eq_none_iff (b : Bounds) (v : Value) :
    b.fault? v = none ↔ b.Fits v.isWritable v.height := by
  cases v with
  | int n => simp [fault?, Fits, Value.isWritable, Value.height, Value.depth]
  | list items => exact inside_eq_none_iff fun b => faultOfItems?_eq_none_iff b items
  | obj fields => exact inside_eq_none_iff fun b => faultOfFields?_eq_none_iff b fields
  | null => exact iff_of_true rfl fits_leaf
  | bool _ => exact iff_of_true rfl fits_leaf
  | float _ => exact iff_of_true rfl fits_leaf
  | nan _ => exact iff_of_true rfl fits_leaf
  | str _ => exact iff_of_true rfl fits_leaf

theorem faultOfItems?_eq_none_iff (b : Bounds) (items : List Value) :
    b.faultOfItems? items = none ↔
      b.Fits (Value.areWritable items) (Value.depthOfItems 1 0 items) := by
  cases items with
  | nil => exact iff_of_true rfl fits_leaf
  | cons v rest =>
      rw [faultOfItems?, Option.or_eq_none_iff, Value.areWritable, Value.depthOfItems, fits_both,
        fault?_eq_none_iff b v, faultOfItems?_eq_none_iff b rest]
      rfl

theorem faultOfFields?_eq_none_iff (b : Bounds) (fields : List (String × Value)) :
    b.faultOfFields? fields = none ↔
      b.Fits (Value.areWritableFields fields) (Value.depthOfFields 1 0 fields) := by
  cases fields with
  | nil => exact iff_of_true rfl fits_leaf
  | cons field rest =>
      rw [faultOfFields?, Option.or_eq_none_iff, Value.areWritableFields, Value.depthOfFields,
        fits_both, fault?_eq_none_iff b field.2, faultOfFields?_eq_none_iff b rest]
      rfl

end

/-! ## Wider bounds -/

/-- Do the first bounds leave no more room than the second ones? -/
def IsWithin (b b' : Bounds) : Prop :=
  (b'.digits = true → b.digits = true) ∧
    ∀ most, b'.depth = some most → ∃ depth, b.depth = some depth ∧ depth ≤ most

theorem isWithin_self : b.IsWithin b :=
  ⟨id, fun most h => ⟨most, h, Nat.le_refl most⟩⟩

theorem isWithin_free : b.IsWithin free :=
  ⟨nofun, nofun⟩

theorem IsWithin.below (hwithin : b.IsWithin b') {less : Bounds} (h : b.below steps = .ok less) :
    ∃ less', b'.below steps = .ok less' ∧ less.IsWithin less' := by
  obtain ⟨hdigits, hdepth⟩ := below_eq_ok h
  have hroom : ∀ most, b'.depth = some most →
      ∃ depth, less.depth = some depth ∧ depth + steps ≤ most := by
    intro most hmost
    obtain ⟨depth, hb, hle⟩ := hwithin.2 most hmost
    cases hless : less.depth with
    | some left =>
        cases hb.symm.trans (hdepth left hless)
        exact ⟨left, rfl, hle⟩
    | none =>
        unfold Bounds.below at h
        rw [hb] at h
        dsimp only at h
        split at h
        · cases h
          cases hless
        · cases h
  obtain ⟨less', hless', hdigits', hdepth'⟩ := below_of_le b' steps fun most hmost =>
    (hroom most hmost).elim fun depth h => Nat.le_trans (Nat.le_add_left _ _) h.2
  refine ⟨less', hless', fun h => hdigits ▸ hwithin.1 (hdigits' ▸ h), fun left hleft => ?_⟩
  obtain ⟨depth, hless, hle⟩ := hroom (left + steps) ((below_eq_ok hless').2 left hleft)
  exact ⟨depth, hless, Nat.le_of_add_le_add_right hle⟩

theorem IsWithin.writes (hwithin : b.IsWithin b') {s : Scalar} (h : b.writes s = true) :
    b'.writes s = true := by
  unfold Bounds.writes at h ⊢
  cases hdigits : b'.digits with
  | false => rfl
  | true => simpa [hwithin.1 hdigits] using h

theorem IsWithin.fault? (hwithin : b.IsWithin b') {v : Value} (h : b.fault? v = none) :
    b'.fault? v = none := by
  obtain ⟨hdigits, hdepth⟩ := (b.fault?_eq_none_iff v).mp h
  refine (b'.fault?_eq_none_iff v).mpr ⟨fun h => hdigits (hwithin.1 h), fun most hmost => ?_⟩
  obtain ⟨depth, hb, hle⟩ := hwithin.2 most hmost
  exact Nat.le_trans (hdepth depth hb) hle

@[simp] theorem fault?_free (v : Value) : free.fault? v = none :=
  (fault?_eq_none_iff free v).mpr (And.intro nofun nofun)

@[simp] theorem check_free (v : Value) : free.check v = .ok () := by
  simp [check]

end Bounds

end NodeWeave
