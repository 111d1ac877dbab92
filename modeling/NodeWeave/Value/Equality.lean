import NodeWeave.Number
import NodeWeave.Value

/-!
# When two values are the same

Numbers are compared as numbers, whatever their kind; a truth value counts as 0
or 1; objects are compared without regard to the order of their fields.  NaN is
not the same as anything, not even as itself; but parts of lists and objects, and
names in tables, meet when they are one and the same NaN, which its mark tells.

`Scalar.key` is a normal form for scalars as names, so that tables keyed by
scalars can be searched by plain equality of keys.
-/

namespace NodeWeave

/-- The normal form of a scalar that names an entry. -/
inductive Key where
  | null
  | whole (n : Int)
  | fraction (bits : UInt64)
  | nan (mark : Nat)
  | text (s : String)
  deriving DecidableEq

/-- The key of a scalar: truth values and whole doubles are whole numbers. -/
def Scalar.key : Scalar → Key
  | .null => .null
  | .bool b => .whole (if b then 1 else 0)
  | .int n => .whole n
  | .float f =>
    match Binary64.whole? f with
    | some n => .whole n
    | none => .fraction f.toBits
  | .nan mark => .nan mark
  | .text s => .text s

/-- Do two scalars name the same entry? -/
def Scalar.same (a b : Scalar) : Bool :=
  decide (a.key = b.key)

@[simp] theorem Scalar.same_refl (a : Scalar) : a.same a = true := by
  simp [Scalar.same]

theorem Scalar.same_iff {a b : Scalar} : a.same b = true ↔ a.key = b.key := by
  simp [Scalar.same]

namespace Value

/-- The number that a value is; truth values count as 0 and 1. -/
def number? : Value → Option Number
  | bool b => some (.int (if b then 1 else 0))
  | int n => some (.int n)
  | float f => some (.real f)
  | nan _ => some (.real (0 / 0))
  | _ => none

/-- A number as a value. -/
def ofNumber : Number → Value
  | .int n => int n
  | .real f => float f

/-- Are both values one and the same NaN? -/
def sameNan : Value → Value → Bool
  | nan a, nan b => a == b
  | _, _ => false

mutual

/-- Have the two values the same contents? -/
def same : Value → Value → Bool
  | null, null => true
  | str s, str t => s == t
  | list xs, list ys => sameItems xs ys
  | obj xs, obj ys => xs.length == ys.length && sameFields xs ys
  | bool b, w => sameNumber (bool b) w
  | int n, w => sameNumber (int n) w
  | float f, w => sameNumber (float f) w
  | _, _ => false
where
  sameNumber (v w : Value) : Bool :=
    match v.number?, w.number? with
    | some a, some b => a.eq b
    | _, _ => false

/-- Are the items the same, one by one? -/
def sameItems : List Value → List Value → Bool
  | [], [] => true
  | x :: xs, y :: ys => (x.sameNan y || x.same y) && sameItems xs ys
  | _, _ => false

/-- Has each of these fields the same contents in the other object? -/
def sameFields : List (String × Value) → List (String × Value) → Bool
  | [], _ => true
  | (k, x) :: xs, ys =>
    (match Table.get? ys k with
      | some y => x.sameNan y || x.same y
      | none => false) && sameFields xs ys

end

end Value

/-- Entries `(key, value)` in the order in which the keys first came, where
scalars with the same key are one key. -/
abbrev ScalarTable (α : Type) := List (Scalar × α)

namespace ScalarTable

variable {α : Type}

/-- The value under a scalar. -/
def get? (t : ScalarTable α) (k : Scalar) : Option α :=
  (t.find? fun e => e.1.same k).map (·.2)

/-- Sets the value under a scalar: an entry with the same key keeps its place
and its spelling. -/
def put : ScalarTable α → Scalar → α → ScalarTable α
  | [], k, a => [(k, a)]
  | (k', a') :: rest, k, a => if k'.same k then (k', a) :: rest else (k', a') :: put rest k a

/-- The keys in order. -/
def keys (t : ScalarTable α) : List Key :=
  t.map fun e => e.1.key

theorem mem_keys_put {t : ScalarTable α} {k : Scalar} {a : α} {key : Key} :
    key ∈ (t.put k a).keys ↔ key ∈ t.keys ∨ key = k.key := by
  induction t with
  | nil => simp [put, keys]
  | cons entry rest ih =>
      by_cases hkey : entry.1.key = k.key
      · have hput : put (entry :: rest) k a = (entry.1, a) :: rest := by
          simp [put, Scalar.same, hkey]
        have hmem : k.key ∈ keys (entry :: rest) := hkey ▸ List.mem_cons_self
        rw [hput]
        constructor
        · exact Or.inl
        · intro h
          rcases h with hold | rfl
          · exact hold
          · exact hmem
      · have hput : put (entry :: rest) k a = entry :: put rest k a := by
          simp [put, Scalar.same, hkey]
        rw [hput, keys, List.map_cons, List.mem_cons, ← keys, ih, keys, keys, List.map_cons,
          List.mem_cons, or_assoc]

/-- The last of two values under one scalar stays. -/
theorem put_put (t : ScalarTable α) (k : Scalar) (a b : α) : (t.put k a).put k b = t.put k b := by
  induction t with
  | nil => simp [put]
  | cons entry rest ih =>
      by_cases hkey : entry.1.same k = true
      · simp [put, hkey]
      · simp [put, hkey, ih]

/-- A value under a scalar that is there can be put before one under another scalar. -/
theorem put_comm {t : ScalarTable α} {k other : Scalar} (hne : k.key ≠ other.key)
    (hold : other.key ∈ t.keys) (a b : α) :
    (t.put k a).put other b = (t.put other b).put k a := by
  induction t with
  | nil => cases hold
  | cons entry rest ih =>
      by_cases hkey : entry.1.key = k.key
      · simp [put, Scalar.same, hkey, hne]
      · by_cases hother : entry.1.key = other.key
        · simp [put, Scalar.same, hother, Ne.symm hne]
        · have hrest : other.key ∈ keys rest := by
            rcases List.mem_cons.mp hold with heq | hmem
            · exact absurd heq.symm hother
            · exact hmem
          simp [put, Scalar.same, hkey, hother, ih hrest]

end ScalarTable

end NodeWeave
