/-!
# Tables in insertion order

A table lists its entries in the order in which their keys first came.  Putting
a value under a key that is already there keeps the place of the entry and
changes only the value, so the order of a table never depends on how often an
entry was overwritten.
-/

namespace NodeWeave

/-- Entries `(key, value)` in the order in which the keys first came. -/
abbrev Table (κ : Type) (α : Type) := List (κ × α)

namespace Table

variable {κ α : Type} [DecidableEq κ]

/-- The value under a key. -/
def get? : Table κ α → κ → Option α
  | [], _ => none
  | (k, a) :: rest, key => if k = key then some a else get? rest key

/-- Is there an entry under this key? -/
def has (t : Table κ α) (key : κ) : Bool :=
  (t.get? key).isSome

/-- Sets the value under a key: in place when the key is there, at the end
otherwise. -/
def put : Table κ α → κ → α → Table κ α
  | [], key, a => [(key, a)]
  | (k, b) :: rest, key, a =>
    if k = key then (k, a) :: rest else (k, b) :: put rest key a

/-- Puts the entries of a list one after the other. -/
def putAll (t : Table κ α) (entries : List (κ × α)) : Table κ α :=
  entries.foldl (fun t e => t.put e.1 e.2) t

/-- Drops the entry under a key. -/
def drop (t : Table κ α) (key : κ) : Table κ α :=
  t.filter (fun e => decide (e.1 ≠ key))

/-- The keys in order. -/
def keys (t : Table κ α) : List κ :=
  t.map (·.1)

/-- The values in order. -/
def values (t : Table κ α) : List α :=
  t.map (·.2)

theorem put_cons_self {entry : κ × α} {key : κ} (hkey : entry.1 = key) (rest : Table κ α) (a : α) :
    put (entry :: rest) key a = (key, a) :: rest := by
  simp [put, hkey]

theorem put_cons_of_ne {entry : κ × α} {key : κ} (hkey : entry.1 ≠ key) (rest : Table κ α) (a : α) :
    put (entry :: rest) key a = entry :: put rest key a := by
  simp [put, hkey]

/-- What is found after a value is put under a key. -/
theorem get?_put (t : Table κ α) (key other : κ) (a : α) :
    (t.put key a).get? other = if key = other then some a else t.get? other := by
  induction t with
  | nil => rfl
  | cons entry rest ih =>
      by_cases hkey : entry.1 = key
      · subst hkey
        by_cases hother : entry.1 = other <;> simp [put, get?, hother]
      · rw [put_cons_of_ne hkey, get?, ih, get?]
        by_cases hother : entry.1 = other
        · have hne : key ≠ other := by
            intro heq
            exact hkey (hother.trans heq.symm)
          rw [if_pos hother, if_pos hother, if_neg hne]
        · rw [if_neg hother, if_neg hother]

/-- The last of two values under one key stays. -/
theorem put_put (t : Table κ α) (key : κ) (a b : α) : (t.put key a).put key b = t.put key b := by
  induction t with
  | nil => simp [put]
  | cons entry rest ih =>
      by_cases hkey : entry.1 = key
      · simp [put, hkey]
      · simp [put, hkey, ih]

/-- A value under a key that is there can be put before one under another key. -/
theorem put_comm {t : Table κ α} {key other : κ} (hne : key ≠ other)
    (hold : (t.get? other).isSome = true) (a b : α) :
    (t.put key a).put other b = (t.put other b).put key a := by
  induction t with
  | nil => cases hold
  | cons entry rest ih =>
      by_cases hkey : entry.1 = key
      · simp [put, hkey, hne]
      · by_cases hother : entry.1 = other
        · simp [put, hother, Ne.symm hne]
        · have hrest : (get? rest other).isSome = true := by simpa [get?, hother] using hold
          simp [put, hkey, hother, ih hrest]

/-- The keys that are there keep their order. -/
theorem keys_sublist_put (t : Table κ α) (key : κ) (a : α) :
    t.keys.Sublist (t.put key a).keys := by
  induction t with
  | nil => exact List.nil_sublist _
  | cons entry rest ih =>
      by_cases hkey : entry.1 = key
      · rw [put_cons_self hkey, ← hkey]
        exact List.Sublist.refl _
      · rw [put_cons_of_ne hkey]
        exact ih.cons_cons entry.1

/-- What is found stands in the table. -/
theorem mem_of_get? {t : Table κ α} {key : κ} {a : α} (h : t.get? key = some a) : (key, a) ∈ t := by
  induction t with
  | nil => cases h
  | cons entry rest ih =>
      by_cases hkey : entry.1 = key
      · subst hkey
        have ha : entry.2 = a := by simpa [get?] using h
        rw [← ha]
        exact List.mem_cons_self
      · have hrest : get? rest key = some a := by simpa [get?, hkey] using h
        exact List.mem_cons_of_mem entry (ih hrest)

/-- What stands in a table after a value was put. -/
theorem mem_put {t : Table κ α} {key : κ} {a : α} {e : κ × α} (h : e ∈ t.put key a) :
    e ∈ t ∨ e = (key, a) := by
  induction t with
  | nil => exact Or.inr (List.mem_singleton.mp h)
  | cons entry rest ih =>
      by_cases hkey : entry.1 = key
      · rw [put_cons_self hkey] at h
        rcases List.mem_cons.mp h with hnew | hold
        · exact Or.inr hnew
        · exact Or.inl (List.mem_cons_of_mem entry hold)
      · rw [put_cons_of_ne hkey] at h
        rcases List.mem_cons.mp h with hfirst | hrest
        · exact Or.inl (hfirst ▸ List.mem_cons_self)
        · rcases ih hrest with hold | hnew
          · exact Or.inl (List.mem_cons_of_mem entry hold)
          · exact Or.inr hnew

/-- Putting a value gives no key twice. -/
theorem nodup_keys_put {t : Table κ α} (h : t.keys.Nodup) (key : κ) (a : α) :
    (t.put key a).keys.Nodup := by
  induction t with
  | nil => simp [put, keys]
  | cons entry rest ih =>
      have hparts := List.nodup_cons.mp h
      by_cases hkey : entry.1 = key
      · rw [put_cons_self hkey, ← hkey]
        exact h
      · rw [put_cons_of_ne hkey]
        refine List.nodup_cons.mpr ⟨?_, ih hparts.2⟩
        intro hmem
        obtain ⟨e, he, heq⟩ := List.mem_map.mp hmem
        rcases mem_put he with hold | hnew
        · exact hparts.1 (List.mem_map.mpr ⟨e, hold, heq⟩)
        · exact hkey (heq.symm.trans (congrArg Prod.fst hnew))

end Table

/-- Updates the elements of a list in order until one update fails.  The
element that failed keeps what its update had done, the later ones stay as they
were, and the failure is handed on. -/
def updateUntil {α ε : Type} (f : Nat → α → α × Option ε) (i : Nat) : List α → List α × Option ε
  | [] => ([], none)
  | a :: rest =>
    match f i a with
    | (b, some e) => (b :: rest, some e)
    | (b, none) =>
      let (rest', e) := updateUntil f (i + 1) rest
      (b :: rest', e)

/-- Runs a step for each element in order until one fails, keeping the state
that was reached. -/
def runUntil {σ α ε : Type} (step : σ → α → σ × Option ε) (s : σ) : List α → σ × Option ε
  | [] => (s, none)
  | a :: rest =>
    match step s a with
    | (s', some e) => (s', some e)
    | (s', none) => runUntil step s' rest

section Runs

variable {σ α ε : Type} {step : σ → α → σ × Option ε} {s s' : σ} {xs : List α}

/-- What every step keeps, a run of steps keeps, also when it stops at a fault. -/
theorem runUntil_induct_of_mem {P : σ → Prop} (hstep : ∀ s, ∀ a ∈ xs, P s → P (step s a).1)
    (hs : P s) : P (runUntil step s xs).1 := by
  induction xs generalizing s with
  | nil => exact hs
  | cons a rest ih =>
      have ha := hstep s a List.mem_cons_self hs
      have hlater : ∀ s, ∀ b ∈ rest, P s → P (step s b).1 :=
        fun s b hb => hstep s b (List.mem_cons_of_mem a hb)
      unfold runUntil
      split
      · rename_i s' e hrun
        rwa [hrun] at ha
      · rename_i s' hrun
        rw [hrun] at ha
        exact ih hlater ha

theorem runUntil_induct {P : σ → Prop} (hstep : ∀ s a, P s → P (step s a).1) (hs : P s)
    (xs : List α) : P (runUntil step s xs).1 :=
  runUntil_induct_of_mem (fun s a _ => hstep s a) hs

/-- In a run without a fault every step went well. -/
theorem exists_step_of_runUntil (hrun : runUntil step s xs = (s', none)) {a : α} (ha : a ∈ xs) :
    ∃ before after, step before a = (after, none) := by
  induction xs generalizing s with
  | nil => cases ha
  | cons b rest ih =>
      unfold runUntil at hrun
      split at hrun
      · cases hrun
      · rename_i next hstep
        rcases List.mem_cons.mp ha with rfl | hrest
        · exact ⟨s, next, hstep⟩
        · exact ih hrun hrest

/-- **Where a run stops.**  A run with a fault went well up to an element, and
the step for that one failed. -/
theorem runUntil_eq_fault {fault : ε} (hrun : runUntil step s xs = (s', some fault)) :
    ∃ front a back reached, xs = front ++ a :: back ∧ runUntil step s front = (reached, none) ∧
      step reached a = (s', some fault) := by
  induction xs generalizing s with
  | nil => cases hrun
  | cons b rest ih =>
      unfold runUntil at hrun
      split at hrun
      · rename_i next e hstep
        cases hrun
        exact ⟨[], b, rest, s, rfl, rfl, hstep⟩
      · rename_i next hstep
        obtain ⟨front, a, back, reached, hsplit, hfront, hfault⟩ := ih hrun
        refine ⟨b :: front, a, back, reached, by rw [hsplit, List.cons_append], ?_, hfault⟩
        simp only [runUntil, hstep, hfront]

/-- What every single update keeps, a run of updates keeps, also when it stops
early. -/
theorem map_updateUntil {β : Type} {update : Nat → α → α × Option ε} (f : α → β)
    (hf : ∀ i a, f (update i a).1 = f a) (i : Nat) (xs : List α) :
    (updateUntil update i xs).1.map f = xs.map f := by
  induction xs generalizing i with
  | nil => rfl
  | cons a rest ih =>
      have ha := hf i a
      unfold updateUntil
      split
      · rename_i b e hupdate
        simp_all
      · rename_i b hupdate
        simp_all

/-- An update that stops was stopped by the update of one of the elements. -/
theorem updateUntil_eq_fault {update : Nat → α → α × Option ε} {i : Nat} {fault : ε}
    (h : (updateUntil update i xs).2 = some fault) :
    ∃ j a, i ≤ j ∧ j < i + xs.length ∧ (update j a).2 = some fault := by
  induction xs generalizing i with
  | nil => cases h
  | cons a rest ih =>
      unfold updateUntil at h
      split at h
      · rename_i b e hupdate
        have hlt : i < i + (a :: rest).length := by simp
        exact ⟨i, a, Nat.le_refl i, hlt, by rw [hupdate, ← h]⟩
      · obtain ⟨j, c, hle, hlt, hfault⟩ := ih h
        refine ⟨j, c, by omega, ?_, hfault⟩
        rw [List.length_cons]
        omega

/-- Updates that change no element change nothing. -/
theorem updateUntil_eq_self {update : Nat → α → α × Option ε} {i : Nat}
    (h : ∀ j a, xs[j]? = some a → update (i + j) a = (a, none)) :
    updateUntil update i xs = (xs, none) := by
  induction xs generalizing i with
  | nil => rfl
  | cons a rest ih =>
      have ha : update i a = (a, none) := h 0 a rfl
      have hrest : updateUntil update (i + 1) rest = (rest, none) := by
        apply ih
        intro j b hb
        have hplace : i + 1 + j = i + (j + 1) := by omega
        rw [hplace]
        exact h (j + 1) b hb
      simp only [updateUntil, ha, hrest]

/-- After updates that went well each element is the update of the one that was in
its place. -/
theorem getElem?_updateUntil {update : Nat → α → α × Option ε} {i : Nat} {ys : List α}
    (h : updateUntil update i xs = (ys, none)) {j : Nat} {b : α} (hb : ys[j]? = some b) :
    ∃ a, xs[j]? = some a ∧ update (i + j) a = (b, none) := by
  induction xs generalizing i j ys with
  | nil =>
      cases h
      cases hb
  | cons a rest ih =>
      unfold updateUntil at h
      split at h
      · cases h
      · rename_i first hfirst
        cases hrest : updateUntil update (i + 1) rest with
        | mk done fault =>
            rw [hrest] at h
            cases h
            cases j with
            | zero =>
                cases hb
                exact ⟨a, rfl, hfirst⟩
            | succ j =>
                obtain ⟨old, hold, hupdate⟩ := ih hrest hb
                have hplace : i + (j + 1) = i + 1 + j := by omega
                exact ⟨old, hold, by rw [hplace, hupdate]⟩

/-- What every step keeps, a fold keeps. -/
theorem foldl_induct {step : σ → α → σ} {P : σ → Prop} (hstep : ∀ s a, P s → P (step s a))
    (hs : P s) (xs : List α) : P (xs.foldl step s) := by
  induction xs generalizing s with
  | nil => exact hs
  | cons a rest ih => exact ih (hstep s a hs)

end Runs

end NodeWeave
