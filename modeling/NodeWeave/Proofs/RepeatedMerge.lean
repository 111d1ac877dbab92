import Mathlib.Data.List.Induction
import NodeWeave.Proofs.QuietMerge

/-!
# Merging a document again

Merging a document twice is merging it once.  The catalog is written by steps of which
a later one overrules an earlier one in the same place, and steps in different places
do not meet; so doing all steps again ends where they ended (`Overwrites.foldl_foldl`).
That holds of the data kinds and of the filings alike.  The nodes of the graph are in
step with the catalog after the first time, or it has no type for them, and the repair
left the links in order; so there is nothing to take over and nothing to remove.
-/

namespace NodeWeave

/-! ## Steps that overwrite -/

/-- **Steps that overwrite each other.**  `done` says that a step has a place in the
state already.  A step that has one hides an earlier step in the same place, and lets
one in another place come after it. -/
structure Overwrites {σ α : Type} (step : σ → α → σ) (done : σ → α → Prop) : Prop where
  does : ∀ s a, done (step s a) a
  keeps : ∀ s a b, done s a → done (step s b) a
  again : ∀ s a, step (step s a) a = step s a
  passes : ∀ s a b, done s b →
    step (step s a) b = step s b ∨ step (step s a) b = step (step s b) a

namespace Overwrites

variable {σ α : Type} {step : σ → α → σ} {done : σ → α → Prop}

theorem done_foldl (h : Overwrites step done) (xs : List α) (s : σ) :
    ∀ a ∈ xs, done (xs.foldl step s) a := by
  induction xs generalizing s with
  | nil =>
      intro a ha
      cases ha
  | cons b rest ih =>
      intro a ha
      rcases List.mem_cons.mp ha with rfl | hrest
      · exact foldl_induct (P := fun s => done s a) (fun s b => h.keeps s a b) (h.does s a) rest
      · exact ih (step s b) a hrest

/-- A step is not needed before others that have a place, when it comes after them. -/
theorem absorb (h : Overwrites step done) (a : α) {xs : List α} {s : σ}
    (hdone : ∀ b ∈ xs, done s b) :
    step (xs.foldl step (step s a)) a = step (xs.foldl step s) a := by
  induction xs generalizing s with
  | nil => exact h.again s a
  | cons b rest ih =>
      rw [List.foldl_cons, List.foldl_cons]
      rcases h.passes s a b (hdone b List.mem_cons_self) with hhides | hpasses
      · rw [hhides]
      · rw [hpasses]
        exact ih fun c hc => h.keeps s c b (hdone c (List.mem_cons_of_mem b hc))

/-- **Doing all steps again changes nothing.** -/
theorem foldl_foldl (h : Overwrites step done) (xs : List α) (s : σ) :
    xs.foldl step (xs.foldl step s) = xs.foldl step s := by
  induction xs using List.reverseRecOn with
  | nil => rfl
  | append_singleton xs a ih =>
      rw [List.foldl_append, List.foldl_append, List.foldl_cons, List.foldl_cons, List.foldl_nil,
        List.foldl_nil, h.absorb a (h.done_foldl xs s), ih]

end Overwrites

/-! ## The parts of a catalog -/

theorem DataTypes.overwrites :
    Overwrites (fun (types : DataTypes) (e : String × DataType) => types.put (.text e.1) e.2)
      fun types e => (Scalar.text e.1).key ∈ types.keys where
  does types e := ScalarTable.mem_keys_put.mpr (Or.inr rfl)
  keeps types e other hold := ScalarTable.mem_keys_put.mpr (Or.inl hold)
  again types e := ScalarTable.put_put types (.text e.1) e.2 e.2
  passes types e other hold := by
    by_cases hkind : e.1 = other.1
    · left
      rw [hkind, ScalarTable.put_put]
    · right
      have hkey : (Scalar.text e.1).key ≠ (Scalar.text other.1).key := by
        simpa [Scalar.key] using hkind
      exact ScalarTable.put_comm hkey hold e.2 other.2

theorem DataTypes.putAll_putAll (types : DataTypes) (entries : List (String × DataType)) :
    (types.putAll entries).putAll entries = types.putAll entries :=
  DataTypes.overwrites.foldl_foldl entries types

theorem CodeStyle.overlay_overlay (s : CodeStyle) (doc : Value) :
    (s.overlay doc).overlay doc = s.overlay doc := by
  have hpick : ∀ name old, pick doc name (pick doc name old) = pick doc name old := by
    intro name old
    unfold pick
    dsimp only
    split <;> rfl
  simp only [overlay, hpick]

namespace Filing

variable {f other : Filing} {categories : Table Key Category} {k : Category}

/-- Has the entry a place in the categories? -/
def HasPlace (categories : Table Key Category) (f : Filing) : Prop :=
  ∃ k, categories.get? f.name.key = some k ∧
    ∀ e, f.entry = some e → (k.types.get? e.1).isSome = true

theorem into_into (f : Filing) (k : Category) : f.into (f.into k) = f.into k := by
  unfold into
  cases f.entry with
  | none => rfl
  | some e => simp only [Table.put_put]

theorem get?_into {type : String} (h : (k.types.get? type).isSome = true) :
    ((f.into k).types.get? type).isSome = true := by
  unfold into
  split
  · exact h
  · rw [Table.get?_put]
    split
    · rfl
    · exact h

/-- Two entries under one category, of which the second has a place there. -/
theorem into_passes (hplace : ∀ e, other.entry = some e → (k.types.get? e.1).isSome = true) :
    other.into (f.into k) = other.into k ∨ other.into (f.into k) = f.into (other.into k) := by
  unfold into
  cases hf : f.entry with
  | none => exact Or.inl rfl
  | some e =>
      cases hother : other.entry with
      | none => exact Or.inr rfl
      | some e' =>
          by_cases htype : e.1 = e'.1
          · left
            simp only [htype, Table.put_put]
          · right
            simp only [Table.put_comm htype (hplace e' hother)]

theorem file_of_get? (hk : categories.get? f.name.key = some k) :
    file categories f = categories.put f.name.key (f.into k) := by
  rw [file, hk, Option.getD_some]

/-- Where the second entry has a place, the two are filed in one or the other way. -/
theorem file_passes (categories : Table Key Category) (f : Filing)
    (hplace : HasPlace categories other) :
    file (file categories f) other = file categories other ∨
      file (file categories f) other = file (file categories other) f := by
  obtain ⟨k, hk, htypes⟩ := hplace
  have hother := file_of_get? hk
  by_cases hkey : f.name.key = other.name.key
  · have hf : file categories f = categories.put other.name.key (f.into k) := by
      rw [← hkey] at hk ⊢
      exact file_of_get? hk
    have hboth : file (file categories f) other =
        categories.put other.name.key (other.into (f.into k)) := by
      rw [hf, file_of_get? (k := f.into k) (by rw [Table.get?_put, if_pos rfl]), Table.put_put]
    rcases into_passes (f := f) htypes with hhides | hpasses
    · left
      rw [hboth, hhides, hother]
    · right
      rw [hboth, hpasses, hother, file, hkey, Table.get?_put, if_pos rfl, Table.put_put,
        Option.getD_some]
  · right
    have hsome : (categories.get? other.name.key).isSome = true := by rw [hk]; rfl
    have hlater : (file categories f).get? other.name.key = some k := by
      rw [Catalog.get?_file, if_neg hkey, hk]
    rw [file_of_get? hlater, hother, file, Table.put_comm hkey hsome]
    simp only [file, Table.get?_put, if_neg (Ne.symm hkey)]

theorem overwrites : Overwrites file HasPlace where
  does categories f := by
    refine ⟨_, (Catalog.get?_file categories f _).trans (if_pos rfl), ?_⟩
    intro e he
    simp only [into, he, Table.get?_put, if_true, Option.isSome_some]
  keeps categories f other hplace := by
    obtain ⟨k, hk, htypes⟩ := hplace
    by_cases hkey : other.name.key = f.name.key
    · refine ⟨other.into k, ?_, fun e he => get?_into (htypes e he)⟩
      rw [Catalog.get?_file, if_pos hkey, hk, Option.getD_some]
    · exact ⟨k, by rw [Catalog.get?_file, if_neg hkey, hk], htypes⟩
  again categories f := by
    simp only [file, Table.get?_put, if_true, Option.getD_some, Table.put_put, into_into]
  passes categories f other hplace := file_passes categories f hplace

end Filing

namespace Catalog

variable {c merged : Catalog} {doc : Value}

/-- **A catalog takes a document over once.** -/
theorem overlay_overlay {d : CatalogDocument} (hoverlay : c.overlay d = (merged, none)) :
    merged.overlay d = (merged, none) := by
  have hscalars := overlay_eq_none hoverlay
  rw [overlay_of_scalars hscalars] at hoverlay
  cases hoverlay
  rw [overlay_of_scalars hscalars, CodeStyle.overlay_overlay, DataTypes.putAll_putAll,
    Filing.overwrites.foldl_foldl]
  cases d.version <;> rfl

theorem merge_merge (hmerge : c.merge doc = (merged, none)) : merged.merge doc = (merged, none) := by
  obtain ⟨d, hread, hoverlay⟩ := merge_eq_none hmerge
  rw [merge_of_ofValue hread, overlay_overlay hoverlay]

end Catalog

/-! ## The graph -/

namespace Graph.Recorded

variable {c : Catalog} {g : Graph}

/-- How the front of some nodes is passed by when the catalog has no type for it. -/
theorem syncNodes_cons_of_gone {n : Node} {rest done : List Node} {notices : List Notice}
    (hfind : c.find? n.category n.type = none) :
    syncNodes c (n :: rest) = (done, notices, none) ↔
      (n.id.isWritable && n.category.isWritable) = true ∧ ∃ others more,
        syncNodes c rest = (others, more, none) ∧ done = n :: others ∧
          notices = .typeGone n.id n.category n.type :: more := by
  simp only [syncNodes, hfind]
  split
  · rename_i hid
    constructor
    · intro h
      simp only [Prod.mk.injEq] at h
      obtain ⟨hdone, hnotices, hfault⟩ := h
      exact ⟨hid, _, _, by rw [← hfault], hdone.symm, hnotices.symm⟩
    · intro h
      obtain ⟨_, others, more, hrest, hdone, hnotices⟩ := h
      rw [hrest, hdone, hnotices]
  · rename_i hid
    constructor
    · intro h
      cases h
    · intro h
      exact absurd h.1 hid

/-- Nodes that took a catalog over take over nothing from it again. -/
theorem syncNodes_again {nodes done : List Node} {notices : List Notice}
    (h : syncNodes c nodes = (done, notices, none)) :
    ∃ later, syncNodes c done = (done, later, none) := by
  induction nodes generalizing done notices with
  | nil =>
      cases h
      exact ⟨[], rfl⟩
  | cons n rest ih =>
      cases hfind : c.find? n.category n.type with
      | none =>
          obtain ⟨hid, others, more, hrest, rfl, _⟩ := (syncNodes_cons_of_gone hfind).mp h
          obtain ⟨later, hlater⟩ := ih hrest
          exact ⟨_, (syncNodes_cons_of_gone hfind).mpr ⟨hid, others, later, hlater, rfl, rfl⟩⟩
      | some t =>
          obtain ⟨m, others, hsync, hrest, rfl⟩ := (syncNodes_cons_eq_ok hfind).mp h
          obtain ⟨t', hfind', hagrees⟩ := Node.InStep.of_sync hfind hsync
          obtain ⟨later, hlater⟩ := ih hrest
          exact ⟨later, (syncNodes_cons_eq_ok hfind').mpr ⟨m, others, hagrees.sync, hlater, rfl⟩⟩

/-- A graph that took a catalog over takes over nothing from it again. -/
theorem refresh_again {removed : List Link} (hok : (refresh c g).result = .ok removed) :
    (refresh c (refresh c g).state).state = (refresh c g).state ∧
      (refresh c (refresh c g).state).result = .ok [] := by
  cases hsync : syncNodes c g.nodes with
  | mk nodes rest =>
      obtain ⟨notices, fault⟩ := rest
      cases fault with
      | some fault =>
          simp only [refresh, hsync] at hok
          cases hok
      | none =>
          have hstate : (refresh c g).state = ({ g with nodes } : Graph).repair.1 := by
            simp only [refresh, hsync, repair_state]
          obtain ⟨later, hlater⟩ := syncNodes_again hsync
          -- the repair leaves the nodes as they are
          have hnodes : syncNodes c ({ g with nodes } : Graph).repair.1.nodes =
              (({ g with nodes } : Graph).repair.1.nodes, later, none) := hlater
          have hordered := repair_of_wellFormed (repair_wellFormed { g with nodes })
          have hagain : refresh c ({ g with nodes } : Graph).repair.1 =
              ⟨({ g with nodes } : Graph).repair.1, later, .ok []⟩ := by
            simp only [refresh, hnodes, hordered, List.append_nil]
          rw [hstate, hagain]
          exact ⟨rfl, rfl⟩

end Graph.Recorded

namespace Editor

/-- **Merging a document again changes nothing.**  Whatever the editor holds, a document
that was merged without a fault is merged again without one: no link is removed, and
the catalog and the graph stay as they are, with all that is in them and its order. -/
theorem addCatalog_again {e : Editor} {doc : Value} {removed : List Link}
    (hok : (e.addCatalog doc).result = .ok removed) :
    ((e.addCatalog doc).state.addCatalog doc).state = (e.addCatalog doc).state ∧
      ((e.addCatalog doc).state.addCatalog doc).result = .ok [] := by
  cases hmerge : e.catalog.merge doc with
  | mk merged fault =>
      cases fault with
      | some fault =>
          simp only [addCatalog, hmerge] at hok
          cases hok
      | none =>
          have hfirst : (e.addCatalog doc).state = { e with
              catalog := merged, graph := (Graph.Recorded.refresh merged e.graph).state } := by
            simp only [addCatalog, hmerge]
          simp only [addCatalog, hmerge] at hok
          obtain ⟨hstate, hresult⟩ := Graph.Recorded.refresh_again hok
          rw [hfirst]
          refine ⟨?_, ?_⟩
          · simp only [addCatalog, Catalog.merge_merge hmerge, hstate]
          · simp only [addCatalog, Catalog.merge_merge hmerge, hresult]

/-- The nodes of `widened`, one more of a type that no catalog has, and a link besides
theirs that leads to no node. -/
def unruly : Editor :=
  let e := runAll {} widened
  let lost : Node := { (default : Node) with id := .int 5, category := .text "lost", type := "pass" }
  { e with graph := { e.graph with
      nodes := e.graph.nodes ++ [lost]
      links := e.graph.links ++ [⟨.int 7, ⟨.int 1, .output, 0⟩, ⟨.int 9, .input, 0⟩⟩] } }

/-- Two definitions of one type, of which the second has another kind of input. -/
def retypedCatalog : Value :=
  let type (kind : String) : List (String × Value) :=
    [("inputs", .list [.obj [("type", .str kind)]]), ("outputs", .list [.obj [("type", .str "exec")]])]
  .obj [("nodeCategories", .obj [("flow", .obj [("nodes", .obj [("pass", .obj (type "exec"))])])]),
    ("nodeTypes", .obj [("pass", .obj (("category", .str "flow") :: type "number"))])]

/-- Both links go the first time, and nothing changes the second time. -/
theorem addCatalog_again_unruly :
    ∃ removed, (unruly.addCatalog retypedCatalog).result = .ok removed ∧ removed.length = 2 ∧
      ((unruly.addCatalog retypedCatalog).state.addCatalog retypedCatalog).state =
        (unruly.addCatalog retypedCatalog).state ∧
      ((unruly.addCatalog retypedCatalog).state.addCatalog retypedCatalog).result = .ok [] := by
  have hlength : ((unruly.addCatalog retypedCatalog).result.map List.length).toOption = some 2 := by
    decide +kernel
  obtain ⟨removed, hok, hlength⟩ := map_eq_ok (eq_ok_of_toOption hlength)
  exact ⟨removed, hok, hlength, addCatalog_again hok⟩

end Editor

end NodeWeave
