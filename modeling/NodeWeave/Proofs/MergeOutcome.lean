import NodeWeave.Catalog.Merge

/-!
# What a merge leaves behind

A catalog document is read as a whole before the catalog changes, so a document
that cannot be read changes nothing.  That is not all that can go wrong: a loose
node type is filed under the category it names, and whether that value can name a
category is found out only then.  A list or an object cannot, and the merge ends
at such a type with all that came before it applied.  `merge_outcome` tells the
three ways apart, and `merge_not_atomic` gives a document that fails and leaves
its version behind.
-/

namespace NodeWeave.Catalog

variable {c filed : Catalog} {type : String} {t : NodeType} {fault : Fault}

/-- A loose type can be filed exactly when its category is a scalar. -/
theorem fileLoose_eq_none (h : c.fileLoose type t = (filed, none)) :
    t.category.scalar?.isSome = true := by
  unfold fileLoose at h
  split at h
  · cases h
  · rename_i name hname
    simp [hname]

/-- A loose type that cannot be filed changes nothing itself. -/
theorem fileLoose_eq_fault (h : c.fileLoose type t = (filed, some fault)) :
    t.category.scalar? = none ∧ fault = .unsuitable ∧ filed = c := by
  unfold fileLoose at h
  split at h
  · rename_i hname
    cases h
    exact ⟨hname, rfl, rfl⟩
  · cases h

theorem loaded_fileLoose (c : Catalog) (type : String) (t : NodeType) :
    (c.fileLoose type t).1.loaded = c.loaded := by
  unfold fileLoose
  split <;> rfl

/-- The catalog with all of a document but its loose types. -/
def outfit (c : Catalog) (d : CatalogDocument) : Catalog :=
  d.categories.foldl (fun c (name, k) => c.addCategory name k) { c with
    version := d.version.or c.version
    style := c.style.overlay d.style
    dataTypes := c.dataTypes.putAll d.dataTypes }

theorem loaded_outfit (c : Catalog) (d : CatalogDocument) : (c.outfit d).loaded = c.loaded := by
  unfold outfit
  refine foldl_induct (P := fun k : Catalog => k.loaded = c.loaded) ?_ ?_ d.categories
  · exact fun _ _ hk => hk
  · rfl

/-- Filing loose types leaves the mark of a merge to the end. -/
theorem loaded_runUntil (d : CatalogDocument) (loose : List (String × NodeType)) :
    (runUntil (fun c (type, t) => fileLoose c type t) (c.outfit d) loose).1.loaded = c.loaded := by
  refine runUntil_induct (P := fun k : Catalog => k.loaded = c.loaded) ?_ (loaded_outfit c d) loose
  intro k entry hk
  rw [loaded_fileLoose, hk]

/-- When all loose types could be filed their categories are scalars. -/
theorem scalar_of_runUntil {loose : List (String × NodeType)}
    (hrun : runUntil (fun c (type, t) => fileLoose c type t) c loose = (filed, none)) :
    ∀ entry ∈ loose, entry.2.category.scalar?.isSome = true := by
  intro entry hentry
  obtain ⟨before, after, hstep⟩ := exists_step_of_runUntil hrun hentry
  exact fileLoose_eq_none hstep

theorem overlay_eq (c : Catalog) (d : CatalogDocument) :
    c.overlay d = match runUntil (fun c (type, t) => fileLoose c type t) (c.outfit d) d.loose with
      | (c, some e) => (c, some e)
      | (c, none) => ({ c with loaded := true }, none) := rfl

variable {d : CatalogDocument}

theorem overlay_eq_none (h : c.overlay d = (filed, none)) :
    ∀ entry ∈ d.loose, entry.2.category.scalar?.isSome = true := by
  rw [overlay_eq] at h
  split at h
  · cases h
  · rename_i reached hrun
    exact scalar_of_runUntil hrun

/-- **Where a merge stops.**  It stops at a loose type whose category is no scalar,
with all that comes before it merged. -/
theorem overlay_eq_fault (h : c.overlay d = (filed, some fault)) :
    fault = .unsuitable ∧ ∃ front type t back merged, d.loose = front ++ (type, t) :: back ∧
      (∀ entry ∈ front, entry.2.category.scalar?.isSome = true) ∧ t.category.scalar? = none ∧
      c.overlay { d with loose := front } = (merged, none) ∧
      filed = { merged with loaded := c.loaded } := by
  rw [overlay_eq] at h
  split at h
  · rename_i reached e hrun
    cases h
    obtain ⟨front, ⟨type, t⟩, back, reached, hsplit, hfront, hstep⟩ := runUntil_eq_fault hrun
    obtain ⟨hname, rfl, rfl⟩ := fileLoose_eq_fault hstep
    have hloaded : filed.loaded = c.loaded := by
      simpa [hfront] using loaded_runUntil (c := c) d front
    have hmerged : c.overlay { d with loose := front } = ({ filed with loaded := true }, none) := by
      have hoverlay := overlay_eq c { d with loose := front }
      rwa [show runUntil _ (c.outfit { d with loose := front }) front = _ from hfront] at hoverlay
    exact ⟨rfl, front, type, t, back, _, hsplit, scalar_of_runUntil hfront, hname, hmerged,
      by rw [← hloaded]⟩
  · cases h

theorem merge_of_ofValue {doc : Value} (hread : CatalogDocument.ofValue doc = .ok d) :
    c.merge doc = c.overlay d := by
  simp only [merge, hread]

/-- A merge that fails with another fault than that of a category that is no
scalar changed nothing. -/
theorem merge_eq_fault {doc : Value} (h : c.merge doc = (filed, some fault)) :
    filed = c ∨ fault = .unsuitable := by
  cases hread : CatalogDocument.ofValue doc with
  | error e =>
      simp only [merge, hread] at h
      cases h
      exact Or.inl rfl
  | ok d =>
      rw [merge_of_ofValue hread] at h
      exact Or.inr (overlay_eq_fault h).1

/-- **What a merge does.**  A document that cannot be read changes nothing.  One
that can be read is merged when the category of every loose type is a scalar.
Otherwise the merge fails at the first loose type for which it is none, and the
catalog is as if the document ended there, except that it does not count as
loaded by this merge. -/
theorem merge_outcome (c : Catalog) (doc : Value) :
    (∃ fault, CatalogDocument.ofValue doc = .error fault ∧ c.merge doc = (c, some fault)) ∨
    (∃ d merged, CatalogDocument.ofValue doc = .ok d ∧
      (∀ entry ∈ d.loose, entry.2.category.scalar?.isSome = true) ∧
      c.merge doc = (merged, none)) ∨
    ∃ d front type t back merged, CatalogDocument.ofValue doc = .ok d ∧
      d.loose = front ++ (type, t) :: back ∧
      (∀ entry ∈ front, entry.2.category.scalar?.isSome = true) ∧ t.category.scalar? = none ∧
      c.overlay { d with loose := front } = (merged, none) ∧
      c.merge doc = ({ merged with loaded := c.loaded }, some .unsuitable) := by
  cases hread : CatalogDocument.ofValue doc with
  | error fault =>
      left
      exact ⟨fault, rfl, by simp only [merge, hread]⟩
  | ok d =>
      right
      rw [merge_of_ofValue hread]
      cases hoverlay : c.overlay d with
      | mk filed stop =>
          cases stop with
          | none => exact Or.inl ⟨d, filed, rfl, overlay_eq_none hoverlay, rfl⟩
          | some fault =>
              obtain ⟨rfl, front, type, t, back, merged, hsplit, hfront, hname, hmerged, rfl⟩ :=
                overlay_eq_fault hoverlay
              exact Or.inr ⟨d, front, type, t, back, merged, rfl, hsplit, hfront, hname, hmerged, rfl⟩

/-- A document with a version and a loose type whose category is a list. -/
def looseUnderList : Value :=
  .obj [("version", .str "2.0"),
    ("nodeTypes", .obj [("note", .obj [("category", .list [.str "text"])])])]

/-- **A failed merge may leave something behind:** the version of a document whose
loose type cannot be filed. -/
theorem merge_not_atomic :
    ¬ ∀ (c : Catalog) (doc : Value), (c.merge doc).2.isSome = true → (c.merge doc).1 = c := by
  intro hatomic
  have hsame := congrArg Catalog.version (hatomic {} looseUnderList rfl)
  have hversion : (Catalog.merge {} looseUnderList).1.version = some "2.0" := rfl
  rw [hversion] at hsame
  cases hsame

end NodeWeave.Catalog
