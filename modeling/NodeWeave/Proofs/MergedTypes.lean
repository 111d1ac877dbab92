import NodeWeave.Proofs.Filing

/-!
# Node types after a merge

A catalog is read through `find?` alone, by the program and by the nodes of a graph.
A merge is a run of filings, of which the last one for a type counts (`find?_overlay`).
Two facts about whole documents follow.  A type stays where it is unless the document
defines one in its place (`find?_merge_of_not_defines`), and no type is ever lost
(`find?_merge_isSome`).
-/

namespace NodeWeave

/-- Does the list have a type with this name? -/
def CategoryDocument.lists (d : CategoryDocument) (type : String) : Bool :=
  d.types.any fun entry => entry.1 == type

/-- Does the document define the type under a category and a name?  A loose type
stands under the category that it names, or else the default one. -/
def CatalogDocument.defines (d : CatalogDocument) (category : Scalar) (type : String) : Bool :=
  (d.categories.any fun (name, k) => (Scalar.text name).same category && k.lists type) ||
    d.loose.any fun (name, t) => name == type && (t.category.scalar?.any fun k => k.same category)

namespace Catalog

variable {c merged : Catalog} {category : Scalar} {type : String} {doc : Value}

/-- Does the document, if it can be read, define the type? -/
def documentDefines (doc : Value) (category : Scalar) (type : String) : Bool :=
  match CatalogDocument.ofValue doc with
  | .ok d => d.defines category type
  | .error _ => false

/-- A merge that goes well reads the document and adds what it says. -/
theorem merge_eq_none (hmerge : c.merge doc = (merged, none)) :
    ∃ d, CatalogDocument.ofValue doc = .ok d ∧ c.overlay d = (merged, none) := by
  cases hread : CatalogDocument.ofValue doc with
  | error fault =>
      simp only [merge, hread] at hmerge
      cases hmerge
  | ok d =>
      rw [merge_of_ofValue hread] at hmerge
      exact ⟨d, rfl, hmerge⟩

/-- What is found after a document was merged. -/
theorem find?_overlay {d : CatalogDocument} (hoverlay : c.overlay d = (merged, none))
    (category : Scalar) (type : String) :
    merged.find? category type =
      (d.filings.reverse.findSome? fun f => f.defines? category.key type).or
        (c.find? category type) := by
  rw [overlay_of_scalars (overlay_eq_none hoverlay)] at hoverlay
  cases hoverlay
  exact typeIn_foldl d.filings c.categories category.key type

/-- Nothing is filed for a type that the document does not define. -/
theorem defines?_eq_none {d : CatalogDocument} (hdefines : d.defines category type = false) :
    ∀ f ∈ d.filings, f.defines? category.key type = none := by
  simp only [CatalogDocument.defines, Bool.or_eq_false_iff, List.any_eq_false, Bool.and_eq_true,
    not_and, Bool.not_eq_true, Scalar.same_iff, beq_iff_eq] at hdefines
  obtain ⟨hlisted, hloose⟩ := hdefines
  intro f hf
  cases hfound : f.defines? category.key type with
  | none => rfl
  | some t =>
      exfalso
      obtain ⟨hkey, hentry⟩ := Filing.defines?_eq_some.mp hfound
      rcases List.mem_append.mp hf with hcategory | hfiled
      · obtain ⟨⟨name, k⟩, hk, hf⟩ := List.mem_flatMap.mp hcategory
        rcases List.mem_cons.mp hf with rfl | hf
        · cases hentry
        · obtain ⟨entry, hmem, rfl⟩ := List.mem_map.mp hf
          have hne := hlisted (name, k) hk hkey
          simp only [CategoryDocument.lists, List.any_eq_false, beq_iff_eq] at hne
          exact hne entry hmem (congrArg Prod.fst (Option.some.inj hentry))
      · obtain ⟨⟨name, filed⟩, hmem, hf⟩ := List.mem_filterMap.mp hfiled
        obtain ⟨scalar, hscalar, rfl⟩ := Option.map_eq_some_iff.mp hf
        have hother := hloose (name, filed) hmem (congrArg Prod.fst (Option.some.inj hentry))
        rw [hscalar, Option.any_some] at hother
        exact Bool.eq_false_iff.mp hother (Scalar.same_iff.mpr hkey)

/-- **A type stays where it is** unless the document defines one in its place. -/
theorem find?_merge_of_not_defines (hmerge : c.merge doc = (merged, none))
    (hdefines : documentDefines doc category type = false) :
    merged.find? category type = c.find? category type := by
  obtain ⟨d, hread, hoverlay⟩ := merge_eq_none hmerge
  rw [documentDefines, hread] at hdefines
  have hnone : (d.filings.reverse.findSome? fun f => f.defines? category.key type) = none :=
    List.findSome?_eq_none_iff.mpr fun f hf =>
      defines?_eq_none hdefines f (List.mem_reverse.mp hf)
  rw [find?_overlay hoverlay, hnone, Option.none_or]

/-- **No type is lost** by a merge. -/
theorem find?_merge_isSome (hmerge : c.merge doc = (merged, none))
    (hfound : (c.find? category type).isSome = true) :
    (merged.find? category type).isSome = true := by
  obtain ⟨d, _, hoverlay⟩ := merge_eq_none hmerge
  rw [find?_overlay hoverlay, Option.isSome_or, hfound, Bool.or_true]

end Catalog

end NodeWeave
