import NodeWeave.Proofs.DepthLimit
import NodeWeave.Proofs.HalfFree
import NodeWeave.Proofs.LoadAccount
import NodeWeave.Proofs.MergeOverlay
import NodeWeave.Proofs.NodeSync

/-!
# From the texts of documents to a program

The templates of a catalog, its comment mark and the first values of its types are parts
of the documents that were merged, and the values of the nodes are parts of those or of
the graph document.  So a test that all texts of the documents pass is passed by all
texts that a program is made from: `Catalog.TextsIn` is kept by every merge, and a loaded
graph has its values from the document or from the catalog (`values_loadWithin`).

For the test whether a text keeps no half this gives a program that can be written
(`isHalfFree_source`).
-/

namespace NodeWeave

namespace Value

variable {ok : String → Bool} {v w : Value} {name : String}

theorem allTexts_list {items : List Value} :
    (Value.list items).allTexts ok = true ↔ ∀ v ∈ items, v.allTexts ok = true := by
  rw [allTexts]
  induction items with
  | nil => simp [allTextsInItems]
  | cons v rest ih => simp [allTextsInItems, ih]

theorem allTexts_obj {fields : List (String × Value)} :
    (Value.obj fields).allTexts ok = true ↔
      ∀ e ∈ fields, ok e.1 = true ∧ e.2.allTexts ok = true := by
  rw [allTexts]
  induction fields with
  | nil => simp [allTextsInFields]
  | cons e rest ih => simp [allTextsInFields, ih]

theorem allTexts_field? (hv : v.allTexts ok = true) (hfield : v.field? name = some w) :
    w.allTexts ok = true := by
  unfold field? at hfield
  split at hfield
  · exact (allTexts_obj.mp hv (name, w) (Table.mem_of_get? hfield)).2
  · cases hfield

theorem allTexts_field (hv : v.allTexts ok = true) (name : String) :
    (v.field name).allTexts ok = true := by
  unfold field
  cases hfield : v.field? name with
  | none => rfl
  | some w => exact allTexts_field? hv hfield

theorem allTexts_orElse (hv : v.allTexts ok = true) (hw : w.allTexts ok = true) :
    (v.orElse w).allTexts ok = true := by
  unfold orElse
  split
  · exact hv
  · exact hw

/-- The fields of an object or of nothing. -/
theorem allTexts_of_fields {fields : List (String × Value)} (hv : v.allTexts ok = true)
    (hfields : (v.orElse (.obj [])).fields = .ok fields) :
    ∀ e ∈ fields, e.2.allTexts ok = true := by
  have hobj : (v.orElse (.obj [])).allTexts ok = true := allTexts_orElse hv rfl
  rw [CatalogDocument.fields_eq_ok hfields] at hobj
  exact fun e he => (allTexts_obj.mp hobj e he).2

end Value

theorem mem_of_mapM {ε α β : Type} {f : α → Except ε β} {xs : List α} {ys : List β}
    (h : xs.mapM f = .ok ys) {b : β} (hb : b ∈ ys) : ∃ a ∈ xs, f a = .ok b := by
  obtain ⟨i, hi⟩ := List.mem_iff_getElem?.mp hb
  obtain ⟨a, ha, hf⟩ := getElem?_of_mapM h hi
  exact ⟨a, List.mem_of_getElem? ha, hf⟩

/-! ## Node types -/

/-- The texts that a node type gives to programs pass a test. -/
structure NodeType.TextsIn (ok : String → Bool) (t : NodeType) : Prop where
  codes : ∀ d ∈ t.inputs ++ t.outputs, ∀ code, d.code = some code → ok code = true
  slot : ∀ s, t.slot = some s → s.default.allTexts ok = true

namespace NodeType

variable {ok : String → Bool} {v category : Value} {t : NodeType}

theorem codes_of_readPorts {ports : List PortDef} (hv : v.allTexts ok = true)
    (hread : readPorts v = .ok ports) :
    ∀ d ∈ ports, ∀ code, d.code = some code → ok code = true := by
  intro d hd code hcode
  unfold readPorts at hread
  split at hread
  · obtain ⟨items, hitems, hread⟩ := bind_eq_ok hread
    obtain ⟨w, hw, hport⟩ := mem_of_mapM hread hd
    -- only an object is a port, and only a list has objects for its items
    have htexts : w.allTexts ok = true := by
      cases v with
      | list own =>
          cases hitems
          exact Value.allTexts_list.mp hv w hw
      | str s =>
          cases hitems
          obtain ⟨piece, _, rfl⟩ := List.mem_map.mp hw
          cases hport
      | obj fields =>
          cases hitems
          obtain ⟨field, _, rfl⟩ := List.mem_map.mp hw
          cases hport
      | _ => cases hitems
    unfold PortDef.ofValue at hport
    split at hport
    · cases hport
    · split at hport
      · cases hport
        dsimp only at hcode
        split at hcode
        · rename_i s hfield
          cases hcode
          have hs := Value.allTexts_field htexts "code"
          rwa [hfield, Value.allTexts] at hs
        · cases hcode
      · cases hport
  · cases hread
    cases hd

/-- The parts that are read of a node type. -/
theorem parts_of_ofValue (hread : ofValue v category = .ok t) :
    readPorts (v.field "inputs") = .ok t.inputs ∧ readPorts (v.field "outputs") = .ok t.outputs ∧
      ∀ s, t.slot = some s → ValueSlot.ofValue (v.field "value") = .ok s := by
  unfold ofValue at hread
  split at hread
  · obtain ⟨inputs, hinputs, hread⟩ := bind_eq_ok hread
    obtain ⟨outputs, houtputs, hread⟩ := bind_eq_ok hread
    dsimp only at hread
    split at hread
    · obtain ⟨slot, hslot, hread⟩ := bind_eq_ok hread
      obtain ⟨_, _, hread⟩ := bind_eq_ok hread
      obtain ⟨s, hs, rfl⟩ := map_eq_ok hslot
      cases hread
      exact ⟨hinputs, houtputs, fun _ hsome => Option.some.inj hsome ▸ hs⟩
    · obtain ⟨slot, hslot, hread⟩ := bind_eq_ok hread
      obtain ⟨_, _, hread⟩ := bind_eq_ok hread
      cases hslot
      cases hread
      exact ⟨hinputs, houtputs, fun _ hnone => nomatch hnone⟩
  · cases hread

/-- **A node type has its texts from the document.** -/
theorem textsIn_ofValue (hv : v.allTexts ok = true) (hread : ofValue v category = .ok t) :
    t.TextsIn ok := by
  obtain ⟨hinputs, houtputs, hslot⟩ := parts_of_ofValue hread
  refine ⟨fun d hd => ?_, fun s hs => ?_⟩
  · rcases List.mem_append.mp hd with hd | hd
    · exact codes_of_readPorts (Value.allTexts_field hv "inputs") hinputs d hd
    · exact codes_of_readPorts (Value.allTexts_field hv "outputs") houtputs d hd
  · have hread := hslot s hs
    unfold ValueSlot.ofValue at hread
    split at hread
    · cases hread
    · obtain ⟨type, _, hread⟩ := bind_eq_ok hread
      cases hread
      exact Value.allTexts_field (Value.allTexts_field hv "value") "default"

end NodeType

/-! ## Catalogs -/

/-- The texts that a catalog gives to programs pass a test. -/
structure Catalog.TextsIn (ok : String → Bool) (c : Catalog) : Prop where
  comment : c.style.commentStyle.allTexts ok = true
  types : ∀ category type t, c.find? category type = some t → t.TextsIn ok

namespace CatalogDocument

variable {ok : String → Bool} {v doc : Value} {d : CatalogDocument}

theorem textsIn_readTypes {category : Value} {types : List (String × NodeType)}
    (hv : v.allTexts ok = true) (hread : readTypes v category = .ok types) :
    ∀ e ∈ types, e.2.TextsIn ok := by
  obtain ⟨fields, hfields, hread⟩ := bind_eq_ok hread
  intro e he
  obtain ⟨⟨name, w⟩, hw, hstep⟩ := mem_of_mapM hread he
  obtain ⟨t, ht, hpair⟩ := bind_eq_ok hstep
  cases hpair
  exact NodeType.textsIn_ofValue (Value.allTexts_of_fields hv hfields (name, w) hw) ht

/-- Whatever a document files has its texts from there. -/
theorem textsIn_filings (hdoc : doc.allTexts ok = true) (hread : ofValue doc = .ok d) :
    ∀ f ∈ d.filings, ∀ type t, f.entry = some (type, t) → t.TextsIn ok := by
  unfold ofValue at hread
  split at hread
  · obtain ⟨style, _, hread⟩ := bind_eq_ok hread
    obtain ⟨kinds, _, hread⟩ := bind_eq_ok hread
    obtain ⟨dataTypes, _, hread⟩ := bind_eq_ok hread
    obtain ⟨fields, hfields, hread⟩ := bind_eq_ok hread
    obtain ⟨categories, hcategories, hread⟩ := bind_eq_ok hread
    obtain ⟨loose, hloose, hread⟩ := bind_eq_ok hread
    obtain ⟨version, _, hread⟩ := bind_eq_ok hread
    cases hread
    intro f hf type t hentry
    rcases List.mem_append.mp hf with hf | hf
    · obtain ⟨⟨name, k⟩, hk, hf⟩ := List.mem_flatMap.mp hf
      obtain ⟨⟨_, w⟩, hw, hstep⟩ := mem_of_mapM hcategories hk
      obtain ⟨k', hcategory, hpair⟩ := bind_eq_ok hstep
      cases hpair
      have htexts : w.allTexts ok = true := Value.allTexts_of_fields
        (Value.allTexts_field hdoc "nodeCategories") hfields (name, w) hw
      have htypes := textsIn_readTypes (Value.allTexts_field htexts "nodes")
        (readCategory_eq_ok hcategory).2
      rcases List.mem_cons.mp hf with rfl | hf
      · cases hentry
      · obtain ⟨entry, hmem, rfl⟩ := List.mem_map.mp hf
        cases hentry
        exact htypes (type, t) hmem
    · obtain ⟨⟨name, filed⟩, hmem, hf⟩ := List.mem_filterMap.mp hf
      obtain ⟨scalar, _, rfl⟩ := Option.map_eq_some_iff.mp hf
      cases hentry
      exact textsIn_readTypes (Value.allTexts_field hdoc "nodeTypes") hloose (type, t) hmem
  · cases hread

/-- The style that a document gives is part of it. -/
theorem allTexts_style (hdoc : doc.allTexts ok = true) (hread : ofValue doc = .ok d) :
    d.style.allTexts ok = true := by
  unfold ofValue at hread
  split at hread
  · obtain ⟨style, hstyle, hread⟩ := bind_eq_ok hread
    obtain ⟨kinds, _, hread⟩ := bind_eq_ok hread
    obtain ⟨dataTypes, _, hread⟩ := bind_eq_ok hread
    obtain ⟨fields, _, hread⟩ := bind_eq_ok hread
    obtain ⟨categories, _, hread⟩ := bind_eq_ok hread
    obtain ⟨loose, _, hread⟩ := bind_eq_ok hread
    obtain ⟨version, _, hread⟩ := bind_eq_ok hread
    cases hread
    unfold objectSection at hstyle
    split at hstyle
    · rename_i found hobj
      cases hstyle
      rw [← hobj]
      exact Value.allTexts_orElse (Value.allTexts_field hdoc "codeGeneration") rfl
    · cases hstyle
  · cases hread

end CatalogDocument

namespace Catalog

variable {ok : String → Bool} {c merged : Catalog} {doc : Value}

/-- An empty catalog gives nothing but its comment mark. -/
theorem textsIn_empty (hmark : ok "//" = true) : TextsIn ok ({} : Catalog) where
  comment := by rwa [Value.allTexts]
  types := fun _ _ _ hfound => nomatch hfound

/-- **A merge brings no texts but those of the document.** -/
theorem TextsIn.merge (hc : c.TextsIn ok) (hdoc : doc.allTexts ok = true)
    (hmerge : c.merge doc = (merged, none)) : merged.TextsIn ok := by
  obtain ⟨d, hread, hoverlay⟩ := merge_eq_none hmerge
  refine ⟨?_, fun category type t hfound => ?_⟩
  · have hstyle : merged.style = c.style.overlay d.style := by
      rw [overlay_of_scalars (overlay_eq_none hoverlay)] at hoverlay
      cases hoverlay
      rfl
    rw [hstyle]
    show (CodeStyle.pick d.style "commentStyle" c.style.commentStyle).allTexts ok = true
    unfold CodeStyle.pick
    dsimp only
    split
    · exact hc.comment
    · exact Value.allTexts_field (CatalogDocument.allTexts_style hdoc hread) "commentStyle"
  · rw [find?_overlay hoverlay] at hfound
    rcases Option.or_eq_some_iff.mp hfound with hfiled | ⟨_, hold⟩
    · obtain ⟨f, hf, hdefines⟩ := List.exists_of_findSome?_eq_some hfiled
      exact CatalogDocument.textsIn_filings hdoc hread f (List.mem_reverse.mp hf) type t
        (Filing.defines?_eq_some.mp hdefines).2
    · exact hc.types category type t hold

end Catalog

/-! ## Graphs and programs -/

/-- The first value of a new node is that of its type. -/
theorem Node.value_of_build {c : Catalog} {id : Scalar} {category type x y : Value} {n : Node}
    (hbuild : Node.build c id category type x y = .ok n) : ∃ k s t, c.find? k s = some t ∧
      n.value = (t.slot.map ValueSlot.default).getD .null := by
  obtain ⟨k, s, t, m, hrequire, hof, hlay⟩ := build_eq_ok.mp hbuild
  obtain ⟨inputs, outputs, _, _, rfl⟩ := layOut_eq_ok.mp hlay
  refine ⟨k, s, t, find?_of_require hrequire, ?_⟩
  unfold ofType at hof
  obtain ⟨inputs', _, hof⟩ := bind_eq_ok hof
  obtain ⟨outputs', _, hof⟩ := bind_eq_ok hof
  cases hof
  rfl

namespace Document

variable {ok : String → Bool} {limit : Nesting} {c : Catalog} {g : Graph} {doc : Value}

theorem nodes_of_outline {outline : Outline} (houtline : Outline.ofValue doc = .ok outline) :
    doc.field? "nodes" = some (.list outline.nodes) := by
  unfold Outline.ofValue at houtline
  split at houtline
  · split at houtline
    · cases houtline
    · rename_i nodes hnodes
      split at houtline
      · split at houtline
        · cases houtline
        · cases houtline
          exact hnodes
      · cases houtline
    · cases houtline
  · cases houtline

/-- **The values of a loaded graph** come from the document or from the catalog, and its
ids are whole numbers. -/
theorem values_loadWithin {report : Report} (hc : c.TextsIn ok) (hdoc : doc.allTexts ok = true)
    (hload : (loadWithin limit c g doc).result = .ok report) :
    ∀ n ∈ (loadWithin limit c g doc).state.nodes,
      n.value.allTexts ok = true ∧ ∃ i : Int, n.id = .int i := by
  obtain ⟨outline, nodes, links, houtline, haccounts⟩ := accounts_of_load hload
  intro n hn
  rw [haccounts.nodes_eq] at hn
  obtain ⟨taken, htaken, rfl⟩ := List.mem_map.mp hn
  obtain ⟨entry, hentry, hdescribes⟩ := haccounts.nodes_taken.given taken htaken
  have htexts : entry.allTexts ok = true :=
    Value.allTexts_list.mp (Value.allTexts_field? hdoc (nodes_of_outline houtline)) entry
      (List.mem_of_getElem? hentry)
  obtain ⟨base, hbase, hvalue⟩ := hdescribes.built
  have hfirst : base.value.allTexts ok = true := by
    obtain ⟨k, s, t, hfound, hbase⟩ := Node.value_of_build hbase
    rw [hbase]
    cases hslot : t.slot with
    | none => rfl
    | some slot => exact (hc.types k s t hfound).slot slot hslot
  refine ⟨?_, hdescribes.id_int⟩
  rw [hvalue]
  dsimp only
  split
  · cases hfield : entry.field? "value" with
    | none => exact hfirst
    | some w => exact Value.allTexts_field? htexts hfield
  · exact hfirst

end Document

/-- **A program from documents without halves keeps none.** -/
theorem Program.isHalfFree_source {b : Bounds} {limit : Nesting} {c : Catalog} {g : Graph} {doc : Value}
    {report : Document.Report} {dataLimit : Value} {now : Moment} {text : String}
    (hc : c.TextsIn Text.isHalfFree) (hdoc : doc.allTexts Text.isHalfFree = true)
    (hload : (Document.loadWithin limit c g doc).result = .ok report)
    (hsource : sourceWithin b c (Document.loadWithin limit c g doc).state dataLimit now = .ok text) :
    Text.isHalfFree text = true := by
  obtain ⟨body, header, hbody, _, hheader, rfl⟩ := sourceWithin_eq_ok.mp hsource
  have hvalues := Document.values_loadWithin hc hdoc hload
  have hsources : SourcesIn (fun text => text.all Text.isFree = true) c
      (Document.loadWithin limit c g doc).state := by
    refine ⟨fun n hn code hcode => ?_, fun n hn text htext => ?_, fun n hn => ?_⟩
    · unfold codesOf at hcode
      cases htype : typeOf c n with
      | none => simp [htype] at hcode
      | some type =>
          rw [htype] at hcode
          obtain ⟨d, hd, hcode⟩ := List.mem_filterMap.mp hcode
          obtain ⟨s, hs, rfl⟩ := Option.map_eq_some_iff.mp hcode
          exact (hc.types _ _ type htype).codes d hd s hs
    · unfold valueText? at htext
      split at htext
      · cases htext
        exact Template.isHalfFree_renderValue (hvalues n hn).1
      · cases htext
    · obtain ⟨i, hi⟩ := (hvalues n hn).2
      rw [hi]
      exact Text.isHalfFree_int i
  rw [Text.isHalfFree_append, Text.isHalfFree_ofList,
    Moment.isHalfFree_header (Value.isHalfFree_text hc.comment) hheader,
    all_bodyWithin (by decide) hsources hbody]
  rfl

end NodeWeave
