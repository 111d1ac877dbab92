import NodeWeave.Proofs.LoadOutcome

/-!
# What the entries of a document describe

An entry without problems can be read, and what it describes is stated here without
the way of reading it.  A node entry describes the node that the catalog builds under
its id, at its position, with its value where the type has a slot for one
(`NodeEntry.Describes`).  A connection entry describes the link between its two ends,
from output to input, when the graph has both ports (`LinkEntry.Describes`).  The
lemmas `NodeEntry.describes_of_build`, `NodeEntry.Describes.build` and
`LinkEntry.describes_iff` tie this to the functions that read and admit entries.
-/

namespace NodeWeave.Document

variable {c : Catalog} {g : Graph} {v : Value} {n : Node} {l : Link}

/-! ## Node entries -/

namespace NodeEntry

/-- **The node of an entry.**  It has the id, the category, the type and the position
of the entry, the position being 0 where none is given, and it is what the catalog
builds for them.  A value of the entry takes the place of the first one, if the type
has a slot. -/
structure Describes (c : Catalog) (v : Value) (n : Node) : Prop where
  problems : problems v = []
  id : v.field? "id" = some n.id.toValue
  category : v.field? "category" = some n.category.toValue
  type : v.field? "type" = some (.str n.type)
  x : n.x = (v.field? "x").getD (.int 0)
  y : n.y = (v.field? "y").getD (.int 0)
  built : ∃ base, Node.build c n.id n.category.toValue (.str n.type) n.x n.y = .ok base ∧
    n = { base with
      value := if base.slot.isSome then (v.field? "value").getD base.value else base.value }

/-- An entry without problems has an id and the names of a type. -/
theorem fields_of_problems (h : problems v = []) : ∃ id category type,
    v.field? "id" = some (.int id) ∧ v.field? "category" = some (.str category) ∧
      v.field? "type" = some (.str type) := by
  unfold problems at h
  split at h
  · simp only [List.append_eq_nil_iff, List.map_eq_nil_iff, List.filter_eq_nil_iff] at h
    obtain ⟨⟨⟨hmissing, hid⟩, htext⟩, _⟩ := h
    have hgiven : ∀ name ∈ ["id", "type", "category"], ∃ w, v.field? name = some w := by
      intro name hname
      have hfield := hmissing name hname
      simp only [Value.hasField, Bool.not_eq_true', Bool.not_eq_false] at hfield
      exact Option.isSome_iff_exists.mp hfield
    have hstr : ∀ name ∈ ["category", "type"], (∃ w, v.field? name = some w) →
        ∃ s, v.field? name = some (.str s) := by
      intro name hname hsome
      obtain ⟨w, hw⟩ := hsome
      have hgood := htext name hname
      rw [hw] at hgood
      cases w with
      | str s => exact ⟨s, hw⟩
      | _ => simp [Value.isStr] at hgood
    obtain ⟨w, hw⟩ := hgiven "id" (by simp)
    obtain ⟨category, hcategory⟩ := hstr "category" (by simp) (hgiven "category" (by simp))
    obtain ⟨type, htype⟩ := hstr "type" (by simp) (hgiven "type" (by simp))
    cases w with
    | int id => exact ⟨id, category, type, hw, hcategory, htype⟩
    | _ => simp [hw, Value.isInt] at hid
  · cases h

/-- What a node entry is read as. -/
theorem ofValue_eq_ok {e : NodeEntry} : ofValue v = .ok e ↔
    problems v = [] ∧ v.field? "id" = some (.int e.id) ∧
      v.field? "category" = some (.str e.category) ∧ v.field? "type" = some (.str e.type) ∧
      e.x = (v.field? "x").getD (.int 0) ∧ e.y = (v.field? "y").getD (.int 0) ∧
      e.value = v.field? "value" := by
  constructor
  · intro h
    unfold ofValue at h
    split at h
    · rename_i id category type hid hcategory htype hproblems
      cases h
      exact ⟨hproblems, hid, hcategory, htype, rfl, rfl, rfl⟩
    · cases h
  · intro h
    obtain ⟨hproblems, hid, hcategory, htype, hx, hy, hvalue⟩ := h
    simp only [ofValue, hid, hcategory, htype, hproblems, ← hx, ← hy, ← hvalue]

/-- **The node of an entry** whose type gives one.  It has the value of the entry where
there is a slot, unless the first value cannot be copied, or there is a line to write
about the value and the id cannot be written. -/
theorem build_cases {e : NodeEntry} {base : Node} (limit : Nesting)
    (hbase : Node.build c (.int e.id) (.str e.category) (.str e.type) e.x e.y = .ok base) :
    (∃ notices, e.build limit c = .ok ({ base with
        value := if base.slot.isSome then e.value.getD base.value else base.value }, notices)) ∨
      e.build limit c = .error .tooDeep ∨
      (e.build limit c = .error .unwritable ∧ base.id.isWritable = false) := by
  simp only [build, hbase, bind, Except.bind, pure, Except.pure]
  by_cases hcopied : limit.builds c base = true
  · simp only [hcopied, Bool.not_true, Bool.false_eq_true, if_false]
    cases hvalue : e.value with
    | none => exact Or.inl ⟨[], by simp⟩
    | some v =>
        dsimp only
        by_cases hslot : base.slot.isSome = true
        · simp only [hslot, if_true, Option.getD_some]
          cases hstored : base.setValue v with
          | ok stored =>
              obtain ⟨_, _, rfl⟩ := Node.setValue_eq_ok.mp hstored
              exact Or.inl ⟨_, rfl⟩
          | error fault =>
              rcases Node.setValue_eq_error hstored with ⟨hnone, _⟩ | ⟨rfl, hlong⟩
              · simp [hnone] at hslot
              · exact Or.inr (Or.inr ⟨rfl, hlong⟩)
        · simp only [hslot]
          by_cases hid : base.id.isWritable = true
          · rw [if_pos hid]
            exact Or.inl ⟨_, rfl⟩
          · rw [if_neg hid]
            exact Or.inr (Or.inr ⟨rfl, by simpa using hid⟩)
  · exact Or.inr (Or.inl (by simp [hcopied]))

/-- **What was built from an entry is the node that it describes.** -/
theorem describes_of_build {limit : Nesting} {e : NodeEntry} {notices : List Notice}
    (hread : ofValue v = .ok e) (hbuild : e.build limit c = .ok (n, notices)) :
    Describes c v n := by
  obtain ⟨hproblems, hid, hcategory, htype, hx, hy, hvalue⟩ := ofValue_eq_ok.mp hread
  obtain ⟨base, hbase, _⟩ := NodeEntry.build_eq_ok hbuild
  rcases build_cases limit hbase with ⟨_, hok⟩ | hdeep | ⟨hlong, _⟩
  · rw [hbuild] at hok
    cases hok
    obtain ⟨hnid, hnx, hny, _⟩ := Node.build_fields hbase
    obtain ⟨hncategory, hntype⟩ := Node.build_text hbase
    rw [← hnid, ← hnx, ← hny, ← hntype] at hbase
    exact
      { problems := hproblems
        id := by rw [hid, hnid, Scalar.toValue]
        category := by rw [hcategory, hncategory, Scalar.toValue]
        type := by rw [htype, hntype]
        x := hnx.trans hx
        y := hny.trans hy
        built := ⟨base, by rw [hncategory]; exact hbase, by rw [hvalue]⟩ }
  · rw [hbuild] at hdeep
    cases hdeep
  · rw [hbuild] at hlong
    cases hlong

/-- **The node that an entry describes is built from it**, unless one of the limits
forbids that. -/
theorem Describes.build (h : Describes c v n) (limit : Nesting) :
    ∃ e, ofValue v = .ok e ∧ n.id = .int e.id ∧
      ((∃ notices, e.build limit c = .ok (n, notices)) ∨ e.build limit c = .error .tooDeep ∨
        (e.build limit c = .error .unwritable ∧ n.id.isWritable = false)) := by
  obtain ⟨id, category, type, hid, hcategory, htype⟩ := fields_of_problems h.problems
  have hnid : n.id.toValue = .int id := Option.some.inj (h.id.symm.trans hid)
  have hncategory : n.category.toValue = .str category :=
    Option.some.inj (h.category.symm.trans hcategory)
  have hscalar : n.id = .int id := by
    have hname := Value.scalar?_toValue n.id
    rw [hnid] at hname
    exact (Option.some.inj hname).symm
  obtain ⟨base, hbase, hn⟩ := h.built
  rw [hncategory, hscalar] at hbase
  have hread := ofValue_eq_ok (e := ⟨id, category, n.type, n.x, n.y, v.field? "value"⟩).mpr
    ⟨h.problems, hid, hcategory, h.type, h.x, h.y, rfl⟩
  refine ⟨_, hread, hscalar, ?_⟩
  rcases build_cases (e := ⟨id, category, n.type, n.x, n.y, v.field? "value"⟩) limit hbase with
    ⟨notices, hok⟩ | hdeep | ⟨hlong, hbid⟩
  · exact Or.inl ⟨notices, by rw [hok, ← hn]⟩
  · exact Or.inr (Or.inl hdeep)
  · refine Or.inr (Or.inr ⟨hlong, ?_⟩)
    rw [(Node.build_fields hbase).1] at hbid
    rwa [hscalar]

/-- The id of an entry is a whole number. -/
theorem Describes.id_int (h : Describes c v n) : ∃ i : Int, n.id = .int i := by
  obtain ⟨e, _, hid, _⟩ := h.build .direct
  exact ⟨e.id, hid⟩

end NodeEntry

/-! ## Connection entries -/

namespace LinkEntry

/-- **The link of an entry.**  It joins the two ends of the entry, which may come in
either order, from an output to an input, and the graph has both ports. -/
structure Describes (g : Graph) (v : Value) (l : Link) : Prop where
  problems : problems v = []
  id : v.field "id" = l.id.toValue
  ends : ∃ a b, PortRef.ofValue (v.field "from") = .ok a ∧ PortRef.ofValue (v.field "to") = .ok b ∧
    ((l.source = a ∧ l.target = b) ∨ (l.source = b ∧ l.target = a))
  source_output : l.source.side = .output
  target_input : l.target.side = .input
  source_port : (g.port? l.source).isSome = true
  target_port : (g.port? l.target).isSome = true

/-- An end without problems can be read. -/
theorem end_of_problems {name : String} (h : endProblems name v = []) :
    ∃ r, PortRef.ofValue v = .ok r := by
  unfold endProblems at h
  split at h
  · rename_i hobj
    simp only [List.append_eq_nil_iff, List.map_eq_nil_iff, List.filter_eq_nil_iff] at h
    obtain ⟨hwhole, hside⟩ := h
    have hint : ∀ part ∈ ["nodeId", "portIndex"], ∃ i : Int, v.field? part = some (.int i) := by
      intro part hpart
      have hgood := hwhole part hpart
      unfold Value.field at hgood
      cases hfield : v.field? part with
      | none => simp [hfield, Value.isInt] at hgood
      | some w =>
          cases w with
          | int i => exact ⟨i, rfl⟩
          | _ => simp [hfield, Value.isInt] at hgood
    have hread : ∃ s side, v.field? "portType" = some s ∧ Side.ofValue s = .ok side := by
      unfold Value.field at hside
      cases hfield : v.field? "portType" with
      | none => simp [hfield] at hside
      | some w =>
          simp only [hfield, Option.getD_some] at hside
          split at hside
          · exact ⟨_, .input, rfl, rfl⟩
          · exact ⟨_, .output, rfl, rfl⟩
          · cases hside
    obtain ⟨node, hnode⟩ := hint "nodeId" (by simp)
    obtain ⟨index, hindex⟩ := hint "portIndex" (by simp)
    obtain ⟨s, side, hs, hofs⟩ := hread
    have hrequire : ∀ {part : String} {w : Value}, v.field? part = some w →
        PortRef.require v part = .ok w := by
      intro part w hw
      cases v with
      | obj fields => simp only [PortRef.require, hw]
      | _ => cases hobj
    refine ⟨⟨.int node, side, index⟩, ?_⟩
    simp only [PortRef.ofValue, hrequire hnode, hrequire hindex, hrequire hs, hofs, Integer.ofValue,
      bind, Except.bind, pure, Except.pure]
  · cases h

/-- An entry without problems has an id and two ends. -/
theorem fields_of_problems (h : problems v = []) : ∃ id a b, v.field "id" = .int id ∧
    PortRef.ofValue (v.field "from") = .ok a ∧ PortRef.ofValue (v.field "to") = .ok b := by
  unfold problems at h
  split at h
  · simp only [List.append_eq_nil_iff] at h
    obtain ⟨⟨hid, hsource⟩, htarget⟩ := h
    obtain ⟨a, ha⟩ := end_of_problems hsource
    obtain ⟨b, hb⟩ := end_of_problems htarget
    cases hfield : v.field "id" with
    | int id => exact ⟨id, a, b, rfl, ha, hb⟩
    | _ => simp [hfield, Value.isInt] at hid
  · cases h

/-- What a connection entry is read as. -/
theorem ofValue_eq_ok {e : LinkEntry} : ofValue v = .ok e ↔
    problems v = [] ∧ v.field "id" = .int e.id ∧ PortRef.ofValue (v.field "from") = .ok e.source ∧
      PortRef.ofValue (v.field "to") = .ok e.target := by
  constructor
  · intro h
    unfold ofValue at h
    split at h
    · rename_i id source target hid hsource htarget hproblems
      cases h
      exact ⟨hproblems, hid, hsource, htarget⟩
    · cases h
  · intro h
    obtain ⟨hproblems, hid, hsource, htarget⟩ := h
    simp only [ofValue, hid, hsource, htarget, hproblems]

/-- **Reading an entry and admitting it under a free id gives the link that it
describes.** -/
theorem describes_iff : Describes g v l ↔ ∃ e, ofValue v = .ok e ∧ l.id = .int e.id ∧
    ((g.port? e.source).isSome = true ∧ (g.port? e.target).isSome = true) ∧
    e.source.side ≠ e.target.side ∧
    PortRef.normalize e.source e.target = (l.source, l.target) := by
  constructor
  · intro h
    obtain ⟨id, a, b, hid, ha, hb⟩ := fields_of_problems h.problems
    have hlid : l.id = .int id := by
      have hname := Value.scalar?_toValue l.id
      rw [← h.id, hid] at hname
      exact (Option.some.inj hname).symm
    have hread : ofValue v = .ok ⟨id, a, b⟩ := ofValue_eq_ok.mpr ⟨h.problems, hid, ha, hb⟩
    obtain ⟨a', b', ha', hb', horder⟩ := h.ends
    cases ha.symm.trans ha'
    cases hb.symm.trans hb'
    refine ⟨⟨id, a, b⟩, hread, hlid, ?_⟩
    have hsource := h.source_port
    have htarget := h.target_port
    have hout := h.source_output
    have hin := h.target_input
    rcases horder with ⟨hs, ht⟩ | ⟨hs, ht⟩
    · rw [hs] at hsource hout
      rw [ht] at htarget hin
      refine ⟨⟨hsource, htarget⟩, by simp [hout, hin], ?_⟩
      simp [PortRef.normalize, PortRef.isOutput, hout, hs, ht]
    · rw [hs] at hsource hout
      rw [ht] at htarget hin
      refine ⟨⟨htarget, hsource⟩, by simp [hout, hin], ?_⟩
      simp [PortRef.normalize, PortRef.isOutput, hin, hs, ht]
  · intro h
    obtain ⟨e, hread, hlid, ⟨hsource, htarget⟩, hsides, hnorm⟩ := h
    obtain ⟨hproblems, hid, ha, hb⟩ := ofValue_eq_ok.mp hread
    have hfield : v.field "id" = l.id.toValue := by rw [hid, hlid, Scalar.toValue]
    unfold PortRef.normalize PortRef.isOutput at hnorm
    cases hside : e.source.side with
    | output =>
        have hother : e.target.side = .input := by
          cases ht : e.target.side with
          | input => rfl
          | output => exact (hsides (hside.trans ht.symm)).elim
        simp only [hside, beq_self_eq_true, if_true, Prod.mk.injEq] at hnorm
        obtain ⟨hs, ht⟩ := hnorm
        exact ⟨hproblems, hfield, ⟨_, _, ha, hb, Or.inl ⟨hs.symm, ht.symm⟩⟩, hs ▸ hside,
          ht ▸ hother, hs ▸ hsource, ht ▸ htarget⟩
    | input =>
        have hother : e.target.side = .output := by
          cases ht : e.target.side with
          | output => rfl
          | input => exact (hsides (hside.trans ht.symm)).elim
        have hne : (Side.input == Side.output) = false := rfl
        simp only [hside, hne, Bool.false_eq_true, if_false, Prod.mk.injEq] at hnorm
        obtain ⟨hs, ht⟩ := hnorm
        exact ⟨hproblems, hfield, ⟨_, _, ha, hb, Or.inr ⟨hs.symm, ht.symm⟩⟩, hs ▸ hother,
          ht ▸ hside, hs ▸ htarget, ht ▸ hsource⟩

/-- Of a graph the nodes are all that a connection entry is judged by. -/
theorem describes_congr {h : Graph} (hnodes : h.nodes = g.nodes) : Describes h = Describes g := by
  have hport : ∀ r, h.port? r = g.port? r := by
    intro r
    simp only [Graph.port?, Graph.node?, hnodes]
  funext v l
  simp only [describes_iff, hport]

end LinkEntry

end NodeWeave.Document
