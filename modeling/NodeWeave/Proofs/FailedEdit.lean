import NodeWeave.Editor
import NodeWeave.Proofs.LoadOutcome
import NodeWeave.Proofs.MergeOutcome
import NodeWeave.Proofs.NodeRemoval
import NodeWeave.Proofs.NodeSync

/-!
# Failed edits

An operation of an editor that is refused leaves the editor as it was.  What may
have an effect and fail all the same is of two kinds: an operation that met a value
it has no meaning for, and one whose line in the record cannot be written.  These
faults are `Unforeseen`.

Adding a catalog is different (`addCatalog_eq_error`).  The document is merged first
and only then taken over into the nodes, port by port, and it is found out there
that the properties of a port are no pairs.  That is a refusal, and it comes after
the catalog and part of the nodes were changed: the document is `HalfTaken`.
-/

namespace NodeWeave

variable {fault : Fault}

/-- Faults that a request is not refused for, unless it adds a catalog. -/
def Fault.Unforeseen (fault : Fault) : Prop :=
  fault.isRefusal = false ∨ fault = .unwritable

/-! ## Positions and properties of ports -/

namespace Value

variable {v w : Value}

theorem onNumbers_eq_error {op : Number → Number → Option Number}
    (h : onNumbers op v w = .error fault) : fault.isRefusal = false := by
  unfold onNumbers at h
  split at h
  · split at h
    · cases h
    · cases h
      rfl
  · cases h
    rfl

theorem add_eq_error (h : v.add w = .error fault) : fault.isRefusal = false := by
  unfold add at h
  split at h
  · cases h
  · cases h
  · exact onNumbers_eq_error h

theorem items_eq_error (h : v.items = .error fault) : fault = .unsuitable := by
  unfold items at h
  split at h <;> cases h
  rfl

theorem pairsFrom_eq_error {items : List Value} {i : Nat} {done : ScalarTable Value}
    (h : pairsFrom i done items = .error fault) :
    fault = .unsuitable ∨ ∃ index length, fault = .notPair index length := by
  induction items generalizing i done with
  | nil => cases h
  | cons item rest ih =>
      unfold pairsFrom at h
      rcases bind_eq_error h with hitems | ⟨parts, _, hparts⟩
      · exact Or.inl (items_eq_error hitems)
      · split at hparts
        · split at hparts
          · exact ih hparts
          · cases hparts
            exact Or.inl rfl
        · cases hparts
          exact Or.inr ⟨_, _, rfl⟩

/-- A value that is no table has no items, or one that is no pair. -/
theorem pairs_eq_error (h : v.pairs = .error fault) :
    fault = .unsuitable ∨ ∃ index length, fault = .notPair index length := by
  unfold pairs at h
  split at h
  · cases h
  · rcases bind_eq_error h with hitems | ⟨items, _, hpairs⟩
    · exact Or.inl (items_eq_error hitems)
    · exact pairsFrom_eq_error hpairs

end Value

namespace Port

theorem readDynamic_eq_error {d : PortDef} (h : readDynamic d = .error fault) :
    fault = .unsuitable ∨ ∃ index length, fault = .notPair index length := by
  unfold readDynamic at h
  split at h
  · exact Value.pairs_eq_error h
  · cases h

theorem sync_eq_fault {p : Port} {d : PortDef} (h : (p.sync d).2 = some fault) :
    readDynamic d = .error fault := by
  unfold sync at h
  dsimp only at h
  split at h
  · cases h
  · rename_i e hread
    cases h
    exact hread

theorem place_eq_fault {p : Port} {x y : Except Fault Value} (h : (p.place x y).2 = some fault) :
    x = .error fault ∨ y = .error fault := by
  unfold place at h
  split at h
  · cases h
    exact Or.inl rfl
  · split at h
    · cases h
      exact Or.inr rfl
    · cases h

end Port

namespace Node

variable {n : Node}

/-- A position that cannot be computed is no refusal. -/
theorem placeAll_eq_fault {side : Side} {row : Port.Row side}
    (h : (n.placeAll row).2 = some fault) : fault.isRefusal = false := by
  obtain ⟨index, p, _, _, hplace⟩ := updateUntil_eq_fault h
  rcases Port.place_eq_fault hplace with hx | hy
  · cases side with
    | input => exact Value.add_eq_error hx
    | output =>
        rcases bind_eq_error hx with hedge | ⟨edge, _, hx⟩
        · exact Value.add_eq_error hedge
        · exact Value.onNumbers_eq_error hx
  · rcases bind_eq_error hy with htop | ⟨top, _, hy⟩
    · exact Value.add_eq_error htop
    · exact Value.add_eq_error hy

theorem moveTo_eq_fault {x y : Value} (h : (n.moveTo x y).2 = some fault) :
    fault.isRefusal = false := by
  unfold moveTo layOut at h
  split at h
  · rename_i inputs e hplace
    cases h
    exact placeAll_eq_fault (by rw [hplace])
  · exact placeAll_eq_fault h

/-- A node cannot be brought up to date when the properties of a port cannot be
read. -/
theorem sync_eq_fault {t : NodeType} (h : (n.sync t).2 = some fault) :
    ∃ side, ∃ d ∈ t.visiblePorts side, Port.readDynamic d = .error fault := by
  have hside : ∀ {side : Side} (row : Port.Row side),
      (syncPorts (t.visiblePorts side) row).2 = some fault →
      ∃ side, ∃ d ∈ t.visiblePorts side, Port.readDynamic d = .error fault := by
    intro side row hports
    obtain ⟨index, p, _, _, hport⟩ := updateUntil_eq_fault hports
    unfold syncPort at hport
    split at hport
    · rename_i d hd
      exact ⟨side, d, List.mem_of_getElem? hd, Port.sync_eq_fault hport⟩
    · cases hport
  rcases n.sync_cases t with ⟨inputs, e, hin, hsync⟩ | ⟨inputs, outputs, result, _, hout, hsync⟩
  · rw [hsync] at h
    exact hside n.inputs (by rw [hin]; exact h)
  · rw [hsync] at h
    exact hside n.outputs (by rw [hout]; exact h)

end Node

/-! ## Graphs -/

namespace Graph

variable {g : Graph}

/-- Some node has a type with a port whose properties cannot be read. -/
def HasUnreadablePort (c : Catalog) (nodes : List Node) (fault : Fault) : Prop :=
  ∃ n ∈ nodes, ∃ t side, c.find? n.category n.type = some t ∧
    ∃ d ∈ t.visiblePorts side, Port.readDynamic d = .error fault

theorem removeNodes_eq_error {ids : List Scalar} (h : (g.removeNodes ids).2 = .error fault) :
    (g.removeNodes ids).1 = g ∨ fault.Unforeseen := by
  by_cases habsent : ∃ id ∈ ids, g.node? id = none
  · obtain ⟨id, _, _, hremove⟩ := removeNodes_absent habsent
    left
    rw [hremove]
  · right
    have hpresent : ∀ id ∈ ids, g.node? id ≠ none :=
      fun id hid hnone => habsent ⟨id, hid, hnone⟩
    obtain ⟨_, hok | ⟨herror, _⟩ | ⟨herror, _⟩⟩ := removeNodes_present hpresent
    · rw [hok] at h
      cases h
    · rw [herror] at h
      cases h
      exact Or.inl rfl
    · rw [herror] at h
      cases h
      exact Or.inr rfl

namespace Recorded

variable {c : Catalog}

theorem record_eq_error {α : Type} {isWritable : Bool} {result : α}
    (h : (record g isWritable result).result = .error fault) : fault = .unwritable := by
  unfold record at h
  dsimp only at h
  split at h <;> cases h
  rfl

theorem addNode_eq_error {limit : Nesting} {category type x y : Value}
    (h : (addNode limit c g category type x y).result = .error fault) :
    (addNode limit c g category type x y).state = g ∨ fault = .unwritable := by
  unfold addNode at h ⊢
  split at h
  · exact Or.inl rfl
  · rename_i added n hadd
    split at h
    · exact Or.inr (record_eq_error h)
    · rename_i hdeep
      left
      rw [if_neg hdeep]

/-- **Why the nodes cannot be brought up to date:** an id cannot be written, or
the properties of a port cannot be read. -/
theorem syncNodes_eq_fault {nodes : List Node} (h : (syncNodes c nodes).2.2 = some fault) :
    fault = .unwritable ∨ HasUnreadablePort c nodes fault := by
  induction nodes with
  | nil => cases h
  | cons n rest ih =>
      have hlater : (syncNodes c rest).2.2 = some fault →
          fault = .unwritable ∨ HasUnreadablePort c (n :: rest) fault := by
        intro hrest
        refine (ih hrest).imp_right ?_
        intro ⟨m, hm, hport⟩
        exact ⟨m, List.mem_cons_of_mem n hm, hport⟩
      unfold syncNodes at h
      split at h
      · split at h
        · exact hlater h
        · cases h
          exact Or.inl rfl
      · rename_i t hfind
        split at h
        · rename_i m e hsync
          cases h
          obtain ⟨side, d, hd, hread⟩ := Node.sync_eq_fault (show (n.sync t).2 = _ by rw [hsync])
          exact Or.inr ⟨n, List.mem_cons_self, t, side, hfind, d, hd, hread⟩
        · exact hlater h

theorem refresh_eq_error (h : (refresh c g).result = .error fault) :
    fault = .unwritable ∨ HasUnreadablePort c g.nodes fault := by
  unfold refresh at h
  split at h
  · rename_i nodes notices e hsync
    cases h
    exact syncNodes_eq_fault (by rw [hsync])
  · exact Or.inl (repair_eq_error h).1

end Recorded

end Graph

/-! ## Loading -/

/-- What stops the writing of a value is no refusal, or that a number is too long. -/
theorem Bounds.unforeseen_of_fault? {b : Bounds} {v : Value} (h : b.fault? v = some fault) :
    fault.Unforeseen := by
  rcases causes_of_fault? v h with ⟨rfl, _⟩ | ⟨rfl, _⟩
  · exact Or.inl rfl
  · exact Or.inr rfl

/-- **What a failed loading leaves behind:** the old graph, unless the fault is one that
is not foreseen. -/
theorem Document.loadWithin_eq_error {limit : Nesting} {c : Catalog} {g : Graph} {doc : Value}
    (h : (loadWithin limit c g doc).result = .error fault) :
    (loadWithin limit c g doc).state = g ∨ fault.Unforeseen := by
  have hcourse := course limit c g doc
  generalize loadWithin limit c g doc = outcome at hcourse h
  cases hcourse with
  | refused => exact Or.inl rfl
  | atNode _ hnodes =>
      cases h
      obtain ⟨_, _, _, _, _, _, hstop⟩ := runUntil_eq_fault hnodes
      obtain ⟨_, ⟨_, _, _, _, _, hkind, _⟩ | hid⟩ := Loading.addNode_eq_fault hstop
      · exact Or.inr (Or.inl hkind)
      · exact Or.inr (Bounds.unforeseen_of_fault? hid)
  | atLink _ _ hlinks =>
      cases h
      obtain ⟨_, _, _, _, _, _, hstop⟩ := runUntil_eq_fault hlinks
      obtain ⟨_, ⟨_, _, hlong, _⟩ | hid⟩ := Loading.addLink_eq_fault hstop
      · exact Or.inr (Or.inr hlong)
      · exact Or.inr (Bounds.unforeseen_of_fault? hid)
  | finished => exact Or.inr (Or.inr (Graph.Recorded.repair_eq_error (map_eq_error h)).1)

/-! ## Operations of an editor -/

namespace Editor

variable {e : Editor}

/-- A catalog document that is merged but cannot be taken over: the editor after it
has the new catalog, and the nodes as far as they could be brought up to date. -/
def HalfTaken (e : Editor) (doc : Value) (after : Editor) : Prop :=
  ∃ catalog fault, e.catalog.merge doc = (catalog, none) ∧
    (Graph.Recorded.refresh catalog e.graph).result = .error fault ∧
    (fault = .unwritable ∨ ∃ index length, fault = .notPair index length ∧
      Graph.HasUnreadablePort catalog e.graph.nodes fault) ∧
    after = { e with catalog, graph := (Graph.Recorded.refresh catalog e.graph).state }

/-- **What a failed catalog document leaves behind.** -/
theorem addCatalog_eq_error {doc : Value} (h : (e.addCatalog doc).result = .error fault) :
    (e.addCatalog doc).state = e ∨ fault = .unsuitable ∨
      e.HalfTaken doc (e.addCatalog doc).state := by
  unfold addCatalog at h ⊢
  split at h
  · rename_i catalog cause hmerge
    cases h
    rcases Catalog.merge_eq_fault hmerge with rfl | hcause
    · exact Or.inl rfl
    · exact Or.inr (Or.inl hcause)
  · rename_i catalog hmerge
    rcases Graph.Recorded.refresh_eq_error h with hid | hport
    · exact Or.inr (Or.inr ⟨catalog, fault, hmerge, h, Or.inl hid, rfl⟩)
    · obtain ⟨n, hn, t, side, hfind, d, hd, hread⟩ := hport
      rcases Port.readDynamic_eq_error hread with hkind | ⟨index, length, hpair⟩
      · exact Or.inr (Or.inl hkind)
      · refine Or.inr (Or.inr ⟨catalog, fault, hmerge, h, Or.inr ⟨index, length, hpair, ?_⟩, rfl⟩)
        exact ⟨n, hn, t, side, hfind, d, hd, hread⟩

theorem repaired_eq_error {α : Type} {edit : Outcome Graph α}
    (h : (e.repaired edit).result = .error fault) :
    (edit.result = .error fault ∧ (e.repaired edit).state = { e with graph := edit.state }) ∨
      fault = .unwritable := by
  unfold repaired at h ⊢
  split at h
  · rename_i cause hresult
    cases h
    exact Or.inl ⟨hresult, rfl⟩
  · exact Or.inr (Graph.Recorded.repair_eq_error (map_eq_error h)).1

theorem load_eq_error {doc : Value} (h : (e.load doc).result = .error fault) :
    (e.load doc).state = e ∨ fault.Unforeseen := by
  rcases Document.loadWithin_eq_error h with hsame | hkind
  · left
    unfold load edited
    dsimp only
    rw [hsame]
  · exact Or.inr hkind

theorem createNode_eq_error {category type x y : Value}
    (h : (e.createNode category type x y).result = .error fault) :
    (e.createNode category type x y).state = e ∨ fault.Unforeseen := by
  rcases repaired_eq_error h with ⟨hadd, hstate⟩ | hid
  · rcases Graph.Recorded.addNode_eq_error hadd with hsame | hid
    · rw [hsame] at hstate
      exact Or.inl hstate
    · exact Or.inr (Or.inr hid)
  · exact Or.inr (Or.inr hid)

theorem deleteNode_eq_error {id : Scalar} (h : (e.deleteNode id).result = .error fault) :
    (e.deleteNode id).state = e ∨ fault.Unforeseen := by
  have hdelete : e.deleteNode id =
      e.repaired ⟨(e.graph.removeNodes [id]).1, [], (e.graph.removeNodes [id]).2⟩ := rfl
  rw [hdelete] at h ⊢
  rcases repaired_eq_error h with ⟨hremove, hstate⟩ | hid
  · rcases Graph.removeNodes_eq_error hremove with hsame | hkind
    · exact Or.inl (hstate.trans (by rw [hsame]))
    · exact Or.inr hkind
  · exact Or.inr (Or.inr hid)

theorem deleteLink_eq_error {id : Value} (h : (e.deleteLink id).result = .error fault) :
    (e.deleteLink id).state = e ∨ fault.Unforeseen := by
  unfold deleteLink at h ⊢
  split at h
  · exact Or.inl rfl
  · rcases repaired_eq_error h with ⟨hdone, _⟩ | hid
    · cases hdone
    · exact Or.inr (Or.inr hid)

theorem moveNode_eq_error {id : Scalar} {x y : Value}
    (h : (e.moveNode id x y).result = .error fault) :
    (e.moveNode id x y).state = e ∨ fault.Unforeseen := by
  unfold moveNode at h ⊢
  split at h
  · exact Or.inl rfl
  · rename_i n hnode
    right
    cases hmove : (n.moveTo x y).2 with
    | none => simp [edited, hmove] at h
    | some cause =>
        simp only [edited, hmove, Except.error.injEq] at h
        subst h
        exact Or.inl (Node.moveTo_eq_fault hmove)

theorem setValue_eq_error {id : Scalar} {v : Value} (h : (e.setValue id v).result = .error fault) :
    (e.setValue id v).state = e := by
  unfold setValue at h ⊢
  split at h
  · rfl
  · split at h
    · rfl
    · cases h

/-- A link that is not made changes nothing. -/
theorem createLink_eq_none {a b : PortRef} (h : (e.createLink a b).result = .ok none) :
    (e.createLink a b).state = e := by
  unfold createLink at h ⊢
  dsimp only at h ⊢
  split at h
  · rfl
  · rename_i hsome
    unfold repaired at h
    split at h
    · cases h
    · rename_i link hlink
      obtain ⟨_, _, hnone⟩ := map_eq_ok h
      rw [hnone] at hlink
      exact absurd hlink hsome

end Editor

end NodeWeave
