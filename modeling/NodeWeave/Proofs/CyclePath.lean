import Mathlib.Data.List.Chain
import NodeWeave.Proofs.DepthLimit

/-!
# The path of a data cycle

A data cycle is reported with a path of nodes.  This file says what such a path
shows: each of its nodes takes data from the next one, and either it leads from a
node back to the same node without meeting another one twice, or it is the first
path that the limit does not allow (`CycleEvidence`).

The argument is one invariant of the search, `Trail`: the nodes whose expressions
are being made are all different, and each takes data from the next one, the last
from the node at hand.  Going one node further keeps it (`Trail.push`), and where the
search ends with a report, the report is a part of the trail.
-/

namespace NodeWeave

/-- The path with which a fault reports a data cycle, if it does. -/
def Fault.cyclePath? : Fault → Option (List Scalar)
  | dataCycle path => some path
  | dataTooDeep _ path => some path
  | _ => none

namespace Graph

/-- **The first node takes data from the second.**  Some link leads from a port of the
second into a data port of the first. -/
def Draws (g : Graph) (v w : Scalar) : Prop :=
  ∃ l ∈ g.links, l.target.node.same v = true ∧ l.source.node.same w = true ∧
    (∃ input, g.port? l.target = some input ∧ input.isExec = false) ∧
    (g.port? l.source).isSome = true

end Graph

namespace Program

variable {c : Catalog} {g : Graph} {d : Int} {n : Node} {p : Port} {id next : Scalar}
  {path report : List Scalar} {room : Nat} {fault : Fault} {b : Bounds}

/-- **What the path of a data cycle shows** under a limit. -/
structure CycleEvidence (g : Graph) (d : Int) (path : List Scalar) : Prop where
  /-- Each node takes data from the next one. -/
  draws : path.IsChain g.Draws
  /-- The path ends where it starts and is free of repetitions before, or all its
  nodes are different and there is one more than the limit allows. -/
  ends : (∃ first between last, path = first :: (between ++ [last]) ∧ first.same last = true ∧
      ((first :: between).map Scalar.key).Nodup) ∨
    ((path.map Scalar.key).Nodup ∧ (path.length : Int) = max d 0 + 1)

/-- The path with which a result reports a data cycle, if it does. -/
def cyclePath? {α : Type} : Except Fault α → Option (List Scalar)
  | .ok _ => none
  | .error fault => fault.cyclePath?

/-- **The search on its way to a node.**  All nodes of the path are different, and each
takes data from the one behind it, the last from the node at hand. -/
structure Trail (g : Graph) (path : List Scalar) (id : Scalar) : Prop where
  draws : (path ++ [id]).IsChain g.Draws
  nodup : (path.map Scalar.key).Nodup

theorem nodup_concat (hnodup : (path.map Scalar.key).Nodup) (hnew : onPath path id = false) :
    ((path ++ [id]).map Scalar.key).Nodup := by
  have hfresh : id.key ∉ path.map Scalar.key := by
    intro hmem
    exact Bool.eq_false_iff.mp hnew (onPath_iff.mpr hmem)
  rw [List.map_append, List.nodup_append]
  refine ⟨hnodup, by simp, ?_⟩
  intro a ha b hb hab
  have hid : b = id.key := by simpa using hb
  exact hfresh (hid ▸ hab ▸ ha)

namespace Trail

theorem start (g : Graph) (id : Scalar) : Trail g [] id where
  draws := .singleton id
  nodup := List.nodup_nil

/-- **One node further.** -/
theorem push (htrail : Trail g path id) (hnew : onPath path id = false)
    (hdraws : g.Draws id next) : Trail g (path ++ [id]) next where
  draws := by
    rw [List.append_assoc, List.singleton_append, List.isChain_append_cons_cons]
    exact ⟨htrail.draws, hdraws, .singleton next⟩
  nodup := nodup_concat htrail.nodup hnew

/-- The node at hand is on the path: the report starts at its first place there. -/
theorem evidence_of_onPath (htrail : Trail g path id) (hon : onPath path id = true) :
    CycleEvidence g d (path.dropWhile (fun other => !id.same other) ++ [id]) where
  draws := by
    refine htrail.draws.suffix ?_
    obtain ⟨front, hfront⟩ := List.dropWhile_suffix (l := path) fun other => !id.same other
    refine ⟨front, ?_⟩
    rw [← List.append_assoc, hfront]
  ends := by
    obtain ⟨first, between, hfront, hsame⟩ := dropWhile_of_onPath hon
    have hsub : (first :: between).Sublist path := hfront ▸ List.dropWhile_sublist _
    refine Or.inl ⟨first, between, id, by rw [hfront]; rfl, hsame, ?_⟩
    exact htrail.nodup.sublist (hsub.map Scalar.key)

/-- The path is full: the report is the path with the node at hand. -/
theorem evidence_of_full (htrail : Trail g path id) (hnew : onPath path id = false)
    (hfull : path.length = d.toNat) : CycleEvidence g d (path ++ [id]) where
  draws := htrail.draws
  ends := by
    refine Or.inr ⟨nodup_concat htrail.nodup hnew, ?_⟩
    rw [List.length_append, List.length_singleton]
    omega

end Trail

/-- A link that is filled in lets its target take data from its source. -/
theorem draws_of_feed? {l : Link} {input : Port} {t : Node × Port} (hl : l ∈ g.linksInto n.id)
    (hfeed : feed? g l = some (input, t)) : g.Draws n.id t.1.id := by
  obtain ⟨hlink, htarget⟩ := List.mem_filter.mp hl
  obtain ⟨hinput, hdata, hsource, hport⟩ := feed?_eq_some.mp hfeed
  have hkey : l.source.node.same t.1.id = true :=
    Scalar.same_iff.mpr (Graph.node?_key hsource).symm
  exact ⟨l, hlink, htarget, hkey, ⟨input, hinput, hdata⟩, by rw [hport]; rfl⟩

/-- A fault that is reported with a path, if at all, only as evidence. -/
def ReportsEvidence (g : Graph) (d : Int) (fault : Fault) : Prop :=
  ∀ report, fault.cyclePath? = some report → CycleEvidence g d report

theorem reportsEvidence_of_none (hfault : fault.cyclePath? = none) : ReportsEvidence g d fault := by
  intro report hreport
  rw [hfault] at hreport
  cases hreport

theorem reportsEvidence_named (r : PortRef) (p : Port) (_ : g.port? r = some p)
    (put : List Char → List Char → List Char → List Char) (code text : List Char) (fault : Fault)
    (happly : applyNamed put p.name code text = .error fault) : ReportsEvidence g d fault :=
  reportsEvidence_of_none (by rw [applyNamed_eq_error happly]; rfl)

theorem reportsEvidence_bound (fault : Fault) (hcauses : b.Causes fault) :
    ReportsEvidence g d fault := by
  rcases hcauses with ⟨rfl, _⟩ | ⟨rfl, _⟩
  · exact reportsEvidence_of_none rfl
  · exact reportsEvidence_of_none rfl

/-- A report whose ids cannot be written is another fault, without a path. -/
theorem reportsEvidence_naming {ids : List Scalar} (hfault : ReportsEvidence g d fault) :
    ReportsEvidence g d (b.naming ids fault) := by
  unfold Bounds.naming
  split
  · exact hfault
  · exact reportsEvidence_of_none rfl

theorem reportsEvidence_cycleFault (htrail : Trail g path id) (hon : onPath path id = true) :
    ReportsEvidence g d (cycleFault b path id) := by
  refine reportsEvidence_naming fun report hreport => ?_
  cases hreport
  exact htrail.evidence_of_onPath hon

theorem reportsEvidence_limitFault (htrail : Trail g path id) (hnew : onPath path id = false)
    (hfull : path.length = d.toNat) :
    ReportsEvidence g d (limitFault b (.int d) (path ++ [id])) := by
  have hnaming : ReportsEvidence g d
      (b.naming (path ++ [id]) (.dataTooDeep (.int d) (path ++ [id]))) := by
    refine reportsEvidence_naming fun report hreport => ?_
    cases hreport
    exact htrail.evidence_of_full hnew hfull
  show ReportsEvidence g d ((b.fault? (.int d)).getD _)
  cases hlimit : b.fault? (.int d) with
  | none => exact hnaming
  | some fault => exact reportsEvidence_bound fault (Bounds.causes_of_fault? _ hlimit)

/-- **What the search reports is evidence.**  The induction is on the room; the trail
and the room together have the length of the limit all the way. -/
theorem expressionIn_evidence (htrail : Trail g path n.id) (hroom : path.length + room = d.toNat)
    (hrun : expressionIn c g (.int d) room b path n p = .error fault) :
    ReportsEvidence g d fault := by
  induction room generalizing b path n p fault with
  | zero =>
      rcases expressionIn_eq_error hrun with
        ⟨hon, rfl⟩ | ⟨hnew, ⟨_, rfl⟩ | hcauses | ⟨_, _, hless, _⟩⟩
      · exact reportsEvidence_cycleFault htrail hon
      · exact reportsEvidence_limitFault htrail hnew (by omega)
      · exact reportsEvidence_bound fault hcauses
      · cases hless
  | succ room ih =>
      rcases expressionIn_eq_error hrun with
        ⟨hon, rfl⟩ | ⟨hnew, ⟨hzero, _⟩ | hcauses | ⟨less, code, hless, hinputs⟩⟩
      · exact reportsEvidence_cycleFault htrail hon
      · cases hzero
      · exact reportsEvidence_bound fault hcauses
      · cases hless
        obtain ⟨l, hl, before, hstep⟩ := foldlM_eq_error hinputs
        obtain ⟨input, t, hfeed, hexpress | ⟨text, hname⟩⟩ := applyLink_eq_error hstep
        · rcases Bounds.under_eq_error hexpress with ⟨_, hcauses⟩ | ⟨below, _, hexpress⟩
          · exact reportsEvidence_bound fault hcauses
          · have hnext := htrail.push hnew (draws_of_feed? hl hfeed)
            refine ih hnext ?_ hexpress
            rw [List.length_append, List.length_singleton]
            omega
        · exact reportsEvidence_named _ input (feed?_eq_some.mp hfeed).1 _ _ _ _ hname

theorem expressionWithin_evidence (hrun : expressionWithin b c g (.int d) [] n p = .error fault) :
    ReportsEvidence g d fault := by
  unfold expressionWithin at hrun
  rw [roomFor_int] at hrun
  exact expressionIn_evidence (Trail.start g n.id) (by simp) hrun

theorem exists_fault_of_cyclePath? {α : Type} {result : Except Fault α}
    (hresult : cyclePath? result = some report) :
    ∃ fault, result = .error fault ∧ fault.cyclePath? = some report := by
  cases result with
  | ok a => cases hresult
  | error fault => exact ⟨fault, rfl, hresult⟩

/-- **The path of a data cycle is evidence**, whether a whole program, a statement or an
expression is asked for, under every limit, within all bounds and in every graph.  It
does not matter which nodes were written before the statement. -/
theorem cyclePath_shows (c : Catalog) (g : Graph) (d : Int) (b : Bounds) (report : List Scalar) :
    (∀ now, cyclePath? (sourceWithin b c g (.int d) now) = some report →
      CycleEvidence g d report) ∧
    (∀ visited n, cyclePath? (statementWithin b c g (.int d) visited n) = some report →
      CycleEvidence g d report) ∧
    ∀ n p, cyclePath? (expressionWithin b c g (.int d) [] n p) = some report →
      CycleEvidence g d report := by
  have hexpress : ∀ below, Bounds.IsBelow below b → ∀ m ∈ g.nodes, ∀ q fault,
      expressionWithin below c g (.int d) [] m q = .error fault → ReportsEvidence g d fault :=
    fun _ _ _ _ _ _ => expressionWithin_evidence
  refine ⟨?_, ?_, ?_⟩
  · intro now hresult
    obtain ⟨fault, hrun, hreport⟩ := exists_fault_of_cyclePath? hresult
    exact fault_sourceWithin reportsEvidence_named reportsEvidence_bound hexpress
      (reportsEvidence_of_none rfl) (reportsEvidence_of_none rfl) hrun report hreport
  · intro visited n hresult
    obtain ⟨fault, hrun, hreport⟩ := exists_fault_of_cyclePath? hresult
    exact fault_statementIn reportsEvidence_named reportsEvidence_bound hexpress
      Bounds.isBelow_self hrun report hreport
  · intro n p hresult
    obtain ⟨fault, hrun, hreport⟩ := exists_fault_of_cyclePath? hresult
    exact expressionWithin_evidence hrun report hreport

/-- Two sums that take each other are reported from the one that was asked for, and a
chain of two under a limit of one is reported as a whole; the notes of a step that
take each other are reported without the step. -/
theorem cyclePath_shows_knot :
    CycleEvidence knot 256 [.int 1, .int 0, .int 1] ∧ CycleEvidence diamond 1 [.int 1, .int 0] ∧
      CycleEvidence loopedNotes 4 [.int 1, .int 0, .int 1] := by
  refine ⟨?_, ?_, ?_⟩
  · exact (cyclePath_shows sumCatalog knot 256 .free _).2.2 sumOutput.1 sumOutput.2
      (by decide +kernel)
  · exact (cyclePath_shows sumCatalog diamond 1 .free _).2.2 sumOutput.1 sumOutput.2
      (by decide +kernel)
  · exact (cyclePath_shows noteCatalog loopedNotes 4 Nesting.direct.ofText _).1
      (.ofUnixMilliseconds 0) (by decide +kernel)

end Program

end NodeWeave
