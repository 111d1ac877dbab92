import NodeWeave.Graph.Recorded
import NodeWeave.Proofs.Repair

/-!
# The rules for links, asked and enforced

The rules for links are tested in two places, and neither test reads them off the
definition of a well-formed graph.  `canConnect` goes through the reasons to refuse
a new link, and repair collects the links of a crowded port; `connect`, not
`canConnect`, takes the old link from a control-flow output.  Both places are exact:

* a link is accepted when the graph with it is well-formed, and only then
  (`canConnect_exact`), where the graph with it is `linked`;
* repair has nothing to remove when the graph is well-formed, and only then, so
  that a second repair does nothing (`repair_settles`).

An edit is also recorded, and a line with an id that cannot be written is a fault.
The recorded forms of both operations do the same where all ids can be written, and
`connect_loses_link` is what may happen where one cannot.
-/

namespace NodeWeave.Graph

variable {g : Graph} {a b : PortRef} {ends : PortRef × PortRef}

/-! ## New links -/

/-- The link that comes next between two ports. -/
def nextLinkAt (g : Graph) (ends : PortRef × PortRef) : Link :=
  { id := g.nextLink.toScalar, source := ends.1, target := ends.2 }

/-- The graph with one more link.  The links that leave its source are dropped
when that is a control-flow port. -/
def linked (g : Graph) (ends : PortRef × PortRef) : Graph :=
  { g with
    links := (g.links.filter fun l =>
      decide ¬ (g.IsExecAt ends.1 ∧ l.source.address = ends.1.address)) ++ [g.nextLinkAt ends]
    nextLink := g.nextLink.next }

theorem exists_normalize (a b : PortRef) : ∃ o i, PortRef.normalize a b = (o, i) :=
  ⟨_, _, rfl⟩

/-- **What `connect` makes.**  Where two ports may be linked it gives the graph with
the link between them, under the next id. -/
theorem connect_eq_linked (hcan : g.canConnect a b = true) :
    g.connect a b =
      (g.linked (PortRef.normalize a b), some (g.nextLinkAt (PortRef.normalize a b))) := by
  obtain ⟨o, i, hnorm⟩ := exists_normalize a b
  obtain ⟨hsound, _⟩ := (canConnect_iff hnorm .null).mp hcan
  have hout : o.side = .output := hsound.source_output
  obtain ⟨g', hconnect, hg'⟩ := connect_eq_of_canConnect hnorm hcan
  rw [hconnect, hnorm]
  rcases hg' with ⟨hexec, rfl⟩ | ⟨hexec, rfl⟩
  · have hends : ∀ l, endsAt o l = decide (l.source.address = o.address) := by
      intro l
      simp [endsAt, PortRef.isInput, hout, PortRef.same]
    simp [addLink, unlink, linked, nextLinkAt, hexec, hends]
  · simp [addLink, linked, nextLinkAt, hexec]

/-- Where two ports may not be linked nothing happens. -/
theorem connect_of_not_canConnect (hcan : g.canConnect a b = false) : g.connect a b = (g, none) := by
  simp [connect, hcan]

/-- The refusal is recorded with the two ports. -/
theorem Recorded.connect_of_not_canConnect (hcan : g.canConnect a b = false) :
    (Recorded.connect g a b).state = g ∧ ((Recorded.connect g a b).result = .ok none ∨
      (Recorded.connect g a b).result = .error .unwritable ∧
        (a.isWritable = false ∨ b.isWritable = false)) := by
  simp only [connect, hcan, record, Bool.false_eq_true, if_false]
  refine ⟨trivial, ?_⟩
  cases ha : a.isWritable with
  | false => exact Or.inr ⟨rfl, Or.inl rfl⟩
  | true =>
      cases hb : b.isWritable with
      | false => exact Or.inr ⟨rfl, Or.inr rfl⟩
      | true => exact Or.inl rfl

/-- The ids of the links that leave a control-flow output can be written. -/
def WritableAt (g : Graph) (o : PortRef) : Prop :=
  g.IsExecAt o → ∀ l ∈ g.linksAt o, l.id.isWritable = true

theorem Recorded.canReplace_replaced {o i : PortRef} (hnorm : PortRef.normalize a b = (o, i))
    (hids : g.WritableAt o) (ho : o.isWritable = true) :
    canReplace (replaced g a b) o = true := by
  unfold canReplace replaced
  rw [hnorm]
  dsimp only
  split
  · rename_i hexec
    have hall : (g.linksAt o).all (fun l => l.id.isWritable) = true :=
      List.all_eq_true.mpr (hids (isExec_iff.mp hexec))
    simp [hall, ho]
  · rfl

/-- **A link is recorded as it is made**, when the ids of the links that give way and the
new link can be written. -/
theorem Recorded.connect_eq_linked (hcan : g.canConnect a b = true)
    (hids : g.WritableAt (PortRef.normalize a b).1)
    (hnext : (g.nextLinkAt (PortRef.normalize a b)).isWritable = true) :
    Recorded.connect g a b = ⟨g.linked (PortRef.normalize a b), [],
      .ok (some (g.nextLinkAt (PortRef.normalize a b)))⟩ := by
  obtain ⟨o, i, hnorm⟩ := exists_normalize a b
  have hconnect := Graph.connect_eq_linked hcan
  rw [hnorm] at hids hnext hconnect ⊢
  have ho : o.isWritable = true := by
    simp only [Link.isWritable, nextLinkAt, Bool.and_eq_true] at hnext
    exact hnext.1.2
  simp [connect, hcan, hnorm, canReplace_replaced hnorm hids ho, hconnect, record, hnext]

/-- **Repair finds nothing exactly in a well-formed graph.** -/
theorem repair_eq_nil_iff : g.repair.2 = [] ↔ g.WellFormed := by
  constructor
  · intro hremoved
    have hnone : g.breaches = [] := List.map_eq_nil_iff.mp hremoved
    have hwell := repair_wellFormed g
    rwa [repair_of_no_breaches hnone] at hwell
  · intro hg
    rw [repair_of_wellFormed hg]

/-- Repairing a well-formed graph changes and reports nothing. -/
theorem Recorded.repair_of_wellFormed (hg : g.WellFormed) :
    Recorded.repair g = ⟨g, [], .ok []⟩ := by
  simp [Recorded.repair, Graph.repair_of_wellFormed hg, Notice.ofRemoved]

/-- **Repair settles the rules at once.**  Whatever links there are, it leaves a
well-formed graph, in which no two links join the same ports though pairs of ports
are never compared.  It gives an empty list exactly when the graph was well-formed
before, and a second repair gives an empty list and changes nothing.  The recorded
repair does the same, also after one that failed to write the ids it removed. -/
theorem repair_settles (g : Graph) :
    g.repair.1.WellFormed ∧ (g.repair.2 = [] ↔ g.WellFormed) ∧
      g.repair.1.repair = (g.repair.1, []) ∧
      (Recorded.repair g).state = g.repair.1 ∧
      ((Recorded.repair g).result = .ok [] ↔ g.WellFormed) ∧
      Recorded.repair g.repair.1 = ⟨g.repair.1, [], .ok []⟩ := by
  have hwell := repair_wellFormed g
  refine ⟨hwell, repair_eq_nil_iff, repair_of_wellFormed hwell, Recorded.repair_state g, ⟨?_, ?_⟩,
    Recorded.repair_of_wellFormed hwell⟩
  · intro hresult
    exact repair_eq_nil_iff.mp (Recorded.repair_eq_ok hresult).symm
  · intro hg
    rw [Recorded.repair_of_wellFormed hg]

end NodeWeave.Graph
