import NodeWeave.Proofs.Entries

/-!
# The account of a loaded document

Loading goes over two lists of entries, first the nodes and then the connections, and
judges each entry by what was taken before it: an id is in use only when the entry
that had it first was really taken.  `Admits` says this of any list of entries.  It is
made for going over a list from its start: one entry more is taken (`Admits.take`) or
passed over (`Admits.pass`), and the entries before it are judged as they were.

Each of the two loops keeps its own account, `NodesLoaded` and `LinksLoaded`, with one
lemma for an entry and one for a whole list.  The repair at the end takes links away
again, and the report is corrected by their number.  `loadWithin_accounts` puts the
parts together.
-/

namespace NodeWeave.Document

/-! ## Entries that are taken or passed over -/

/-- **Which entries of a list are taken.**  `taken` has what the taken entries give,
each with its place in the list, and `passed` has the places of all other entries. -/
structure Admits {α : Type} (Gives : Value → α → Prop) (id : α → Scalar) (entries : List Value)
    (taken : List (α × Nat)) (passed : List Nat) : Prop where
  /-- The taken entries keep their order. -/
  ordered : (taken.map Prod.snd).Pairwise (· < ·)
  given : ∀ t ∈ taken, ∃ v, entries[t.2]? = some v ∧ Gives v t.1
  /-- An entry is taken when it gives something under an id that none taken before it
  has. -/
  taken_iff : ∀ i v, entries[i]? = some v →
    (i ∈ taken.map Prod.snd ↔ ∃ a, Gives v a ∧ ∀ t ∈ taken, t.2 < i → id t.1 ≠ id a)
  /-- All other places come once each and in increasing order. -/
  passed_eq : passed = (List.range entries.length).filter fun i => i ∉ taken.map Prod.snd
  total : taken.length + passed.length = entries.length

namespace Admits

variable {α : Type} {Gives : Value → α → Prop} {id : α → Scalar} {entries : List Value}
  {taken : List (α × Nat)} {passed : List Nat} {v : Value} {a : α}

theorem nil : Admits Gives id [] [] [] :=
  ⟨List.Pairwise.nil, by simp, by simp, rfl, rfl⟩

theorem lt_length (h : Admits Gives id entries taken passed) {t : α × Nat} (ht : t ∈ taken) :
    t.2 < entries.length := by
  obtain ⟨w, hw, _⟩ := h.given t ht
  exact (List.getElem?_eq_some_iff.mp hw).1

theorem length_not_mem (h : Admits Gives id entries taken passed) :
    entries.length ∉ taken.map Prod.snd := by
  intro hmem
  obtain ⟨t, ht, hplace⟩ := List.mem_map.mp hmem
  have hlt := h.lt_length ht
  omega

/-- An entry of a longer list is one of the old ones, or the new one at the end. -/
theorem place_cases {i : Nat} {w : Value} (hw : (entries ++ [v])[i]? = some w) :
    (i < entries.length ∧ entries[i]? = some w) ∨ (i = entries.length ∧ w = v) := by
  have hi : i < entries.length + 1 := by
    simpa using (List.getElem?_eq_some_iff.mp hw).1
  by_cases hlast : i = entries.length
  · rw [hlast, List.getElem?_concat_length] at hw
    exact Or.inr ⟨hlast, (Option.some.inj hw).symm⟩
  · have hlt : i < entries.length := by omega
    rw [List.getElem?_append_left hlt] at hw
    exact Or.inl ⟨hlt, hw⟩

/-- One entry more changes nothing for the entries before it. -/
theorem given_append (h : Admits Gives id entries taken passed) (v : Value) :
    ∀ t ∈ taken, ∃ w, (entries ++ [v])[t.2]? = some w ∧ Gives w t.1 := by
  intro t ht
  obtain ⟨w, hw, hgives⟩ := h.given t ht
  exact ⟨w, by rw [List.getElem?_append_left (h.lt_length ht), hw], hgives⟩

/-- The new entry is taken. -/
theorem take (h : Admits Gives id entries taken passed) (hgives : Gives v a)
    (hfresh : ∀ t ∈ taken, id t.1 ≠ id a) :
    Admits Gives id (entries ++ [v]) (taken ++ [(a, entries.length)]) passed := by
  refine ⟨?_, ?_, ?_, ?_, ?_⟩
  · rw [List.map_append, List.pairwise_append]
    refine ⟨h.ordered, by simp, ?_⟩
    intro i hi j hj
    obtain ⟨t, ht, hplace⟩ := List.mem_map.mp hi
    have hlt := h.lt_length ht
    have hlast : j = entries.length := by simpa using hj
    omega
  · intro t ht
    rcases List.mem_append.mp ht with hold | hnew
    · exact h.given_append v t hold
    · rw [List.mem_singleton.mp hnew]
      exact ⟨v, List.getElem?_concat_length, hgives⟩
  · intro i w hw
    rcases place_cases hw with ⟨hlt, hold⟩ | ⟨hlast, hnew⟩
    · have hne : i ≠ entries.length := by omega
      have hmem : i ∈ (taken ++ [(a, entries.length)]).map Prod.snd ↔ i ∈ taken.map Prod.snd := by
        simp [hne]
      -- the new one stands behind the entry, so it has no say
      have hbefore : ∀ b, (∀ t ∈ taken ++ [(a, entries.length)], t.2 < i → id t.1 ≠ id b) ↔
          ∀ t ∈ taken, t.2 < i → id t.1 ≠ id b := by
        intro b
        constructor
        · intro hall t ht
          exact hall t (List.mem_append_left _ ht)
        · intro hall t ht hplace
          rcases List.mem_append.mp ht with hfront | hback
          · exact hall t hfront hplace
          · rw [List.mem_singleton.mp hback] at hplace
            omega
      rw [hmem, h.taken_iff i w hold]
      simp only [hbefore]
    · subst hlast hnew
      refine ⟨fun _ => ⟨a, hgives, ?_⟩, fun _ => by simp⟩
      intro t ht hbefore
      rcases List.mem_append.mp ht with hfront | hback
      · exact hfresh t hfront
      · rw [List.mem_singleton.mp hback] at hbefore
        omega
  · rw [h.passed_eq, List.length_append, List.length_singleton, List.range_succ, List.filter_append]
    have hlast : [entries.length].filter
        (fun i => i ∉ (taken ++ [(a, entries.length)]).map Prod.snd) = [] := by simp
    rw [hlast, List.append_nil]
    apply List.filter_congr
    intro i hi
    have hne : i ≠ entries.length := by
      have hlt := List.mem_range.mp hi
      omega
    simp [hne]
  · have htotal := h.total
    simp only [List.length_append, List.length_singleton]
    omega

/-- The new entry is passed over. -/
theorem pass (h : Admits Gives id entries taken passed)
    (hused : ∀ a, Gives v a → ∃ t ∈ taken, id t.1 = id a) :
    Admits Gives id (entries ++ [v]) taken (passed ++ [entries.length]) := by
  refine ⟨h.ordered, h.given_append v, ?_, ?_, ?_⟩
  · intro i w hw
    rcases place_cases hw with ⟨_, hold⟩ | ⟨hlast, hnew⟩
    · exact h.taken_iff i w hold
    · subst hlast hnew
      refine ⟨fun hmem => (h.length_not_mem hmem).elim, ?_⟩
      intro hgives
      obtain ⟨a, ha, hfresh⟩ := hgives
      obtain ⟨t, ht, hid⟩ := hused a ha
      exact (hfresh t ht (h.lt_length ht) hid).elim
  · rw [h.passed_eq, List.length_append, List.length_singleton, List.range_succ, List.filter_append]
    have hlast : [entries.length].filter (fun i => i ∉ taken.map Prod.snd) = [entries.length] := by
      rw [List.filter_singleton]
      simp only [h.length_not_mem, not_false_eq_true, decide_true, cond_true]
    rw [hlast]
  · have htotal := h.total
    simp only [List.length_append, List.length_singleton]
    omega

end Admits

/-- The number above all ids, where nothing counts below 0. -/
def nextFree (ids : List Scalar) : Int :=
  ids.foldl (fun k id =>
    match id with
    | .int i => max k (i + 1)
    | _ => k) 0

theorem nextFree_concat (ids : List Scalar) (i : Int) :
    nextFree (ids ++ [.int i]) = max (nextFree ids) (i + 1) := by
  simp only [nextFree, List.foldl_append, List.foldl_cons, List.foldl_nil]

/-- **A run over entries with their places**, seen from the entries that are done: what
holds of them and is kept by one entry more holds of all in the end. -/
theorem runUntil_zipIdx {σ : Type} {step : σ → Value × Nat → σ × Option Fault}
    {P : List Value → σ → Prop}
    (hstep : ∀ {done s t v}, P done s → step s (v, done.length) = (t, none) → P (done ++ [v]) t)
    {done rest : List Value} {s t : σ} (hs : P done s)
    (hrun : runUntil step s (rest.zipIdx done.length) = (t, none)) : P (done ++ rest) t := by
  induction rest generalizing done s with
  | nil =>
      cases hrun
      rw [List.append_nil]
      exact hs
  | cons v rest ih =>
      rw [List.zipIdx_cons] at hrun
      unfold runUntil at hrun
      split at hrun
      · cases hrun
      · rename_i next hnext
        have hplace : done.length + 1 = (done ++ [v]).length := by simp
        rw [hplace] at hrun
        have hlast := ih (hstep hs hnext) hrun
        rwa [List.append_assoc, List.singleton_append] at hlast

/-! ## The node entries -/

section Nodes

variable {limit : Nesting} {c : Catalog} {start s t : Loading} {entries : List Value}
  {taken : List (Node × Nat)}

/-- The state after some node entries: the nodes that were taken with their number,
the counter past their ids, and the places of all other entries. -/
structure NodesLoaded (c : Catalog) (start : Loading) (entries : List Value)
    (taken : List (Node × Nat)) (s : Loading) : Prop where
  admits : Admits (NodeEntry.Describes c) Node.id entries taken
    (s.report.skippedNodes.map Skipped.index)
  graph : s.graph = { start.graph with
    nodes := taken.map Prod.fst
    nextNode := .int (nextFree (taken.map fun t => t.1.id)) }
  report : s.report = { start.report with
    nodesLoaded := taken.length
    skippedNodes := s.report.skippedNodes }

/-- An id is in use when a node with it was taken. -/
theorem NodesLoaded.node?_isSome_iff (h : NodesLoaded c start entries taken s) (i : Int) :
    (s.graph.node? (.int i)).isSome = true ↔ ∃ t ∈ taken, t.1.id = .int i := by
  rw [h.graph]
  constructor
  · intro hsome
    obtain ⟨m, hm⟩ := Option.isSome_iff_exists.mp hsome
    obtain ⟨t, ht, hfst⟩ := List.mem_map.mp (Graph.node?_mem hm)
    obtain ⟨v, _, hdescribes⟩ := h.admits.given t ht
    obtain ⟨j, hj⟩ := hdescribes.id_int
    have hkey := Graph.node?_key hm
    rw [← hfst, hj] at hkey
    refine ⟨t, ht, ?_⟩
    rw [hj]
    simpa [Scalar.key] using hkey
  · intro hused
    obtain ⟨t, ht, hid⟩ := hused
    refine List.find?_isSome.mpr ⟨t.1, List.mem_map_of_mem ht, ?_⟩
    rw [hid]
    exact Scalar.same_refl _

/-- A node under a free whole number is inserted, and the counter moves past it. -/
theorem insertNode_int {g : Graph} {n : Node} {k i : Int} (hk : g.nextNode = .int k)
    (hid : n.id = .int i) (hfree : g.node? (.int i) = none) :
    g.insertNode n =
      ({ g with nodes := g.nodes ++ [n], nextNode := .int (max k (i + 1)) }, none) := by
  have hnull : g.nextLink.past .null = .ok g.nextLink := rfl
  simp [Graph.insertNode, Graph.advance, hid, hfree, hk, Number.past_int, hnull]

/-- A node that an entry describes was built from it, if the entry was skipped or
loaded: of the limits that could forbid it, one ends the loading, and so does the other,
since the id cannot be told then. -/
theorem Loading.build_of_describes {entry : Value} {e : NodeEntry} {n : Node} {fault : Fault}
    (hn : NodeEntry.Describes c entry n) (hread : NodeEntry.ofValue entry = .ok e)
    (htold : limit.ofLine.fault? (entryId entry) = none) (hfault : fault.isRefusal = true)
    (hbuild : e.build limit c = .error fault) : False := by
  obtain ⟨e', hread', hid, hresult⟩ := hn.build limit
  rw [hread] at hread'
  cases hread'
  rw [hbuild] at hresult
  rcases hresult with ⟨_, hok⟩ | hdeep | ⟨_, hlong⟩
  · cases hok
  · cases hdeep
    cases hfault
  · have hgiven : entryId entry = n.id.toValue := by rw [entryId, Value.field, hn.id]; rfl
    rw [hgiven] at htold
    rw [isWritable_of_fault? htold] at hlong
    cases hlong

/-- **What became of a node entry** that did not end the loading.  It was skipped, and
its id is in use if it describes a node at all; or its node was inserted. -/
theorem Loading.addNode_eq_ok {entry : Value × Nat} {k : Int} (hk : s.graph.nextNode = .int k)
    (hadd : s.addNode limit c entry = (t, none)) :
    (∃ reason, s.skip limit .node entry.2 entry.1 reason = (t, none) ∧
      ∀ n, NodeEntry.Describes c entry.1 n → (s.graph.node? n.id).isSome = true) ∨
    ∃ n i notices, NodeEntry.Describes c entry.1 n ∧ n.id = .int i ∧
      s.graph.node? (.int i) = none ∧
      t = { graph := { s.graph with
              nodes := s.graph.nodes ++ [n], nextNode := .int (max k (i + 1)) }
            notices
            report := { s.report with nodesLoaded := s.report.nodesLoaded + 1 } } := by
  have hbuilt : ∀ {e : NodeEntry} {n : Node} {notices : List Notice},
      NodeEntry.ofValue entry.1 = .ok e → e.build limit c = .ok (n, notices) →
      n.id = .int e.id := by
    intro e n notices hread hbuild
    obtain ⟨hx, hy⟩ := NodeEntry.ofValue_numbers hread
    exact (NodeEntry.build_fits hx hy hbuild).2
  have hstep := Loading.nodeStep limit c s entry
  generalize s.addNode limit c entry = result at hstep hadd
  cases hstep with
  | malformed hread =>
      refine Or.inl ⟨_, hadd, ?_⟩
      intro n hn
      obtain ⟨e, hread', _⟩ := hn.build limit
      rw [hread] at hread'
      cases hread'
  | inUse hread hused =>
      refine Or.inl ⟨_, hadd, ?_⟩
      intro n hn
      obtain ⟨e, hread', hid, _⟩ := hn.build limit
      rw [hread] at hread'
      cases hread'
      rw [hid]
      exact hused
  | refused hread hbuild hfault =>
      refine Or.inl ⟨_, hadd, ?_⟩
      intro n hn
      exact (Loading.build_of_describes hn hread (Loading.skip_eq_none hadd).1 hfault hbuild).elim
  | failed => cases hadd
  | rejected hread hfree hbuild hinsert =>
      rw [insertNode_int hk (hbuilt hread hbuild) hfree] at hinsert
      cases hinsert
  | @inserted e n notices graph hread hfree hbuild hinsert =>
      have hid : n.id = .int e.id := hbuilt hread hbuild
      rw [insertNode_int hk hid hfree] at hinsert
      cases hinsert
      cases hadd
      exact Or.inr ⟨n, e.id, s.notices ++ notices,
        NodeEntry.describes_of_build hread hbuild, hid, hfree, rfl⟩

/-- **One node entry keeps the account.** -/
theorem NodesLoaded.step (h : NodesLoaded c start entries taken s) {v : Value}
    (hadd : s.addNode limit c (v, entries.length) = (t, none)) :
    ∃ taken', NodesLoaded c start (entries ++ [v]) taken' t := by
  have hk : s.graph.nextNode = .int (nextFree (taken.map fun t => t.1.id)) := by rw [h.graph]
  rcases Loading.addNode_eq_ok hk hadd with
    ⟨reason, hskip, hused⟩ | ⟨n, i, notices, hdescribes, hid, hfree, ht⟩
  · obtain ⟨_, hgraph, left, hindex, hreport⟩ := Loading.skip_eq_none hskip
    refine ⟨taken, ?_, hgraph.trans h.graph, ?_⟩
    · rw [hreport]
      simp only [Report.skip, List.map_append, List.map_cons, List.map_nil, hindex]
      apply h.admits.pass
      intro n hn
      obtain ⟨i, hi⟩ := hn.id_int
      have hsome := hused n hn
      rw [hi] at hsome
      rw [hi]
      exact (h.node?_isSome_iff i).mp hsome
    · rw [hreport, Report.skip, h.report]
  · refine ⟨taken ++ [(n, entries.length)], ?_, ?_, ?_⟩
    · rw [ht]
      apply h.admits.take hdescribes
      intro u hu heq
      have hsome := (h.node?_isSome_iff i).mpr ⟨u, hu, heq.trans hid⟩
      rw [hfree] at hsome
      cases hsome
    · rw [ht, List.map_append, List.map_append, List.map_singleton, List.map_singleton, hid,
        nextFree_concat, h.graph]
    · rw [ht]
      dsimp only
      rw [h.report, List.length_append, List.length_singleton]

/-- **All node entries keep the account.** -/
theorem NodesLoaded.run (h : NodesLoaded c start [] [] s)
    (hrun : runUntil (Loading.addNode limit c) s entries.zipIdx = (t, none)) :
    ∃ taken, NodesLoaded c start entries taken t :=
  runUntil_zipIdx (P := fun done s => ∃ taken, NodesLoaded c start done taken s)
    (fun ⟨_, hdone⟩ hadd => hdone.step hadd) ⟨[], h⟩ hrun

end Nodes

/-! ## The connection entries -/

section Links

variable {limit : Nesting} {start s t : Loading} {entries : List Value}
  {taken : List (Link × Nat)}

/-- The state after some connection entries: the links that were taken with their
number, the counter past their ids, and the places of all other entries. -/
structure LinksLoaded (start : Loading) (entries : List Value) (taken : List (Link × Nat))
    (s : Loading) : Prop where
  admits : Admits (LinkEntry.Describes start.graph) Link.id entries taken
    (s.report.skippedLinks.map Skipped.index)
  graph : s.graph = { start.graph with
    links := taken.map Prod.fst
    nextLink := .int (nextFree (taken.map fun t => t.1.id)) }
  report : s.report = { start.report with
    linksLoaded := taken.length
    skippedLinks := s.report.skippedLinks }

/-- An id is in use when a link with it was taken. -/
theorem LinksLoaded.link?_isSome_iff (h : LinksLoaded start entries taken s) (i : Int) :
    (s.graph.link? (.int i)).isSome = true ↔ ∃ t ∈ taken, t.1.id = .int i := by
  have hint : ∀ t ∈ taken, ∃ j : Int, t.1.id = .int j := by
    intro t ht
    obtain ⟨v, _, hdescribes⟩ := h.admits.given t ht
    obtain ⟨e, _, hid, _⟩ := LinkEntry.describes_iff.mp hdescribes
    exact ⟨e.id, hid⟩
  rw [h.graph]
  simp only [Graph.link?, List.find?_isSome, List.mem_map]
  constructor
  · intro hsome
    obtain ⟨l, ⟨t, ht, hfst⟩, hsame⟩ := hsome
    obtain ⟨j, hj⟩ := hint t ht
    rw [← hfst, hj, Scalar.toValue, Value.same_int, decide_eq_true_eq] at hsame
    exact ⟨t, ht, by rw [hj, hsame]⟩
  · intro hused
    obtain ⟨t, ht, hid⟩ := hused
    refine ⟨t.1, ⟨t, ht, rfl⟩, ?_⟩
    rw [hid, Scalar.toValue, Value.same_int, decide_eq_true_eq]

/-- **What became of a connection entry** that did not end the loading.  It was skipped,
and its id is in use if it describes a link at all; or its link was inserted. -/
theorem Loading.addLink_eq_ok {entry : Value × Nat} {k : Int} (hk : s.graph.nextLink = .int k)
    (hadd : s.addLink limit entry = (t, none)) :
    (∃ reason, s.skip limit .connection entry.2 entry.1 reason = (t, none) ∧
      ∀ l, LinkEntry.Describes s.graph entry.1 l → ∃ i : Int, l.id = .int i ∧
        (s.graph.link? (.int i)).isSome = true) ∨
    ∃ l i, LinkEntry.Describes s.graph entry.1 l ∧ l.id = .int i ∧
      s.graph.link? (.int i) = none ∧
      t = { s with
        graph := { s.graph with links := s.graph.links ++ [l], nextLink := .int (max k (i + 1)) }
        report := { s.report with linksLoaded := s.report.linksLoaded + 1 } } := by
  have hinserts : ∀ i o t, s.graph.insertLink (.int i) o t = .ok
      ({ s.graph with
          links := s.graph.links ++ [⟨.int i, o, t⟩]
          nextLink := .int (max k (i + 1)) }, ⟨.int i, o, t⟩) := by
    intro i o t
    simp only [Graph.insertLink, hk, Number.past_int, bind, Except.bind, pure, Except.pure]
  have hstep := Loading.linkStep limit s entry
  generalize s.addLink limit entry = result at hstep hadd
  cases hstep with
  | malformed hread =>
      refine Or.inl ⟨_, hadd, ?_⟩
      intro l hl
      obtain ⟨e, hread', _⟩ := LinkEntry.describes_iff.mp hl
      rw [hread] at hread'
      cases hread'
  | @refused e reason hread hverdict =>
      refine Or.inl ⟨_, hadd, ?_⟩
      intro l hl
      obtain ⟨e', hread', hid, hports, hsides, hnorm⟩ := LinkEntry.describes_iff.mp hl
      rw [hread] at hread'
      cases hread'
      refine ⟨e.id, hid, ?_⟩
      -- with a free id the entry would have been admitted
      by_contra hfree
      have hnone : s.graph.link? (.int e.id) = none := by simpa using hfree
      have hok := LinkEntry.admit_eq_ok.mpr ⟨hports, hsides, hnone, hnorm⟩
      rw [hverdict] at hok
      cases hok
  | rejected hread hverdict hinsert =>
      rw [hinserts] at hinsert
      cases hinsert
  | @inserted e o i graph l hread hverdict hinsert =>
      obtain ⟨hports, hsides, hnone, hnorm⟩ := LinkEntry.admit_eq_ok.mp hverdict
      rw [hinserts] at hinsert
      cases hinsert
      cases hadd
      exact Or.inr ⟨⟨.int e.id, o, i⟩, e.id,
        LinkEntry.describes_iff.mpr ⟨e, hread, rfl, hports, hsides, hnorm⟩, rfl, hnone, rfl⟩

/-- **One connection entry keeps the account.** -/
theorem LinksLoaded.step (h : LinksLoaded start entries taken s) {v : Value}
    (hadd : s.addLink limit (v, entries.length) = (t, none)) :
    ∃ taken', LinksLoaded start (entries ++ [v]) taken' t := by
  have hk : s.graph.nextLink = .int (nextFree (taken.map fun t => t.1.id)) := by rw [h.graph]
  have hsame : LinkEntry.Describes s.graph = LinkEntry.Describes start.graph :=
    LinkEntry.describes_congr (by rw [h.graph])
  rcases Loading.addLink_eq_ok hk hadd with
    ⟨reason, hskip, hused⟩ | ⟨l, i, hdescribes, hid, hfree, ht⟩
  · obtain ⟨_, hgraph, left, hindex, hreport⟩ := Loading.skip_eq_none hskip
    refine ⟨taken, ?_, hgraph.trans h.graph, ?_⟩
    · rw [hreport]
      simp only [Report.skip, List.map_append, List.map_cons, List.map_nil, hindex]
      apply h.admits.pass
      intro l hl
      obtain ⟨i, hi, hsome⟩ := hused l (hsame ▸ hl)
      rw [hi]
      exact (h.link?_isSome_iff i).mp hsome
    · rw [hreport, Report.skip, h.report]
  · refine ⟨taken ++ [(l, entries.length)], ?_, ?_, ?_⟩
    · rw [ht]
      apply h.admits.take (hsame ▸ hdescribes)
      intro u hu heq
      have hsome := (h.link?_isSome_iff i).mpr ⟨u, hu, heq.trans hid⟩
      rw [hfree] at hsome
      cases hsome
    · rw [ht, List.map_append, List.map_append, List.map_singleton, List.map_singleton, hid,
        nextFree_concat, h.graph]
    · rw [ht]
      dsimp only
      rw [h.report, List.length_append, List.length_singleton]
      rfl

/-- **All connection entries keep the account.** -/
theorem LinksLoaded.run (h : LinksLoaded start [] [] s)
    (hrun : runUntil (Loading.addLink limit) s entries.zipIdx = (t, none)) :
    ∃ taken, LinksLoaded start entries taken t :=
  runUntil_zipIdx (P := fun done s => ∃ taken, LinksLoaded start done taken s)
    (fun ⟨_, hdone⟩ hadd => hdone.step hadd) ⟨[], h⟩ hrun

end Links

/-! ## The whole document -/

/-- **The account of a loaded document.**  `nodes` and `links` are what was taken from
the lists of the outline, each with its place there. -/
structure Accounts (c : Catalog) (outline : Outline) (nodes : List (Node × Nat))
    (links : List (Link × Nat)) (g : Graph) (r : Report) : Prop where
  /-- The nodes are those of the entries that describe one under a free id. -/
  nodes_taken : Admits (NodeEntry.Describes c) Node.id outline.nodes nodes
    (r.skippedNodes.map Skipped.index)
  nodes_eq : g.nodes = nodes.map Prod.fst
  /-- The links are judged by the nodes that were loaded. -/
  links_taken : Admits (LinkEntry.Describes g) Link.id outline.connections links
    (r.skippedLinks.map Skipped.index)
  /-- What is left of them is what a repair leaves. -/
  links_repaired : ∃ removed, r.removed = removed.map Link.id ∧
    ({ g with links := links.map Prod.fst } : Graph).repair = (g, removed)
  nodesLoaded : r.nodesLoaded = g.nodes.length
  linksLoaded : r.linksLoaded = g.links.length
  /-- No entry is lost. -/
  nodes_total : r.nodesLoaded + r.skippedNodes.length = outline.nodes.length
  links_total : r.linksLoaded + r.skippedLinks.length + r.removed.length =
    outline.connections.length
  /-- The counters are past the ids of all that was taken. -/
  nextNode : g.nextNode = .int (nextFree (nodes.map fun t => t.1.id))
  nextLink : g.nextLink = .int (nextFree (links.map fun t => t.1.id))

/-- The repair of the links completes the account. -/
theorem accounts_finish {c : Catalog} {outline : Outline} {s t : Loading}
    {nodes : List (Node × Nat)} {links : List (Link × Nat)} {r : Report}
    (hnodes : NodesLoaded c (Loading.start outline) outline.nodes nodes s)
    (hlinks : LinksLoaded s outline.connections links t) (hr : t.finish.result = .ok r) :
    Accounts c outline nodes links t.finish.state r := by
  have hreport : r = { t.report with
      linksLoaded := t.report.linksLoaded - t.graph.repair.2.length
      removed := t.graph.repair.2.map Link.id } := by
    obtain ⟨removed, hremoved, heq⟩ := map_eq_ok hr
    rw [← heq, Graph.Recorded.repair_eq_ok hremoved]
  have hlist : t.graph.links = links.map Prod.fst := by rw [hlinks.graph]
  have hfinish : t.finish.state = { t.graph with links := t.graph.repair.1.links } :=
    Graph.Recorded.repair_state t.graph
  have hwhole : ({ t.finish.state with links := links.map Prod.fst } : Graph) = t.graph := by
    rw [hfinish, ← hlist]
  have hkeptNodes : t.finish.state.nodes = s.graph.nodes := by rw [hfinish, hlinks.graph]
  have hstate : t.finish.state.nodes = nodes.map Prod.fst := by rw [hkeptNodes, hnodes.graph]
  have hsame : LinkEntry.Describes t.finish.state = LinkEntry.Describes s.graph :=
    LinkEntry.describes_congr hkeptNodes
  have hskipped : t.report.skippedNodes = s.report.skippedNodes := by rw [hlinks.report]
  have hnodesLoaded : t.report.nodesLoaded = nodes.length := by rw [hlinks.report, hnodes.report]
  have hlinksLoaded : t.report.linksLoaded = links.length := by rw [hlinks.report]
  -- what the repair removed was counted before
  have hkept : t.finish.state.links.length + t.graph.repair.2.length = links.length := by
    rw [hfinish, Graph.repair_length, hlist, List.length_map]
  have hnodesTotal := hnodes.admits.total
  have hlinksTotal := hlinks.admits.total
  rw [List.length_map] at hnodesTotal hlinksTotal
  subst hreport
  exact
    { nodes_taken := hskipped ▸ hnodes.admits
      nodes_eq := hstate
      links_taken := hsame ▸ hlinks.admits
      links_repaired := ⟨t.graph.repair.2, rfl, by rw [hwhole, hfinish]; rfl⟩
      nodesLoaded := by rw [hstate, List.length_map, ← hnodesLoaded]
      linksLoaded := by
        dsimp only
        omega
      nodes_total := by
        dsimp only
        rw [hskipped, hnodesLoaded]
        exact hnodesTotal
      links_total := by
        dsimp only
        rw [List.length_map]
        omega
      nextNode := by rw [hfinish, hlinks.graph, hnodes.graph]
      nextLink := by rw [hfinish, hlinks.graph] }

/-- The graph that was there before has no part in a loading that gives a report. -/
theorem loadWithin_free_of_old {limit : Nesting} {c : Catalog} {g : Graph} {doc : Value}
    {report : Report} (hload : (loadWithin limit c g doc).result = .ok report) (old : Graph) :
    loadWithin limit c old doc = loadWithin limit c g doc := by
  unfold loadWithin at hload ⊢
  cases houtline : Outline.ofValue doc with
  | error cause =>
      rw [houtline] at hload
      cases hload
  | ok outline => rfl

/-- A loading that gives a report has come to its end, and both runs keep the account. -/
theorem accounts_of_load {limit : Nesting} {c : Catalog} {g : Graph} {doc : Value}
    {report : Report} (hload : (loadWithin limit c g doc).result = .ok report) :
    ∃ outline nodes links, Outline.ofValue doc = .ok outline ∧
      Accounts c outline nodes links (loadWithin limit c g doc).state report := by
  have hcourse := course limit c g doc
  generalize loadWithin limit c g doc = outcome at hcourse hload
  cases hcourse with
  | refused => cases hload
  | atNode => cases hload
  | atLink => cases hload
  | @finished outline s t houtline hnodes hlinks =>
      have hstart : NodesLoaded c (Loading.start outline) [] [] (Loading.start outline) :=
        ⟨Admits.nil, rfl, rfl⟩
      obtain ⟨nodes, hnodes⟩ := hstart.run hnodes
      have hfirst : LinksLoaded s [] [] s := by
        refine ⟨?_, ?_, ?_⟩
        · rw [hnodes.report]
          exact Admits.nil
        · rw [hnodes.graph]
          rfl
        · rw [hnodes.report]
          rfl
      obtain ⟨links, hlinks⟩ := hfirst.run hlinks
      exact ⟨outline, nodes, links, houtline, accounts_finish hnodes hlinks hload⟩

/-- **Loading restores the admissible entries and accounts for all others.**  Whenever
loading gives a report, the graph and the report are an account of the document; and
the graph that was there before has no part in them. -/
theorem loadWithin_accounts {limit : Nesting} {c : Catalog} {g : Graph} {doc : Value}
    {report : Report} (hload : (loadWithin limit c g doc).result = .ok report) :
    (∃ outline nodes links, Outline.ofValue doc = .ok outline ∧
      Accounts c outline nodes links (loadWithin limit c g doc).state report) ∧
    ∀ old, loadWithin limit c old doc = loadWithin limit c g doc :=
  ⟨accounts_of_load hload, loadWithin_free_of_old hload⟩

/-- A catalog with one type of nodes, which pass control flow on and have a value. -/
def relayCatalog : Value :=
  .obj [("nodeCategories", .obj [("flow", .obj [("nodes", .obj [("relay", .obj [
    ("inputs", .list [.obj [("type", .str "exec")]]),
    ("outputs", .list [.obj [("type", .str "exec")]]),
    ("value", .obj [("type", .str "int"), ("default", .int 1)])])])])])]

/-- A document with entries of every kind.  Of the nodes the second has the id of the
first, the third has no type and the fourth an unknown one.  Of the connections the
first comes from input to output, the second has its id again, the third leads to a
node that was not loaded, and the last starts where the first does. -/
def mixedDocument : Value :=
  let node (id : Int) (type : String) : Value := .obj [("id", .int id),
    ("category", .str "flow"), ("type", .str type), ("value", .int 7)]
  let port (node : Int) (side : String) : Value :=
    .obj [("nodeId", .int node), ("portIndex", .int 0), ("portType", .str side)]
  let link (id : Int) (source target : Value) : Value :=
    .obj [("id", .int id), ("from", source), ("to", target)]
  .obj [
    ("nodes", .list [node 3 "relay", node 3 "relay", .obj [("id", .int 5)], node 6 "jump",
      node 4 "relay", node 8 "relay"]),
    ("connections", .list [link 1 (port 4 "input") (port 3 "output"),
      link 1 (port 4 "output") (port 8 "input"), link 2 (port 3 "output") (port 6 "input"),
      link 9 (port 3 "output") (port 8 "input")])]

/-- What becomes of the document. -/
def mixedLoad : Outcome Graph Report :=
  loadWithin .direct (Catalog.merge {} relayCatalog).1 Graph.empty mixedDocument

/-- Three nodes and a link are loaded, and each other entry is told. -/
theorem loadWithin_accounts_mixed :
    (mixedLoad.state.nodes.map Node.id = [.int 3, .int 4, .int 8] ∧
      mixedLoad.state.links = [⟨.int 1, ⟨.int 3, .output, 0⟩, ⟨.int 4, .input, 0⟩⟩]) ∧
    ∃ report outline nodes links, mixedLoad.result = .ok report ∧
      (report.skippedNodes.map Skipped.index, report.skippedLinks.map Skipped.index,
        report.removed) = ([1, 2, 3], [1, 2], [.int 9]) ∧
      Outline.ofValue mixedDocument = .ok outline ∧
      Accounts (Catalog.merge {} relayCatalog).1 outline nodes links mixedLoad.state report := by
  refine ⟨by decide +kernel, ?_⟩
  have hshape : mixedLoad.result.toOption.map (fun r => (r.skippedNodes.map Skipped.index,
      r.skippedLinks.map Skipped.index, r.removed)) = some ([1, 2, 3], [1, 2], [.int 9]) := by
    decide +kernel
  cases hresult : mixedLoad.result with
  | error fault =>
      rw [hresult] at hshape
      cases hshape
  | ok report =>
      rw [hresult] at hshape
      obtain ⟨⟨outline, nodes, links, houtline, haccounts⟩, _⟩ := loadWithin_accounts hresult
      exact ⟨report, outline, nodes, links, rfl, Option.some.inj hshape, houtline, haccounts⟩

end NodeWeave.Document
