import NodeWeave.Proofs.DataCycle
import NodeWeave.Proofs.FlowTrace
import NodeWeave.Proofs.Lookup

/-!
# Which nodes control flow visits

Control flow is followed depth first, with one list of visited nodes that all
branches share: what an earlier branch visited is closed to the later ones.
`FlowStep` is one step of it, and a `WhitePath` is a row of steps through nodes
that were not visited at the start.

`Search` says what following control flow from some start nodes adds to the list:
only ends of white paths, all starts, and with a new node all that it leads to.
It is made for composition: searches that follow each other are one search
(`Search.append`), and a node with a search from all it leads to is a search from
that node (`Search.expand`).  With these the recursion needs one induction on the
room (`search_traceIn`).  Since new nodes are closed under steps, a white path
cannot leave them, and so the visited nodes are exactly the ends of white paths
(`Search.mem_iff`).
-/

namespace NodeWeave.Program

variable {b : Bounds} {c : Catalog} {g : Graph} {limit : Value} {visited : List Scalar}
  {n m v w : Node}

theorem onPath_iff {path : List Scalar} {id : Scalar} :
    onPath path id = true ↔ id.key ∈ path.map Scalar.key := by
  simp only [onPath, List.any_eq_true, Scalar.same_iff, List.mem_map]
  constructor
  · rintro ⟨a, ha, hkey⟩
    exact ⟨a, ha, hkey.symm⟩
  · rintro ⟨a, ha, hkey⟩
    exact ⟨a, ha, hkey.symm⟩

theorem onPath_append {path rest : List Scalar} {id : Scalar} :
    onPath (path ++ rest) id = true ↔ onPath path id = true ∨ onPath rest id = true := by
  simp [onPath_iff]

theorem onPath_eq_false_left {path rest : List Scalar} {id : Scalar}
    (h : onPath (path ++ rest) id = false) : onPath path id = false :=
  Bool.eq_false_iff.mpr fun hold => Bool.eq_false_iff.mp h (onPath_append.mpr (Or.inl hold))

theorem onPath_singleton {a id : Scalar} : onPath [a] id = true ↔ id.key = a.key := by
  simp [onPath_iff]

/-- **One step of control flow.**  The first exec input of the node has a template,
and some link leaves the node by a control-flow port and leads to the other. -/
structure FlowStep (c : Catalog) (g : Graph) (v w : Node) : Prop where
  template : ∃ type input, typeOf c v = some type ∧ type.execInput = some input ∧
    input.code.isSome = true
  link : ∃ l ∈ g.links, l.source.node.same v.id = true ∧
    (∃ output, g.port? l.source = some output ∧ output.isExec = true) ∧
    g.node? l.target.node = some w

/-- A row of steps through nodes that are not among those visited before. -/
inductive WhitePath (c : Catalog) (g : Graph) (visited : List Scalar) : Node → Node → Prop
  | nil {n : Node} (hwhite : onPath visited n.id = false) : WhitePath c g visited n n
  | cons {v w m : Node} (hwhite : onPath visited v.id = false) (hstep : FlowStep c g v w)
      (tail : WhitePath c g visited w m) : WhitePath c g visited v m

/-- A path stays white when fewer nodes were visited before. -/
theorem WhitePath.weaken {fewer : List Scalar} (hpath : WhitePath c g visited v m)
    (hfewer : ∀ id, onPath fewer id = true → onPath visited id = true) :
    WhitePath c g fewer v m := by
  have hwhite : ∀ id, onPath visited id = false → onPath fewer id = false := fun id hid =>
    Bool.eq_false_iff.mpr fun h => Bool.eq_false_iff.mp hid (hfewer id h)
  induction hpath with
  | nil hn => exact .nil (hwhite _ hn)
  | cons hv hstep _ ih => exact .cons (hwhite _ hv) hstep ih

theorem follow?_eq_some {l : Link} {output : Port} : follow? g l = some (output, w) ↔
    g.port? l.source = some output ∧ output.isExec = true ∧ g.node? l.target.node = some w := by
  constructor
  · intro hfollow
    obtain ⟨found, hsource, hrest⟩ := Option.bind_eq_some_iff.mp hfollow
    obtain ⟨hexec, hrest⟩ := guard_bind_eq_some.mp hrest
    obtain ⟨target, hnode, heq⟩ := Option.bind_eq_some_iff.mp hrest
    cases heq
    exact ⟨hsource, hexec, hnode⟩
  · rintro ⟨hsource, hexec, hnode⟩
    refine Option.bind_eq_some_iff.mpr ⟨output, hsource, guard_bind_eq_some.mpr ⟨hexec, ?_⟩⟩
    simp [hnode]

theorem follow?_eq_none {l : Link} : follow? g l = none ↔
    ∀ output, g.port? l.source = some output → output.isExec = true →
      ∀ w, g.node? l.target.node ≠ some w := by
  rw [Option.eq_none_iff_forall_ne_some]
  constructor
  · intro hnone output hsource hexec w hnode
    exact hnone (output, w) (follow?_eq_some.mpr ⟨hsource, hexec, hnode⟩)
  · rintro hno ⟨output, w⟩ hfollow
    obtain ⟨hsource, hexec, hnode⟩ := follow?_eq_some.mp hfollow
    exact hno output hsource hexec w hnode

theorem flowStep_iff : FlowStep c g v w ↔ (statementTemplate? c v).isSome = true ∧
    ∃ l ∈ g.linksOutOf v.id, ∃ output, follow? g l = some (output, w) := by
  constructor
  · rintro ⟨htemplate, l, hl, hnode, ⟨output, hsource, hexec⟩, htarget⟩
    refine ⟨template_isSome.mpr htemplate, l, List.mem_filter.mpr ⟨hl, hnode⟩, output, ?_⟩
    exact follow?_eq_some.mpr ⟨hsource, hexec, htarget⟩
  · rintro ⟨htemplate, l, hl, output, hfollow⟩
    obtain ⟨hlink, hnode⟩ := List.mem_filter.mp hl
    obtain ⟨hsource, hexec, htarget⟩ := follow?_eq_some.mp hfollow
    exact ⟨template_isSome.mp htemplate, l, hlink, hnode, ⟨output, hsource, hexec⟩, htarget⟩

/-! ## Searches -/

/-- **What following control flow from some nodes does** to the list of visited
nodes; the last list names the nodes whose templates were filled in. -/
structure Search (c : Catalog) (g : Graph) (visited : List Scalar) (starts : Node → Prop)
    (reached expanded : List Scalar) : Prop where
  /-- New ids come at the end, each once, and each is the end of a white path.  Among
  them are those of the templates. -/
  grows : ∃ new, reached = visited ++ new ∧ (new.map Scalar.key).Nodup ∧
    (∀ id ∈ new, onPath visited id = false) ∧
    (∀ id ∈ new, ∃ s m, starts s ∧ WhitePath c g visited s m ∧ m.id = id) ∧
    expanded.Sublist new
  covers : ∀ s, starts s → onPath reached s.id = true
  closed : ∀ v w, g.node? v.id = some v → onPath visited v.id = false →
    onPath reached v.id = true → FlowStep c g v w → onPath reached w.id = true

variable {starts others : Node → Prop} {reached further expanded more : List Scalar}

theorem Search.onPath_reached (hsearch : Search c g visited starts reached expanded) {id : Scalar}
    (hid : onPath visited id = true) : onPath reached id = true := by
  obtain ⟨new, rfl, _⟩ := hsearch.grows
  exact onPath_append.mpr (Or.inl hid)

/-- Nothing is added where all starts were visited before. -/
theorem Search.idle (hstarts : ∀ s, starts s → onPath visited s.id = true) :
    Search c g visited starts visited [] where
  grows := ⟨[], by simp⟩
  covers := hstarts
  closed := by
    intro v w _ hwhite hreached
    exact absurd hreached (Bool.eq_false_iff.mp hwhite)

/-- **Searches that follow each other are one search.** -/
theorem Search.append (hfirst : Search c g visited starts reached expanded)
    (hsecond : Search c g reached others further more) :
    Search c g visited (fun s => starts s ∨ others s) further (expanded ++ more) where
  grows := by
    obtain ⟨new, rfl, hnodup, hfresh, hwhite, hsub⟩ := hfirst.grows
    obtain ⟨new', rfl, hnodup', hfresh', hwhite', hsub'⟩ := hsecond.grows
    refine ⟨new ++ new', by simp, ?_, ?_, ?_, hsub.append hsub'⟩
    · rw [List.map_append, List.nodup_append]
      refine ⟨hnodup, hnodup', ?_⟩
      rintro a ha b hb rfl
      obtain ⟨id, hid, rfl⟩ := List.mem_map.mp hb
      exact Bool.eq_false_iff.mp (hfresh' id hid) (onPath_append.mpr (Or.inr (onPath_iff.mpr ha)))
    · intro id hid
      rcases List.mem_append.mp hid with hid | hid
      · exact hfresh id hid
      · exact onPath_eq_false_left (hfresh' id hid)
    · intro id hid
      rcases List.mem_append.mp hid with hid | hid
      · obtain ⟨s, m, hs, hpath, hm⟩ := hwhite id hid
        exact ⟨s, m, Or.inl hs, hpath, hm⟩
      · obtain ⟨s, m, hs, hpath, hm⟩ := hwhite' id hid
        exact ⟨s, m, Or.inr hs, hpath.weaken fun _ h => onPath_append.mpr (Or.inl h), hm⟩
  covers := by
    rintro s (hs | hs)
    · exact hsecond.onPath_reached (hfirst.covers s hs)
    · exact hsecond.covers s hs
  closed := by
    intro v w hv hwhite hreached hstep
    -- a new node was added by one of the two, and that one follows its steps
    cases hmid : onPath reached v.id with
    | true => exact hsecond.onPath_reached (hfirst.closed v w hv hwhite hmid hstep)
    | false => exact hsecond.closed v w hv hmid hreached hstep

/-- A search from the same nodes, described in another way. -/
theorem Search.congr (hsearch : Search c g visited starts reached expanded)
    (hiff : ∀ s, starts s ↔ others s) : Search c g visited others reached expanded := by
  rwa [show others = starts from funext fun s => propext (hiff s).symm]

/-- **A node with a search from all it leads to** is a search from that node. -/
theorem Search.expand (hn : g.node? n.id = some n) (hwhite : onPath visited n.id = false)
    (hsearch : Search c g (visited ++ [n.id]) (FlowStep c g n) reached expanded)
    (hexpanded : more = expanded ∨ more = n.id :: expanded) :
    Search c g visited (fun s => s = n) reached more where
  grows := by
    obtain ⟨new, rfl, hnodup, hfresh, hpaths, hsub⟩ := hsearch.grows
    refine ⟨n.id :: new, by simp, ?_, ?_, ?_, ?_⟩
    · rw [List.map_cons, List.nodup_cons]
      refine ⟨fun hmem => ?_, hnodup⟩
      obtain ⟨id, hid, hkey⟩ := List.mem_map.mp hmem
      exact Bool.eq_false_iff.mp (hfresh id hid)
        (onPath_append.mpr (Or.inr (onPath_singleton.mpr hkey)))
    · intro id hid
      rcases List.mem_cons.mp hid with rfl | hid
      · exact hwhite
      · exact onPath_eq_false_left (hfresh id hid)
    · intro id hid
      rcases List.mem_cons.mp hid with rfl | hid
      · exact ⟨n, n, rfl, .nil hwhite, rfl⟩
      · obtain ⟨s, m, hs, hpath, hm⟩ := hpaths id hid
        exact ⟨n, m, rfl,
          .cons hwhite hs (hpath.weaken fun _ h => onPath_append.mpr (Or.inl h)), hm⟩
    · rcases hexpanded with rfl | rfl
      · exact hsub.cons n.id
      · exact hsub.cons_cons n.id
  covers := by
    rintro s rfl
    exact hsearch.onPath_reached (onPath_append.mpr (Or.inr (onPath_singleton.mpr rfl)))
  closed := by
    intro v w hv hnew hreached hstep
    by_cases hkey : v.id.key = n.id.key
    · have hvn : v = n := by
        rw [Graph.node?_congr g hkey, hn] at hv
        exact (Option.some.inj hv).symm
      exact hsearch.covers w (hvn ▸ hstep)
    · refine hsearch.closed v w hv (Bool.eq_false_iff.mpr fun hon => ?_) hreached hstep
      rcases onPath_append.mp hon with hold | hlast
      · exact Bool.eq_false_iff.mp hnew hold
      · exact hkey (onPath_singleton.mp hlast)

/-! ## The recursion -/

/-- The number of nodes that were not visited. -/
def unvisited (g : Graph) (visited : List Scalar) : Nat :=
  g.nodes.countP fun v => !onPath visited v.id

theorem unvisited_pos (hn : n ∈ g.nodes) (hwhite : onPath visited n.id = false) :
    0 < unvisited g visited :=
  List.countP_pos_iff.mpr ⟨n, hn, by simp [hwhite]⟩

theorem unvisited_le (hmore : ∀ id, onPath visited id = true → onPath reached id = true) :
    unvisited g reached ≤ unvisited g visited := by
  refine List.countP_mono_left fun v _ hv => ?_
  rw [Bool.not_eq_true'] at hv ⊢
  exact Bool.eq_false_iff.mpr fun h => Bool.eq_false_iff.mp hv (hmore _ h)

theorem unvisited_lt (hn : n ∈ g.nodes) (hwhite : onPath visited n.id = false) :
    unvisited g (visited ++ [n.id]) < unvisited g visited := by
  unfold unvisited
  generalize g.nodes = nodes at hn
  have hle : ∀ nodes : List Node, nodes.countP (fun v => !onPath (visited ++ [n.id]) v.id) ≤
      nodes.countP fun v => !onPath visited v.id := by
    intro nodes
    refine List.countP_mono_left fun v _ hv => ?_
    rw [Bool.not_eq_true'] at hv ⊢
    exact onPath_eq_false_left hv
  obtain ⟨before, after, rfl⟩ := List.append_of_mem hn
  have hself : onPath (visited ++ [n.id]) n.id = true :=
    onPath_append.mpr (Or.inr (onPath_singleton.mpr rfl))
  have hbefore := hle before
  have hafter := hle after
  simp only [List.countP_append, List.countP_cons, hself, hwhite, Bool.not_true, Bool.not_false,
    Bool.false_eq_true, if_false, if_true]
  omega

/-- The links of a node are followed one after the other. -/
theorem search_foldlM {room : Nat} {write : List Scalar → Node → Except Fault Trace}
    (hwrite : ∀ visited n t, g.node? n.id = some n → unvisited g visited ≤ room →
      write visited n = .ok t → Search c g visited (fun s => s = n) t.visited t.expanded)
    (links : List Link) {s t : Trace} (hroom : unvisited g s.visited ≤ room)
    (hrun : links.foldlM (traceFlow g write) s = .ok t) :
    ∃ more, t.expanded = s.expanded ++ more ∧ Search c g s.visited
      (fun w => ∃ l ∈ links, ∃ output, follow? g l = some (output, w)) t.visited more := by
  induction links generalizing s with
  | nil =>
      cases hrun
      exact ⟨[], by simp, Search.idle (by simp)⟩
  | cons l rest ih =>
      rw [List.foldlM_cons] at hrun
      obtain ⟨u, hflow, hrest⟩ := bind_eq_ok hrun
      unfold traceFlow at hflow
      split at hflow
      · rename_i hnone
        cases hflow
        obtain ⟨more, hexpanded, hsearch⟩ := ih hroom hrest
        exact ⟨more, hexpanded, hsearch.congr (by simp [hnone])⟩
      · rename_i output target hfollow
        obtain ⟨step, hstep, hflow⟩ := bind_eq_ok hflow
        obtain ⟨code, _, hflow⟩ := bind_eq_ok hflow
        cases hflow
        have hnode := Graph.node?_self (follow?_eq_some.mp hfollow).2.2
        have hfirst := hwrite _ _ _ hnode hroom hstep
        have hroom' : unvisited g step.visited ≤ room :=
          Nat.le_trans (unvisited_le fun _ => hfirst.onPath_reached) hroom
        obtain ⟨more, hexpanded, hsearch⟩ :=
          ih (s := ⟨code, step.visited, s.expanded ++ step.expanded⟩) hroom' hrest
        refine ⟨step.expanded ++ more, by rw [hexpanded]; simp, ?_⟩
        refine (hfirst.append hsearch).congr fun w => ⟨?_, ?_⟩
        · rintro (rfl | ⟨k, hk, hfollowed⟩)
          · exact ⟨l, List.mem_cons_self, output, hfollow⟩
          · exact ⟨k, List.mem_cons_of_mem _ hk, hfollowed⟩
        · rintro ⟨k, hk, port, hfollowed⟩
          rcases List.mem_cons.mp hk with rfl | hk
          · rw [hfollow] at hfollowed
            cases hfollowed
            exact Or.inl rfl
          · exact Or.inr ⟨k, hk, port, hfollowed⟩

/-- **Following control flow from a node is a search from it.**  The induction is
on the room, which never runs out: every round visits one more node. -/
theorem search_traceIn (room : Nat) {b : Bounds} {visited : List Scalar} {n : Node} {t : Trace}
    (hn : g.node? n.id = some n) (hroom : unvisited g visited ≤ room)
    (hrun : traceIn c g limit room b visited n = .ok t) :
    Search c g visited (fun s => s = n) t.visited t.expanded := by
  induction room generalizing b visited n t with
  | zero =>
      unfold traceIn at hrun
      split at hrun
      · rename_i hold
        cases hrun
        exact Search.idle fun s hs => hs ▸ hold
      · rename_i hwhite
        have hpos := unvisited_pos (Graph.node?_mem hn) (by simpa using hwhite)
        omega
  | succ room ih =>
      unfold traceIn at hrun
      split at hrun
      · rename_i hold
        cases hrun
        exact Search.idle fun s hs => hs ▸ hold
      · rename_i hwhite
        rw [Bool.not_eq_true] at hwhite
        cases htemplate : statementTemplate? c n with
        | none =>
            rw [htemplate] at hrun
            cases hrun
            have hstuck : ∀ w, ¬ FlowStep c g n w := by
              intro w hstep
              have hsome := (flowStep_iff.mp hstep).1
              simp [htemplate] at hsome
            exact Search.expand hn hwhite (Search.idle fun w hstep => (hstuck w hstep).elim)
              (Or.inl rfl)
        | some template =>
            rw [htemplate] at hrun
            obtain ⟨_, _, hrun⟩ := bind_eq_ok hrun
            obtain ⟨code, _, hrun⟩ := bind_eq_ok hrun
            obtain ⟨u, hfold, hrun⟩ := bind_eq_ok hrun
            obtain ⟨_, _, hrun⟩ := bind_eq_ok hrun
            cases hrun
            have hless : unvisited g (visited ++ [n.id]) ≤ room := by
              have hlt := unvisited_lt (Graph.node?_mem hn) hwhite
              omega
            have hwrite : ∀ visited m t, g.node? m.id = some m → unvisited g visited ≤ room →
                (b.under 1 fun b => traceIn c g limit room b visited m) = .ok t →
                Search c g visited (fun s => s = m) t.visited t.expanded := by
              intro visited m t hm hless hrun
              obtain ⟨below, _, hrun⟩ := Bounds.under_eq_ok.mp hrun
              exact ih hm hless hrun
            obtain ⟨more, hexpanded, hsearch⟩ := search_foldlM hwrite (g.linksOutOf n.id)
              (s := ⟨code, visited ++ [n.id], [n.id]⟩) hless hfold
            refine Search.expand hn hwhite (hsearch.congr fun w => ?_) (Or.inr hexpanded)
            rw [flowStep_iff, htemplate]
            simp

theorem search_trace {t : Trace} (hn : g.node? n.id = some n)
    (hrun : trace b c g limit visited n = .ok t) :
    Search c g visited (fun s => s = n) t.visited t.expanded :=
  search_traceIn _ hn (Nat.le_trans List.countP_le_length (Nat.le_succ _)) hrun

theorem search_traceBlocks {nodes : List Node} (hnodes : ∀ n ∈ nodes, g.node? n.id = some n)
    {texts : List (List Char)}
    (hrun : traceBlocks b c g limit visited nodes = .ok (texts, reached, expanded)) :
    Search c g visited (fun s => s ∈ nodes) reached expanded := by
  induction nodes generalizing visited texts expanded with
  | nil =>
      cases hrun
      exact Search.idle (by simp)
  | cons n rest ih =>
      obtain ⟨t, htrace, hrun⟩ := bind_eq_ok hrun
      obtain ⟨⟨later, reached', more⟩, hblocks, hrun⟩ := bind_eq_ok hrun
      cases hrun
      have hfirst := search_trace (hnodes n List.mem_cons_self) htrace
      have hrest := ih (fun m hm => hnodes m (List.mem_cons_of_mem _ hm)) hblocks
      exact (hfirst.append hrest).congr fun s => List.mem_cons.symm

/-! ## Visited nodes -/

/-- A white path cannot leave the nodes that a search reached. -/
theorem Search.onPath_of_whitePath (hsearch : Search c g visited starts reached expanded)
    (hv : g.node? v.id = some v) (hon : onPath reached v.id = true)
    (hpath : WhitePath c g visited v m) : onPath reached m.id = true := by
  induction hpath with
  | nil _ => exact hon
  | @cons v w m hwhite hstep _ ih =>
      obtain ⟨_, _, _, _, hw⟩ := hstep.link
      exact ih (Graph.node?_self hw) (hsearch.closed v w hv hwhite hon hstep)

/-- **The white-path theorem.**  What a search adds are the ends of white paths from
its starts, all of them and nothing else. -/
theorem Search.mem_iff (hsearch : Search c g visited starts reached expanded)
    (hstarts : ∀ s, starts s → g.node? s.id = some s) (id : Scalar) :
    onPath reached id = true ↔ onPath visited id = true ∨
      ∃ s m, starts s ∧ WhitePath c g visited s m ∧ m.id.same id = true := by
  constructor
  · intro hon
    obtain ⟨new, rfl, _, _, hpaths, _⟩ := hsearch.grows
    rcases onPath_append.mp hon with hold | hnew
    · exact Or.inl hold
    · obtain ⟨a, ha, hkey⟩ := List.mem_map.mp (onPath_iff.mp hnew)
      obtain ⟨s, m, hs, hpath, rfl⟩ := hpaths a ha
      exact Or.inr ⟨s, m, hs, hpath, Scalar.same_iff.mpr hkey⟩
  · rintro (hold | ⟨s, m, hs, hpath, hsame⟩)
    · exact hsearch.onPath_reached hold
    · have hm := hsearch.onPath_of_whitePath (hstarts s hs) (hsearch.covers s hs) hpath
      rw [onPath_iff] at hm ⊢
      rwa [← Scalar.same_iff.mp hsame]

/-- Templates are filled in for new nodes only, and for none of them twice. -/
theorem Search.expanded_once (hsearch : Search c g visited starts reached expanded) :
    (expanded.map Scalar.key).Nodup ∧
      ∀ id ∈ expanded, onPath visited id = false ∧ onPath reached id = true := by
  obtain ⟨new, rfl, hnodup, hfresh, _, hsub⟩ := hsearch.grows
  refine ⟨hnodup.sublist (hsub.map _), fun id hid => ?_⟩
  have hnew := hsub.subset hid
  exact ⟨hfresh id hnew, onPath_append.mpr (Or.inr (onPath_iff.mpr (List.mem_map_of_mem hnew)))⟩

/-! ## The order of nodes and links -/

/-- The same nodes and links in any order. -/
structure Reordered (g h : Graph) : Prop where
  nodes : h.nodes.Perm g.nodes
  links : h.links.Perm g.links

namespace Reordered

variable {h : Graph}

theorem symm (hperm : Reordered g h) : Reordered h g :=
  ⟨hperm.nodes.symm, hperm.links.symm⟩

theorem distinctIds (hperm : Reordered g h) (hids : g.DistinctIds) : h.DistinctIds :=
  (hperm.nodes.map _).nodup_iff.mpr hids

/-- Among distinct ids the order has no part in what is found. -/
theorem node?_eq (hperm : Reordered g h) (hids : g.DistinctIds) : h.node? = g.node? := by
  funext id
  cases hfound : g.node? id with
  | none =>
      refine List.find?_eq_none.mpr fun n hn => ?_
      exact List.find?_eq_none.mp hfound n (hperm.nodes.mem_iff.mp hn)
  | some n =>
      have hn : n ∈ h.nodes := hperm.nodes.mem_iff.mpr (Graph.node?_mem hfound)
      rw [← Graph.node?_congr h (Graph.node?_key hfound)]
      exact (hperm.distinctIds hids).node?_of_mem hn

theorem port?_eq (hperm : Reordered g h) (hids : g.DistinctIds) : h.port? = g.port? := by
  funext r
  simp only [Graph.port?, hperm.node?_eq hids]

theorem flowStep (hperm : Reordered g h) (hids : g.DistinctIds) (hstep : FlowStep c g v w) :
    FlowStep c h v w := by
  obtain ⟨htemplate, l, hl, hnode, houtput, htarget⟩ := hstep
  exact ⟨htemplate, l, hperm.links.mem_iff.mpr hl, hnode, by rwa [hperm.port?_eq hids],
    by rwa [hperm.node?_eq hids]⟩

theorem whitePath (hperm : Reordered g h) (hids : g.DistinctIds)
    (hpath : WhitePath c g visited v m) : WhitePath c h visited v m := by
  induction hpath with
  | nil hwhite => exact .nil hwhite
  | cons hwhite hstep _ ih => exact .cons hwhite (hperm.flowStep hids hstep) ih

theorem mem_entryNodes (hperm : Reordered g h) (hids : g.DistinctIds) (hn : n ∈ entryNodes c g) :
    n ∈ entryNodes c h := by
  have hreached : isReached h n = isReached g n := by
    rw [Bool.eq_iff_iff]
    simp only [isReached, Graph.linksInto, List.any_eq_true, List.mem_filter,
      hperm.links.mem_iff, hperm.port?_eq hids]
  simpa only [entryNodes, List.mem_filter, hperm.nodes.mem_iff, hreached] using hn

end Reordered

/-! ## Whole programs -/

/-- The node with this id is the end of a path of control flow from some entry
node. -/
def IsReachable (c : Catalog) (g : Graph) (id : Scalar) : Prop :=
  ∃ entry m, entry ∈ entryNodes c g ∧ WhitePath c g [] entry m ∧ m.id.same id = true

theorem Reordered.isReachable {h : Graph} {id : Scalar} (hperm : Reordered g h)
    (hids : g.DistinctIds) (hid : IsReachable c g id) : IsReachable c h id := by
  obtain ⟨entry, m, hentry, hpath, hsame⟩ := hid
  exact ⟨entry, m, hperm.mem_entryNodes hids hentry, hperm.whitePath hids hpath, hsame⟩

theorem search_traceBody (hids : g.DistinctIds) {t : Trace}
    (hrun : traceBody b c g limit = .ok t) :
    Search c g [] (fun s => s ∈ entryNodes c g) t.visited t.expanded := by
  have hentries : ∀ n ∈ entryNodes c g, g.node? n.id = some n := fun n hn =>
    hids.node?_of_mem (List.mem_filter.mp hn).1
  unfold traceBody at hrun
  split at hrun
  · cases hrun
  · obtain ⟨⟨texts, reached, expanded⟩, hblocks, hrun⟩ := bind_eq_ok hrun
    cases hrun
    exact search_traceBlocks hentries hblocks

/-- A program visits exactly what its entry nodes lead to. -/
theorem onPath_traceBody_iff (hids : g.DistinctIds) {t : Trace}
    (hrun : traceBody b c g limit = .ok t) (id : Scalar) :
    onPath t.visited id = true ↔ IsReachable c g id := by
  rw [(search_traceBody hids hrun).mem_iff
    (fun n hn => hids.node?_of_mem (List.mem_filter.mp hn).1) id]
  simp [onPath, IsReachable]

/-- What the statement of a node visits; the node itself was visited before, or is
the end of a path without steps. -/
theorem onPath_trace_iff {t : Trace} (hn : g.node? n.id = some n)
    (hrun : trace b c g limit visited n = .ok t) (id : Scalar) :
    onPath t.visited id = true ↔ onPath visited id = true ∨ n.id.same id = true ∨
      ∃ m, WhitePath c g visited n m ∧ m.id.same id = true := by
  rw [(search_trace hn hrun).mem_iff (by rintro s rfl; exact hn) id]
  constructor
  · rintro (hold | ⟨s, m, rfl, hpath, hsame⟩)
    · exact Or.inl hold
    · exact Or.inr (Or.inr ⟨m, hpath, hsame⟩)
  · rintro (hold | hsame | ⟨m, hpath, hsame⟩)
    · exact Or.inl hold
    · cases hwhite : onPath visited n.id with
      | true =>
          rw [onPath_iff, Scalar.same_iff.mp hsame] at hwhite
          exact Or.inl (onPath_iff.mpr hwhite)
      | false => exact Or.inr ⟨n, n, rfl, .nil hwhite, hsame⟩
    · exact Or.inr ⟨n, m, rfl, hpath, hsame⟩

/-- **Control flow visits exactly the reachable nodes, each once.**  When the
statement of a node is made, the visited nodes are afterwards those of before, the
node itself and all ends of paths through nodes not visited before; and no
template is filled in twice, or for a node visited before.  So when a program is
made, the visited nodes are those that some entry node leads to, and they are the
same when nodes and links are listed in another order. -/
theorem controlFlow_visits (hids : g.DistinctIds) (b : Bounds) :
    (∀ n ∈ g.nodes, ∀ visited code reached,
      statementWithin b c g limit visited n = .ok (code, reached) →
      (∀ id, onPath reached id = true ↔ onPath visited id = true ∨ n.id.same id = true ∨
        ∃ m, WhitePath c g visited n m ∧ m.id.same id = true) ∧
      ∃ expanded, trace b c g limit visited n = .ok ⟨code, reached, expanded⟩ ∧
        (expanded.map Scalar.key).Nodup ∧
        ∀ id ∈ expanded, onPath visited id = false ∧ onPath reached id = true) ∧
    (∀ text, bodyWithin b c g limit = .ok text →
      ∃ t, traceBody b c g limit = .ok t ∧ t.text = text ∧ (t.expanded.map Scalar.key).Nodup ∧
        (∀ id, onPath t.visited id = true ↔ IsReachable c g id) ∧
        ∀ h, Reordered g h → ∀ u, traceBody b c h limit = .ok u →
          ∀ id, onPath u.visited id = onPath t.visited id) := by
  constructor
  · intro n hn visited code reached hrun
    have hnode := hids.node?_of_mem hn
    rw [← trace_plain] at hrun
    obtain ⟨t, htrace, hplain⟩ := map_eq_ok hrun
    cases hplain
    exact ⟨onPath_trace_iff hnode htrace, t.expanded, htrace,
      (search_trace hnode htrace).expanded_once⟩
  · intro text hrun
    rw [← traceBody_plain] at hrun
    obtain ⟨t, htrace, htext⟩ := map_eq_ok hrun
    refine ⟨t, htrace, htext, (search_traceBody hids htrace).expanded_once.1,
      onPath_traceBody_iff hids htrace, fun h hperm u hu id => ?_⟩
    rw [Bool.eq_iff_iff, onPath_traceBody_iff hids htrace,
      onPath_traceBody_iff (hperm.distinctIds hids) hu]
    exact ⟨hperm.symm.isReachable (hperm.distinctIds hids), hperm.isReachable hids⟩

/-- A catalog with steps that are made one after the other. -/
def stepCatalog : Catalog :=
  (Catalog.merge {} (.obj [("nodeCategories", .obj [("flow", .obj [("nodes", .obj [("step", .obj [
    ("inputs", .list [.obj [("type", .str "exec"), ("code", .str "step; $\x7bnext\x7d")]]),
    ("outputs", .list [.obj [("type", .str "exec"), ("name", .str "next")]])])])])])])).1

/-- A step under an id. -/
def stepNode (id : Int) : Node :=
  ((Node.build stepCatalog (.int id) (.str "flow") (.str "step") (.int 0) (.int 0)).toOption).getD
    default

/-- Three steps, of which the last leads back to the second, and one that leads to
itself. -/
def stepLoop : Graph :=
  let link (id source target : Int) : Link :=
    ⟨.int id, ⟨.int source, .output, 0⟩, ⟨.int target, .input, 0⟩⟩
  { nodes := [stepNode 0, stepNode 1, stepNode 2, stepNode 3]
    links := [link 0 0 1, link 1 1 2, link 2 2 1, link 3 3 3] }

/-- The step that leads to itself is not reached; the loop is, and a path into it
may start anywhere. -/
theorem controlFlow_visits_loop :
    IsReachable stepCatalog stepLoop (.int 2) ∧ ¬ IsReachable stepCatalog stepLoop (.int 3) ∧
      ∃ m, WhitePath stepCatalog stepLoop [.int 0] (stepNode 2) m ∧ m.id.same (.int 1) = true := by
  have hids : stepLoop.DistinctIds := by decide +kernel
  obtain ⟨text, hbody, _⟩ := map_eq_ok (eq_ok_of_toOption (show ((bodyWithin Nesting.direct.ofText
    stepCatalog stepLoop (.int 256)).map fun _ => ()).toOption = some () by decide +kernel))
  obtain ⟨⟨code, reached⟩, hstatement, hreached⟩ := map_eq_ok (eq_ok_of_toOption
    (show ((statementWithin Nesting.direct.ofText stepCatalog stepLoop (.int 256) [.int 0]
      (stepNode 2)).map Prod.snd).toOption = some [.int 0, .int 2, .int 1] by decide +kernel))
  have hvisits := @controlFlow_visits stepCatalog stepLoop (.int 256) hids Nesting.direct.ofText
  obtain ⟨t, htrace, _, _, hprogram, _⟩ := hvisits.2 text hbody
  have ht : t.visited = [.int 0, .int 1, .int 2] := by
    have hvisited : ((traceBody Nesting.direct.ofText stepCatalog stepLoop (.int 256)).map
        Trace.visited).toOption = some [.int 0, .int 1, .int 2] := by decide +kernel
    rw [htrace] at hvisited
    exact Option.some.inj hvisited
  rw [ht] at hprogram
  obtain ⟨hnode, _⟩ := hvisits.1 (stepNode 2) (by simp [stepLoop]) _ _ _ hstatement
  cases hreached
  refine ⟨(hprogram _).mp (by decide), fun hreachable => ?_, ?_⟩
  · exact absurd ((hprogram _).mpr hreachable) (by decide)
  · have hid : (stepNode 2).id.same (.int 1) = false := by decide +kernel
    rcases (hnode (.int 1)).mp (by decide) with hold | hself | hpath
    · exact absurd hold (by decide)
    · rw [hid] at hself
      cases hself
    · exact hpath

end NodeWeave.Program
