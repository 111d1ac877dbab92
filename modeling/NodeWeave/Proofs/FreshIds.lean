import NodeWeave.Proofs.EditorRun
import NodeWeave.Proofs.LoadAccount

/-!
# Ids that are never given twice

The node that `addNode` makes is stored without a look at what is there, so all
depends on the counter: an id that it gives must be a new one, whatever ids were
inserted, left out or skipped before.  This file follows both counters along any
sequence of edits of a graph, with those that fail.

`IdStep` lists what an edit can do to the entries of one kind and to their counter, and
`Edit.apply_steps` says that every edit does one of these things to the nodes and one
to the links.  What is known of whole sequences comes from the list: all ids stay below
their counter (`IdStep.below`), no counter falls (`IdStep.le`), and ids that were all
different stay so where none is restored (`IdStep.nodup`).
-/

namespace NodeWeave

/-- All ids are whole numbers below a counter. -/
def Below (ids : List Scalar) (k : Int) : Prop :=
  ∀ id ∈ ids, ∃ i : Int, id = .int i ∧ i < k

/-- **What an edit does to the entries that are numbered by one counter.**  It may leave
some out, and then add one under the next number; or it restores one under a number
that it was given, which moves the counter past it; or it moves the counter only. -/
inductive IdStep {α : Type} (id : α → Scalar) (restores : Int → Prop) (xs : List α) (k : Int) :
    List α → Int → Prop
  | keep {ys : List α} (hsub : ys.Sublist xs) : IdStep id restores xs k ys k
  | give {ys : List α} {x : α} (hsub : ys.Sublist xs) (hid : id x = .int k) :
      IdStep id restores xs k (ys ++ [x]) (k + 1)
  | restore {x : α} {i : Int} (hid : id x = .int i) (hi : restores i) :
      IdStep id restores xs k (xs ++ [x]) (max k (i + 1))
  | skip (i : Int) : IdStep id restores xs k xs (max k (i + 1))

namespace Below

variable {ids ids' : List Scalar} {k k' : Int}

theorem nil (k : Int) : Below [] k :=
  fun _ hid => nomatch hid

theorem mono (h : Below ids k) (hsub : ids'.Sublist ids) (hle : k ≤ k') : Below ids' k' := by
  intro id hid
  obtain ⟨i, hi, hlt⟩ := h id (hsub.subset hid)
  exact ⟨i, hi, by omega⟩

theorem append (h : Below ids k) {i : Int} (hi : i < k) : Below (ids ++ [.int i]) k := by
  intro id hid
  rcases List.mem_append.mp hid with hid | hid
  · exact h id hid
  · exact ⟨i, List.mem_singleton.mp hid, hi⟩

/-- No id that was below an earlier counter is spelled like a later one. -/
theorem key_ne (h : Below ids k) (hle : k ≤ k') {id : Scalar} (hid : id ∈ ids) :
    id.key ≠ (Scalar.int k').key := by
  obtain ⟨i, rfl, hlt⟩ := h id hid
  simp only [Scalar.key, ne_eq, Key.whole.injEq]
  omega

end Below

namespace IdStep

variable {α : Type} {id : α → Scalar} {restores : Int → Prop} {xs ys : List α} {k k' : Int}

/-- No edit moves a counter back. -/
theorem le (h : IdStep id restores xs k ys k') : k ≤ k' := by
  cases h <;> omega

/-- **After an edit all ids are below their counter again.** -/
theorem below (h : IdStep id restores xs k ys k') (hxs : Below (xs.map id) k) :
    Below (ys.map id) k' := by
  cases h with
  | keep hsub => exact hxs.mono (hsub.map id) (Int.le_refl k)
  | give hsub hid =>
      rw [List.map_append, List.map_singleton, hid]
      exact (hxs.mono (hsub.map id) (by omega)).append (by omega)
  | restore hid hi =>
      rw [List.map_append, List.map_singleton, hid]
      exact (hxs.mono (List.Sublist.refl _) (by omega)).append (by omega)
  | skip i => exact hxs.mono (List.Sublist.refl _) (by omega)

/-- **Different ids stay different**, unless one is restored that is in use. -/
theorem nodup (h : IdStep id restores xs k ys k') (hxs : Below (xs.map id) k)
    (hnodup : (xs.map id).Nodup) (hnew : ∀ i, restores i → Scalar.int i ∉ xs.map id) :
    (ys.map id).Nodup := by
  have happend : ∀ {ids : List Scalar} {a : Scalar}, ids.Nodup → a ∉ ids → (ids ++ [a]).Nodup := by
    intro ids a hids ha
    rw [← List.concat_eq_append]
    exact List.Nodup.concat ha hids
  cases h with
  | keep hsub => exact hnodup.sublist (hsub.map id)
  | give hsub hid =>
      rw [List.map_append, List.map_singleton, hid]
      refine happend (hnodup.sublist (hsub.map id)) ?_
      intro hmem
      exact hxs.key_ne (Int.le_refl k) ((hsub.map id).subset hmem) rfl
  | restore hid hi =>
      rw [List.map_append, List.map_singleton, hid]
      exact happend hnodup (hnew _ hi)
  | skip i => exact hnodup

end IdStep

namespace Graph

/-! ## Edits -/

/-- An edit of a graph with its arguments.  Ids that are given to an edit are whole
numbers; the catalog may be another one each time. -/
inductive Edit where
  | addNode (limit : Nesting) (c : Catalog) (category type x y : Value)
  | insertNode (n : Node) (id : Int)
  | removeNodes (ids : List Scalar)
  | addLink (source target : PortRef)
  | insertLink (id : Int) (source target : PortRef)
  | connect (a b : PortRef)
  | autoConnect (source : PortRef) (node : Scalar)
  | removeLink (id : Value)
  | removeLinks (places : List Nat)
  | repair
  | refresh (c : Catalog)
  | nextNodeId
  | nextLinkId
  | advance (node link : Option Int)

/-- A whole number as a name, or null. -/
def wholeOrNull (i : Option Int) : Scalar :=
  (i.map Scalar.int).getD .null

namespace Edit

/-- The graph that an edit leaves, also when it fails. -/
def apply (g : Graph) : Edit → Graph
  | addNode limit c category type x y => (Recorded.addNode limit c g category type x y).state
  | insertNode n id => (g.insertNode { n with id := .int id }).1
  | removeNodes ids => (g.removeNodes ids).1
  | addLink source target => (g.addLink source target).1
  | insertLink id source target =>
    ((g.insertLink (.int id) source target).toOption.map Prod.fst).getD g
  | connect a b => (Recorded.connect g a b).state
  | autoConnect source node => (Recorded.autoConnect g source node).state
  | removeLink id => ((g.removeLink id).toOption.map Prod.fst).getD g
  | removeLinks places => g.dropLinks places
  | repair => (Recorded.repair g).state
  | refresh c => (Recorded.refresh c g).state
  | nextNodeId => (g.advance g.nextNode.toScalar .null).1
  | nextLinkId => (g.advance .null g.nextLink.toScalar).1
  | advance node link => (g.advance (wholeOrNull node) (wholeOrNull link)).1

/-- The graph that a sequence of edits leaves. -/
def run (g : Graph) (edits : List Edit) : Graph :=
  edits.foldl apply g

/-- Does the edit make a link under a number that is given to it? -/
def restoresLink : Edit → Bool
  | insertLink .. => true
  | _ => false

/-- The link that an edit makes under a number of its own choice. -/
def numberedLink (g : Graph) : Edit → Option Link
  | addLink source target => some (g.addLink source target).2
  | connect a b => (g.connect a b).2
  | autoConnect source node => (g.autoConnect source node).2
  | _ => none

end Edit

/-- The counters are whole numbers above all ids that are in use. -/
structure Bounded (g : Graph) (k m : Int) : Prop where
  nextNode : g.nextNode = .int k
  nextLink : g.nextLink = .int m
  nodes : Below (g.nodes.map Node.id) k
  links : Below (g.links.map Link.id) m

/-- What an edit does to both kinds of ids.  A node is restored only under an id that is
not in use, while no look is taken at the id of a link. -/
structure Steps (restores : Prop) (g : Graph) (k m : Int) (h : Graph) (k' m' : Int) : Prop where
  nextNode : h.nextNode = .int k'
  nextLink : h.nextLink = .int m'
  nodes : IdStep (fun id => id) (fun i => Scalar.int i ∉ g.nodes.map Node.id)
    (g.nodes.map Node.id) k (h.nodes.map Node.id) k'
  links : IdStep Link.id (fun _ => restores) g.links m h.links m'

variable {g h : Graph} {k m k' m' : Int} {e : Edit} {restores : Prop}

theorem Steps.bounded (hsteps : Steps restores g k m h k' m') (hg : g.Bounded k m) :
    h.Bounded k' m' := by
  refine ⟨hsteps.nextNode, hsteps.nextLink, ?_, hsteps.links.below hg.links⟩
  have hbelow := hsteps.nodes.below (List.map_id' _ ▸ hg.nodes)
  rwa [List.map_id'] at hbelow

/-- A numbered graph is a bounded one whose ids are all different. -/
theorem numbered_iff : g.Numbered ↔ (∃ k m, g.Bounded k m) ∧ (g.nodes.map Node.id).Nodup ∧
    (g.links.map Link.id).Nodup := by
  constructor
  · intro hg
    obtain ⟨k, hk, hnodes, hnodeIds⟩ := hg.nodes
    obtain ⟨m, hm, hlinks, hlinkIds⟩ := hg.links
    exact ⟨⟨k, m, hk, hm, hnodes, hlinks⟩, hnodeIds, hlinkIds⟩
  · intro h
    obtain ⟨⟨k, m, hg⟩, hnodeIds, hlinkIds⟩ := h
    exact ⟨⟨k, hg.nextNode, hg.nodes, hnodeIds⟩, ⟨m, hg.nextLink, hg.links, hlinkIds⟩⟩

/-- An edit that restores no link keeps a graph numbered. -/
theorem Steps.numbered (hsteps : Steps restores g k m h k' m') (hno : ¬ restores)
    (hg : g.Bounded k m) (hnumbered : g.Numbered) : h.Numbered := by
  obtain ⟨_, hnodeIds, hlinkIds⟩ := numbered_iff.mp hnumbered
  refine numbered_iff.mpr ⟨⟨k', m', hsteps.bounded hg⟩, ?_,
    hsteps.links.nodup hg.links hlinkIds fun _ h => (hno h).elim⟩
  have hnodup := hsteps.nodes.nodup (List.map_id' _ ▸ hg.nodes) (List.map_id' _ ▸ hnodeIds)
    fun i hi => List.map_id' _ ▸ hi
  rwa [List.map_id'] at hnodup

/-! ## What each edit does -/

/-- Nodes and links may go away. -/
theorem Bounded.keep (hg : g.Bounded k m)
    (hnodes : (h.nodes.map Node.id).Sublist (g.nodes.map Node.id))
    (hlinks : h.links.Sublist g.links) (hnextNode : h.nextNode = g.nextNode)
    (hnextLink : h.nextLink = g.nextLink) : Steps restores g k m h k m :=
  ⟨hnextNode.trans hg.nextNode, hnextLink.trans hg.nextLink, .keep hnodes, .keep hlinks⟩

/-- An edit that does nothing. -/
theorem Bounded.same (hg : g.Bounded k m) : Steps restores g k m g k m :=
  hg.keep (List.Sublist.refl _) (List.Sublist.refl _) rfl rfl

/-- An edit that only takes links away. -/
theorem Bounded.fewer_links (hg : g.Bounded k m) {links : List Link}
    (hsub : links.Sublist g.links) : Steps restores g k m { g with links } k m :=
  hg.keep (List.Sublist.refl _) hsub rfl rfl

/-- Links may go away and one may come under the next id. -/
theorem Bounded.giveLink (hg : g.Bounded k m) {links : List Link} (hsub : links.Sublist g.links)
    (source target : PortRef) :
    Steps restores g k m (({ g with links } : Graph).addLink source target).1 k (m + 1) := by
  refine ⟨hg.nextNode, ?_, .keep (List.Sublist.refl _), .give hsub ?_⟩
  · simp only [addLink, hg.nextLink]
    rfl
  · simp only [hg.nextLink]
    rfl

/-- **A new node comes last and gets the next id**, unless nothing happens. -/
theorem Bounded.addNode (hg : g.Bounded k m) (limit : Nesting) (c : Catalog)
    (category type x y : Value) :
    ((Recorded.addNode limit c g category type x y).state = g ∧
      ∃ fault, (Recorded.addNode limit c g category type x y).result = .error fault) ∨
    ∃ n, n.id = .int k ∧
      (Recorded.addNode limit c g category type x y).state =
        { g with nodes := g.nodes ++ [n], nextNode := .int (k + 1) } ∧
      ((Recorded.addNode limit c g category type x y).result = .ok n ∨
        (Recorded.addNode limit c g category type x y).result = .error .unwritable) := by
  unfold Recorded.addNode
  split
  · rename_i fault _
    exact Or.inl ⟨rfl, fault, rfl⟩
  · rename_i added n hadd
    split
    · obtain ⟨built, hbuild, hadd⟩ := bind_eq_ok hadd
      cases hadd
      have hid : n.id = .int k := by
        rw [(Node.build_fields hbuild).1, hg.nextNode]
        rfl
      have hput : putNode g.nodes n = g.nodes ++ [n] := by
        refine putNode_fresh ?_
        intro old hold
        rw [hid]
        exact hg.nodes.key_ne (Int.le_refl k) (List.mem_map_of_mem hold)
      refine Or.inr ⟨n, hid, ?_, ?_⟩
      · simp only [Recorded.record, hput, hg.nextNode]
        rfl
      · simp only [Recorded.record]
        split
        · exact Or.inl rfl
        · exact Or.inr rfl
    · exact Or.inl ⟨rfl, _, rfl⟩

/-- A node with a whole number is refused or comes last. -/
theorem Bounded.insertNode (hg : g.Bounded k m) {n : Node} {i : Int} (hid : n.id = .int i) :
    ∃ k', Steps restores g k m (g.insertNode n).1 k' m := by
  unfold Graph.insertNode
  split
  · exact ⟨k, hg.same⟩
  · rename_i hfree
    have hpast : g.nextNode.past n.id = .ok (.int (max k (i + 1))) := by
      rw [hg.nextNode, hid, Number.past_int]
    have hnull : g.nextLink.past .null = .ok g.nextLink := rfl
    have hnew : Scalar.int i ∉ g.nodes.map Node.id := by
      intro hmem
      obtain ⟨old, hold, holdId⟩ := List.mem_map.mp hmem
      apply hfree
      rw [node?, List.find?_isSome]
      exact ⟨old, hold, by rw [holdId, hid]; simp⟩
    refine ⟨max k (i + 1), ?_⟩
    simp only [Graph.advance, hpast, hnull]
    refine ⟨rfl, hg.nextLink, ?_, .keep (List.Sublist.refl _)⟩
    rw [List.map_append, List.map_singleton]
    exact .restore hid hnew

/-- A link under a given number comes last. -/
theorem Bounded.insertLink (hg : g.Bounded k m) (i : Int) (source target : PortRef) :
    Steps True g k m ((Edit.insertLink i source target).apply g) k (max m (i + 1)) := by
  have hpast : g.nextLink.past (.int i) = .ok (.int (max m (i + 1))) := by
    rw [hg.nextLink, Number.past_int]
  have hinsert : g.insertLink (.int i) source target = .ok
      ({ g with links := g.links ++ [⟨.int i, source, target⟩], nextLink := .int (max m (i + 1)) },
        ⟨.int i, source, target⟩) := by
    simp only [Graph.insertLink, hpast, bind, Except.bind, pure, Except.pure]
  simp only [Edit.apply, hinsert, Except.toOption, Option.map_some, Option.getD_some]
  exact ⟨hg.nextNode, rfl, .keep (List.Sublist.refl _), .restore rfl trivial⟩

/-- A counter moves past a number, or stays where there is none. -/
theorem past_wholeOrNull {α : Type} {id : α → Scalar} {restores : Int → Prop} (xs : List α)
    (k : Int) (i : Option Int) :
    ∃ k', (Number.int k).past (wholeOrNull i) = .ok (.int k') ∧ IdStep id restores xs k xs k' := by
  cases i with
  | none => exact ⟨k, rfl, .keep (List.Sublist.refl xs)⟩
  | some i => exact ⟨max k (i + 1), Number.past_int k i, .skip i⟩

/-- Moving the counters moves nothing else. -/
theorem Bounded.advance (hg : g.Bounded k m) (node link : Option Int) :
    ∃ k' m', Steps restores g k m (g.advance (wholeOrNull node) (wholeOrNull link)).1 k' m' := by
  obtain ⟨k', hk', hnodes⟩ := past_wholeOrNull (g.nodes.map Node.id) k node
  obtain ⟨m', hm', hlinks⟩ := past_wholeOrNull g.links m link
  refine ⟨k', m', ?_⟩
  rw [← hg.nextNode] at hk'
  rw [← hg.nextLink] at hm'
  simp only [Graph.advance, hk', hm']
  exact ⟨rfl, rfl, hnodes, hlinks⟩

/-- Linking two ports takes links away, and then may give one. -/
theorem Bounded.connect (hg : g.Bounded k m) (a b : PortRef) :
    ∃ m', Steps restores g k m (Recorded.connect g a b).state k m' := by
  rcases (Recorded.connect_cases g a b).2 with hstate | hstate
  · rw [hstate]
    obtain ⟨o, i, hnorm⟩ := exists_normalize a b
    by_cases hcan : g.canConnect a b = true
    · obtain ⟨g', heq, ⟨_, hg'⟩ | ⟨_, hg'⟩⟩ := connect_eq_of_canConnect hnorm hcan
      · rw [heq, hg']
        exact ⟨m + 1, hg.giveLink List.filter_sublist o i⟩
      · rw [heq, hg']
        exact ⟨m + 1, hg.giveLink (List.Sublist.refl _) o i⟩
    · rw [connect_of_not_canConnect (by simpa using hcan)]
      exact ⟨m, hg.same⟩
  · rw [hstate]
    exact ⟨m, hg.fewer_links List.filter_sublist⟩

/-- Linking a port to a node takes links away, and then may give one. -/
theorem Bounded.autoConnect (hg : g.Bounded k m) (source : PortRef) (node : Scalar) :
    ∃ m', Steps restores g k m (Recorded.autoConnect g source node).state k m' := by
  rw [Recorded.autoConnect_state]
  rcases autoConnect_cases g source node with hsame | ⟨o, i, _, _, heq⟩
  · rw [hsame]
    exact ⟨m, hg.same⟩
  · obtain ⟨links, hsub, hclear⟩ := clearEnds_eq g o i
    rw [heq, hclear]
    exact ⟨m + 1, hg.giveLink hsub o i⟩

/-- Taking over a catalog leaves the ids of the nodes and may take links away. -/
theorem Bounded.refresh (hg : g.Bounded k m) (c : Catalog) :
    Steps restores g k m (Recorded.refresh c g).state k m := by
  have hids := Recorded.syncNodes_ids c g.nodes
  unfold Recorded.refresh
  split
  · rename_i nodes notices fault hsync
    have hsame : nodes.map Node.id = g.nodes.map Node.id := by rw [← hids, hsync]
    exact hg.keep (hsame ▸ List.Sublist.refl _) (List.Sublist.refl _) rfl rfl
  · rename_i nodes notices hsync
    have hsame : nodes.map Node.id = g.nodes.map Node.id := by rw [← hids, hsync]
    dsimp only
    rw [Recorded.repair_state]
    exact hg.keep (hsame ▸ List.Sublist.refl _) (repair_links_sublist { g with nodes }) rfl rfl

theorem dropLinks_sublist (g : Graph) (places : List Nat) :
    (g.dropLinks places).links.Sublist g.links := by
  have hsub := (List.filter_sublist (p := fun l : Link × Nat => !places.contains l.2)
    (l := g.links.zipIdx)).map Prod.fst
  rwa [List.zipIdx_map_fst] at hsub

/-- **What an edit can do to the ids.** -/
theorem Edit.apply_steps (hg : g.Bounded k m) (e : Edit) :
    ∃ k' m', Steps (e.restoresLink = true) g k m (e.apply g) k' m' := by
  cases e with
  | addNode limit c category type x y =>
      simp only [Edit.apply]
      rcases hg.addNode limit c category type x y with ⟨hsame, _⟩ | ⟨n, hid, hstate, _⟩
      · rw [hsame]
        exact ⟨k, m, hg.same⟩
      · rw [hstate]
        refine ⟨k + 1, m, rfl, hg.nextLink, ?_, .keep (List.Sublist.refl _)⟩
        rw [List.map_append, List.map_singleton]
        exact .give (List.Sublist.refl _) hid
  | insertNode n id =>
      obtain ⟨k', hsteps⟩ := hg.insertNode (n := { n with id := .int id }) rfl
      exact ⟨k', m, hsteps⟩
  | removeNodes ids =>
      simp only [Edit.apply]
      rcases removeNodes_cases g ids with hsame | hwithout
      · rw [hsame]
        exact ⟨k, m, hg.same⟩
      · rw [hwithout]
        exact ⟨k, m, hg.keep (List.filter_sublist.map _) List.filter_sublist rfl rfl⟩
  | addLink source target => exact ⟨k, m + 1, hg.giveLink (List.Sublist.refl _) source target⟩
  | insertLink id source target =>
      obtain ⟨hnextNode, hnextLink, hnodes, hlinks⟩ := hg.insertLink id source target
      exact ⟨k, max m (id + 1), hnextNode, hnextLink, hnodes, by simpa [restoresLink] using hlinks⟩
  | connect a b =>
      obtain ⟨m', hsteps⟩ := hg.connect a b
      exact ⟨k, m', hsteps⟩
  | autoConnect source node =>
      obtain ⟨m', hsteps⟩ := hg.autoConnect source node
      exact ⟨k, m', hsteps⟩
  | removeLink id =>
      simp only [Edit.apply]
      cases hremove : g.removeLink id with
      | error fault => exact ⟨k, m, hg.same⟩
      | ok removed =>
          obtain ⟨h, l⟩ := removed
          obtain ⟨links, hsub, heq⟩ := removeLink_eq_ok hremove
          simp only [Except.toOption, Option.map_some, Option.getD_some, heq]
          exact ⟨k, m, hg.fewer_links hsub⟩
  | removeLinks places => exact ⟨k, m, hg.fewer_links (dropLinks_sublist g places)⟩
  | repair =>
      simp only [Edit.apply, Recorded.repair_state]
      exact ⟨k, m, hg.fewer_links (repair_links_sublist g)⟩
  | refresh c => exact ⟨k, m, hg.refresh c⟩
  | nextNodeId =>
      simp only [Edit.apply, hg.nextNode]
      exact hg.advance (some k) none
  | nextLinkId =>
      simp only [Edit.apply, hg.nextLink]
      exact hg.advance none (some m)
  | advance node link => exact hg.advance node link

/-- The link that an edit numbers gets the next id. -/
theorem Edit.numberedLink_id {l : Link} (hlink : e.numberedLink g = some l) :
    l.id = g.nextLink.toScalar := by
  cases e with
  | addLink source target =>
      cases hlink
      rfl
  | connect a b =>
      have hconnect : (g.connect a b).2 = some l := hlink
      by_cases hcan : g.canConnect a b = true
      · rw [connect_eq_linked hcan] at hconnect
        cases hconnect
        rfl
      · rw [connect_of_not_canConnect (by simpa using hcan)] at hconnect
        cases hconnect
  | autoConnect source node =>
      have hconnect : (g.autoConnect source node).2 = some l := hlink
      rcases autoConnect_cases g source node with hsame | ⟨o, i, _, _, heq⟩
      · rw [hsame] at hconnect
        cases hconnect
      · obtain ⟨links, _, hclear⟩ := clearEnds_eq g o i
        rw [heq, hclear] at hconnect
        cases hconnect
        rfl
  | _ => cases hlink

/-! ## Sequences of edits -/

theorem bounded_empty : Graph.empty.Bounded 0 0 :=
  ⟨rfl, rfl, Below.nil 0, Below.nil 0⟩

/-- **Along a sequence of edits** all ids stay below their counters, and no counter
falls. -/
theorem Bounded.run (hg : g.Bounded k m) (edits : List Edit) :
    ∃ k' m', (Edit.run g edits).Bounded k' m' ∧ k ≤ k' ∧ m ≤ m' := by
  induction edits generalizing g k m with
  | nil => exact ⟨k, m, hg, Int.le_refl k, Int.le_refl m⟩
  | cons e rest ih =>
      obtain ⟨k₁, m₁, hsteps⟩ := Edit.apply_steps hg e
      obtain ⟨k', m', hbounded, hk, hm⟩ := ih (hsteps.bounded hg)
      have hk₁ := hsteps.nodes.le
      have hm₁ := hsteps.links.le
      exact ⟨k', m', hbounded, by omega, by omega⟩

/-- Where no link is restored, a numbered graph stays numbered. -/
theorem Numbered.run (hg : g.Numbered) {edits : List Edit}
    (hedits : ∀ e ∈ edits, e.restoresLink = false) : (Edit.run g edits).Numbered := by
  induction edits generalizing g with
  | nil => exact hg
  | cons e rest ih =>
      obtain ⟨⟨k, m, hbounded⟩, _⟩ := numbered_iff.mp hg
      obtain ⟨k', m', hsteps⟩ := Edit.apply_steps hbounded e
      have hfirst : ¬ e.restoresLink = true := by
        rw [hedits e List.mem_cons_self]
        exact Bool.false_ne_true
      exact ih (hsteps.numbered hfirst hbounded hg) fun e' he' =>
        hedits e' (List.mem_cons_of_mem e he')

/-- The links of a numbered graph have different ids, however these are spelled. -/
theorem Numbered.link_keys (hg : g.Numbered) : (g.links.map fun l => l.id.key).Nodup := by
  have hkeys : ((g.links.map Link.id).map Scalar.key).Nodup := by
    obtain ⟨_, _, _, hnodup⟩ := hg.links
    rw [List.nodup_iff_pairwise_ne, List.pairwise_map]
    refine (List.nodup_iff_pairwise_ne.mp hnodup).imp_of_mem ?_
    intro a b ha hb hne hkey
    exact hne (hg.links.key_inj ha hb hkey)
  rwa [List.map_map] at hkeys

/-- The graph has just been filled from a document. -/
def IsLoaded (g : Graph) : Prop :=
  ∃ limit c before doc report, (Document.loadWithin limit c before doc).result = .ok report ∧
    g = (Document.loadWithin limit c before doc).state

/-- A loaded graph is numbered, whatever was there before. -/
theorem IsLoaded.numbered (hg : g.IsLoaded) : g.Numbered := by
  obtain ⟨limit, c, before, doc, report, hresult, rfl⟩ := hg
  rcases Document.loadWithin_cases limit c before doc with
    ⟨_, fault, hfault⟩ | ⟨_, fault, hfault⟩ | ⟨_, _, fault, hfault⟩ | ⟨loaded, hlinked, hstate⟩
  · rw [hresult] at hfault
    cases hfault
  · rw [hresult] at hfault
    cases hfault
  · rw [hresult] at hfault
    cases hfault
  · rw [hstate]
    exact (Tidy.repair hlinked.numbered).numbered

/-- **Ids never collide and are never given twice.**  Let edits lead from the empty graph
to a graph, and further edits to a later one.  In both all ids are whole numbers below
their counters, and no counter is lower in the later graph.  A node that is added there
comes after all others, in the place of none, or the graph stays as it is; its id is one
that no node of the earlier graph has.  An edit that is not given the number of a link
leaves links out and adds one link at most, and the number that it gives to it is one
that no link of the earlier graph has.

Where a graph is empty or has just been loaded, and no number is given to a link from
then on, no two links have the same id. -/
theorem Edit.ids_never_reused (before after : List Edit) {start : Graph} {edits : List Edit}
    (hstart : start = Graph.empty ∨ start.IsLoaded)
    (hedits : ∀ e ∈ edits, e.restoresLink = false) :
    (∃ k m k' m' : Int, (run Graph.empty before).Bounded k m ∧
      (run Graph.empty (before ++ after)).Bounded k' m' ∧ k ≤ k' ∧ m ≤ m' ∧
      (∀ limit c category type x y,
        let later := run Graph.empty (before ++ after)
        let added := Recorded.addNode limit c later category type x y
        (added.state = later ∧ ∃ fault, added.result = .error fault) ∨
        ∃ n, added.state = { later with nodes := later.nodes ++ [n], nextNode := .int (k' + 1) } ∧
          (added.result = .ok n ∨ added.result = .error .unwritable) ∧ n.id = .int k' ∧
          ∀ old ∈ (run Graph.empty before).nodes, old.id.key ≠ n.id.key) ∧
      (∀ e : Edit, e.restoresLink = false →
        ∃ kept, kept.Sublist (run Graph.empty (before ++ after)).links ∧
          ((e.apply (run Graph.empty (before ++ after))).links = kept ∨
            ∃ l, (e.apply (run Graph.empty (before ++ after))).links = kept ++ [l] ∧
              l.id = .int m')) ∧
      (∀ (e : Edit) (l : Link), e.numberedLink (run Graph.empty (before ++ after)) = some l →
        l.id = .int m') ∧
      ∀ old ∈ (run Graph.empty before).links, old.id.key ≠ (Scalar.int m').key) ∧
    ((run start edits).links.map fun l => l.id.key).Nodup := by
  constructor
  · obtain ⟨k, m, hearlier, _⟩ := bounded_empty.run before
    obtain ⟨k', m', hlater, hk, hm⟩ := hearlier.run after
    have hrun : run (run Graph.empty before) after = run Graph.empty (before ++ after) := by
      simp only [run, List.foldl_append]
    rw [hrun] at hlater
    refine ⟨k, m, k', m', hearlier, hlater, hk, hm, ?_, ?_, ?_, ?_⟩
    · intro limit c category type x y
      refine (hlater.addNode limit c category type x y).imp_right ?_
      intro hadded
      obtain ⟨n, hid, hstate, hresult⟩ := hadded
      refine ⟨n, hstate, hresult, hid, ?_⟩
      intro old hold
      rw [hid]
      exact hearlier.nodes.key_ne hk (List.mem_map_of_mem hold)
    · intro e he
      obtain ⟨k₁, m₁, hsteps⟩ := Edit.apply_steps hlater e
      have hlinks := hsteps.links
      generalize (e.apply (run Graph.empty (before ++ after))).links = links at hlinks
      cases hlinks with
      | keep hsub => exact ⟨_, hsub, Or.inl rfl⟩
      | give hsub hid => exact ⟨_, hsub, Or.inr ⟨_, rfl, hid⟩⟩
      | restore _ hrestores =>
          rw [he] at hrestores
          cases hrestores
      | skip i => exact ⟨_, List.Sublist.refl _, Or.inl rfl⟩
    · intro e l hl
      rw [numberedLink_id hl, hlater.nextLink]
      rfl
    · intro old hold
      exact hearlier.links.key_ne hm (List.mem_map_of_mem hold)
  · have hnumbered : start.Numbered := by
      rcases hstart with hempty | hloaded
      · rw [hempty]
        exact numbered_empty
      · exact hloaded.numbered
    exact (hnumbered.run hedits).link_keys

/-- A link and a node are restored, and both are removed; then a link comes back under a
negative number.  The next link and the next node are numbered after those that were
removed.  In a loaded graph, which had to give up the link with the number 9, two nodes
are linked and the link that was loaded is replaced. -/
theorem Edit.ids_never_reused_restored :
    let o : PortRef := ⟨.int 0, .output, 0⟩
    let i : PortRef := ⟨.int 1, .input, 0⟩
    let restored : List Edit := [.insertLink 3 o i, .insertNode default 7]
    let removed : List Edit := [.removeLinks [0], .removeNodes [.int 7], .insertLink (-2) o i]
    let linked : List Edit := [.connect ⟨.int 4, .output, 0⟩ ⟨.int 8, .input, 0⟩,
      .connect ⟨.int 3, .output, 0⟩ ⟨.int 8, .input, 0⟩]
    (run Graph.empty restored).Bounded 8 4 ∧ (run Graph.empty (restored ++ removed)).Bounded 8 4 ∧
      (run Graph.empty (restored ++ removed)).links.map Link.id = [.int (-2)] ∧
      (∀ l, (Edit.addLink o i).numberedLink (run Graph.empty (restored ++ removed)) = some l →
        l.id = .int 4) ∧
      Document.mixedLoad.state.IsLoaded ∧
      (run Document.mixedLoad.state linked).links.map Link.id = [.int 10, .int 11] ∧
      ((run Document.mixedLoad.state linked).links.map fun l => l.id.key).Nodup := by
  intro o i restored removed linked
  have hloaded : Document.mixedLoad.state.IsLoaded := by
    have hok : (Document.mixedLoad.result.map fun _ => ()).toOption = some () := by decide +kernel
    obtain ⟨report, hreport, _⟩ := map_eq_ok (eq_ok_of_toOption hok)
    exact ⟨_, _, _, _, report, hreport, rfl⟩
  obtain ⟨⟨k, m, k', m', hearlier, hlater, _, _, _, _, hlink, _⟩, hdistinct⟩ :=
    @ids_never_reused restored removed _ linked (Or.inr hloaded) (by decide)
  have hk : Number.int k = .int 8 := hearlier.nextNode.symm
  have hm : Number.int m = .int 4 := hearlier.nextLink.symm
  have hk' : Number.int k' = .int 8 := hlater.nextNode.symm
  have hm' : Number.int m' = .int 4 := hlater.nextLink.symm
  cases hk
  cases hm
  cases hk'
  cases hm'
  exact ⟨hearlier, hlater, by decide +kernel, fun l hl => hlink _ l hl, hloaded,
    by decide +kernel, hdistinct⟩

end Graph

end NodeWeave
