import Mathlib.Data.List.Forall2
import NodeWeave.Proofs.NodeShape
import NodeWeave.Proofs.PlaceholderFree

/-!
# The nodes that a program is made of

A program starts at the entry nodes, follows control flow from there, and takes data
from wherever they come.  The nodes that it can meet in this way are its *cone*, and
what happens outside of it has no part in the program: `SameInCone` graphs have the
same links and nodes with the same ports, but only the nodes in the cone have to have
the same values, and where nodes lie and which are selected is free for all of them.

The two programs are made step by step in the same way.  A link out of a node that
control flow leads to, leads to another such node, and a link into a node of the cone
comes from one (`applyFlow_eq`, `applyLink_eq`).  So by induction on the room the
values that are read are values of the cone, also where a text is made and then not
used.
-/

namespace NodeWeave

/-- What a program reads of a port. -/
def Port.signature (p : Port) : String × Value :=
  (p.kind, p.name)

/-- The nodes differ at most in what a program does not read, and in their values. -/
structure Node.Alike (n m : Node) : Prop where
  id : m.id = n.id
  category : m.category = n.category
  type : m.type = n.type
  slot : m.slot = n.slot
  ports : ∀ side, (m.ports side).map Port.signature = (n.ports side).map Port.signature

/-- Moving a node changes nothing that a program reads. -/
theorem Node.alike_moveTo (n : Node) (x y : Value) :
    n.Alike (n.moveTo x y).1 ∧ (n.moveTo x y).1.value = n.value := by
  have hbare : (n.moveTo x y).1.bare = { n with x, y }.bare := Node.bare_layOut { n with x, y }
  have hports : ∀ m : Node, ∀ side,
      (m.ports side).map Port.signature = (m.bare.ports side).map Port.signature := by
    intro m side
    rw [Node.ports_bare, List.map_map]
    rfl
  have hfield {α : Type} (f : Node → α) (hf : ∀ m : Node, f m.bare = f m) :
      f (n.moveTo x y).1 = f { n with x, y } := by
    rw [← hf, hbare, hf]
  refine ⟨⟨hfield Node.id fun _ => rfl, hfield Node.category fun _ => rfl,
    hfield Node.type fun _ => rfl, hfield Node.slot fun _ => rfl, fun side => ?_⟩,
    hfield Node.value fun _ => rfl⟩
  cases side
  · exact hfield (fun m => (m.ports .input).map Port.signature) fun m => (hports m .input).symm
  · exact hfield (fun m => (m.ports .output).map Port.signature) fun m => (hports m .output).symm

namespace Program

/-- Control flow leads from an entry node to the node with the key. -/
inductive Led (c : Catalog) (g : Graph) : Key → Prop
  | entry {n : Node} (hn : n ∈ entryNodes c g) : Led c g n.id.key
  | flow {l : Link} {p : Port} (hl : l ∈ g.links) (hsource : Led c g l.source.node.key)
      (hport : g.port? l.source = some p) (hexec : p.isExec = true) : Led c g l.target.node.key

/-- **The cone of a program**: the nodes that control flow leads to, and those from
which data come to nodes of the cone. -/
inductive InCone (c : Catalog) (g : Graph) : Key → Prop
  | led {key : Key} (hled : Led c g key) : InCone c g key
  | feeds {l : Link} {p : Port} (hl : l ∈ g.links) (htarget : InCone c g l.target.node.key)
      (hport : g.port? l.target = some p) (hdata : p.isExec = false) : InCone c g l.source.node.key

/-- Nodes of two graphs that stand for each other. -/
structure Twins (c : Catalog) (g : Graph) (n m : Node) : Prop where
  alike : n.Alike m
  value : InCone c g n.id.key → m.value = n.value

/-- The graphs have the same links, and their nodes differ at most in what a program
does not read and in the values outside of the cone. -/
structure SameInCone (c : Catalog) (g h : Graph) : Prop where
  links : h.links = g.links
  nodes : List.Forall₂ (Twins c g) g.nodes h.nodes

variable {c : Catalog} {g h : Graph} {limit : Value} {n m : Node} {p q : Port} {l : Link}
  {code : List Char}

/-! ## Single nodes -/

theorem isExec_of_signature (hport : q.signature = p.signature) : q.isExec = p.isExec := by
  have hkind : q.kind = p.kind := congrArg Prod.fst hport
  rw [Port.isExec, Port.isExec, hkind]

theorem outputTemplate?_of_alike (halike : n.Alike m) (hport : q.signature = p.signature) :
    outputTemplate? c m q = outputTemplate? c n p := by
  have hkind : q.kind = p.kind := congrArg Prod.fst hport
  have hname : q.name = p.name := congrArg Prod.snd hport
  simp only [outputTemplate?, typeOf, halike.category, halike.type, hkind, hname]

theorem statementTemplate?_of_alike (halike : n.Alike m) :
    statementTemplate? c m = statementTemplate? c n := by
  simp only [statementTemplate?, typeOf, halike.category, halike.type]

theorem fillId_of_alike (b : Bounds) (halike : n.Alike m) : fillId b m code = fillId b n code := by
  simp only [fillId, applyId, halike.id]

namespace Twins

theorem fillValue (b : Bounds) (htwins : Twins c g n m) (hcone : InCone c g n.id.key) :
    fillValue b m code = fillValue b n code := by
  simp only [Program.fillValue, applyValue, htwins.alike.slot, htwins.value hcone]

end Twins

/-! ## What links lead to -/

/-- Related lists have related first members that pass corresponding tests. -/
theorem rel_find? {α β : Type} {R : α → β → Prop} {p : α → Bool} {q : β → Bool} {xs : List α}
    {ys : List β} (htest : ∀ a b, R a b → q b = p a) (hrel : List.Forall₂ R xs ys) :
    Option.Rel R (xs.find? p) (ys.find? q) := by
  induction hrel with
  | nil => exact Option.Rel.none
  | @cons a b xs ys hab _ ih =>
      rw [List.find?_cons, List.find?_cons, htest a b hab]
      cases p a with
      | true => exact Option.Rel.some hab
      | false => exact ih

/-- What feeds a node of the cone is in the cone. -/
theorem InCone.of_feed? {input : Port} {t : Node × Port} (hfeed : feed? g l = some (input, t))
    (hl : l ∈ g.links) (htarget : InCone c g l.target.node.key) : InCone c g t.1.id.key := by
  obtain ⟨hport, hdata, hnode, _⟩ := feed?_eq_some.mp hfeed
  rw [Graph.node?_key hnode]
  exact .feeds hl htarget hport hdata

/-- Control flow leads on. -/
theorem Led.of_follow? (hfollow : follow? g l = some (p, n)) (hl : l ∈ g.links)
    (hsource : Led c g l.source.node.key) : Led c g n.id.key := by
  obtain ⟨hport, hexec, hnode⟩ := follow?_eq_some.mp hfollow
  rw [Graph.node?_key hnode]
  exact .flow hl hsource hport hexec

/-- The two functions give the same for nodes of the cone that stand for each other. -/
def AgreeInCone {α : Type} (c : Catalog) (g : Graph) (f f' : Node → Port → α) : Prop :=
  ∀ n m p q, Twins c g n m → InCone c g n.id.key → q.signature = p.signature → f' m q = f n p

theorem foldlM_congr {α β ε : Type} {f f' : β → α → Except ε β} {xs : List α} {b : β}
    (hstep : ∀ a ∈ xs, ∀ b, f' b a = f b a) : xs.foldlM f' b = xs.foldlM f b := by
  induction xs generalizing b with
  | nil => rfl
  | cons a rest ih =>
      rw [List.foldlM_cons, List.foldlM_cons, hstep a List.mem_cons_self b]
      congr 1
      funext b'
      exact ih fun a' ha' => hstep a' (List.mem_cons_of_mem a ha')

namespace SameInCone

variable (hsame : SameInCone c g h)

include hsame

/-- The nodes that are found under an id, in both graphs. -/
theorem node?_cases (id : Scalar) :
    (g.node? id = none ∧ h.node? id = none) ∨
      ∃ n m, g.node? id = some n ∧ h.node? id = some m ∧ Twins c g n m := by
  have hrel : Option.Rel (Twins c g) (g.node? id) (h.node? id) :=
    rel_find? (fun n m htwins => by rw [htwins.alike.id]) hsame.nodes
  generalize g.node? id = found at hrel
  generalize h.node? id = found' at hrel
  cases hrel with
  | none => exact Or.inl ⟨rfl, rfl⟩
  | some htwins => exact Or.inr ⟨_, _, rfl, rfl, htwins⟩

/-- The ports that a reference leads to, in both graphs. -/
theorem port?_cases (r : PortRef) :
    (g.port? r = none ∧ h.port? r = none) ∨
      ∃ p q, g.port? r = some p ∧ h.port? r = some q ∧ q.signature = p.signature := by
  have hport : (h.port? r).map Port.signature = (g.port? r).map Port.signature := by
    rcases hsame.node?_cases r.node with ⟨hg, hh⟩ | ⟨n, m, hg, hh, htwins⟩
    · simp only [Graph.port?, hg, hh, Option.bind_none]
    · simp only [Graph.port?, hg, hh, Option.bind_some, Node.port?]
      split
      · rw [← List.getElem?_map, ← List.getElem?_map, htwins.alike.ports]
      · rfl
  cases hg : g.port? r with
  | none =>
      rw [hg] at hport
      exact Or.inl ⟨rfl, Option.map_eq_none_iff.mp hport⟩
  | some p =>
      rw [hg] at hport
      obtain ⟨q, hq, hsignature⟩ := Option.map_eq_some_iff.mp hport
      exact Or.inr ⟨p, q, rfl, hq, hsignature⟩

/-- What feeds a data input, in both graphs. -/
theorem feed?_cases (l : Link) :
    (feed? g l = none ∧ feed? h l = none) ∨
      ∃ input n p input' m q, feed? g l = some (input, n, p) ∧ feed? h l = some (input', m, q) ∧
        input'.signature = input.signature ∧ Twins c g n m ∧ q.signature = p.signature := by
  rcases hsame.port?_cases l.target with ⟨hg, hh⟩ | ⟨input, input', hg, hh, hinput⟩
  · simp [feed?_eq_none, hg, hh]
  have hexec := isExec_of_signature hinput
  rcases hsame.node?_cases l.source.node with ⟨hg₁, hh₁⟩ | ⟨n, m, hg₁, hh₁, htwins⟩
  · simp [feed?_eq_none, hg, hh, hg₁, hh₁]
  rcases hsame.port?_cases l.source with ⟨hg₂, hh₂⟩ | ⟨p, q, hg₂, hh₂, houtput⟩
  · simp [feed?_eq_none, hg, hh, hg₂, hh₂]
  cases hdata : input.isExec with
  | true => simp [feed?_eq_none, hg, hh, hexec, hdata]
  | false =>
      refine Or.inr ⟨input, n, p, input', m, q, ?_, ?_, hinput, htwins, houtput⟩
      · exact feed?_eq_some.mpr ⟨hg, hdata, hg₁, hg₂⟩
      · exact feed?_eq_some.mpr ⟨hh, hexec.trans hdata, hh₁, hh₂⟩

/-- Where control flow leads, in both graphs. -/
theorem follow?_cases (l : Link) :
    (follow? g l = none ∧ follow? h l = none) ∨
      ∃ p n q m, follow? g l = some (p, n) ∧ follow? h l = some (q, m) ∧
        q.signature = p.signature ∧ Twins c g n m := by
  rcases hsame.port?_cases l.source with ⟨hg, hh⟩ | ⟨p, q, hg, hh, houtput⟩
  · simp [follow?_eq_none, hg, hh]
  have hexec := isExec_of_signature houtput
  rcases hsame.node?_cases l.target.node with ⟨hg₁, hh₁⟩ | ⟨n, m, hg₁, hh₁, htwins⟩
  · simp [follow?_eq_none, hg, hh, hg₁, hh₁]
  cases hflow : p.isExec with
  | false => simp [follow?_eq_none, hg, hh, hexec, hflow]
  | true =>
      refine Or.inr ⟨p, n, q, m, ?_, ?_, houtput, htwins⟩
      · exact follow?_eq_some.mpr ⟨hg, hflow, hg₁⟩
      · exact follow?_eq_some.mpr ⟨hh, hexec.trans hflow, hh₁⟩

theorem linksInto_eq (id : Scalar) : h.linksInto id = g.linksInto id := by
  simp only [Graph.linksInto, hsame.links]

theorem linksOutOf_eq (id : Scalar) : h.linksOutOf id = g.linksOutOf id := by
  simp only [Graph.linksOutOf, hsame.links]

/-! ## Expressions -/

/-- One link into a node of the cone. -/
theorem applyLink_eq {express express' : Node → Port → Except Fault (List Char)}
    (hexpress : AgreeInCone c g express express') (hl : l ∈ g.links)
    (htarget : InCone c g l.target.node.key) :
    applyLink h express' code l = applyLink g express code l := by
  unfold applyLink
  rcases hsame.feed?_cases l with
    ⟨hg, hh⟩ | ⟨input, n, p, input', m, q, hg, hh, hinput, htwins, houtput⟩
  · rw [hg, hh]
  · have hname : input'.name = input.name := congrArg Prod.snd hinput
    have htext : express' m q = express n p :=
      hexpress n m p q htwins (InCone.of_feed? hg hl htarget) houtput
    simp only [hg, hh, hname, htext]

theorem applyInputs_eq {express express' : Node → Port → Except Fault (List Char)}
    (hexpress : AgreeInCone c g express express') (halike : n.Alike m)
    (hcone : InCone c g n.id.key) (code : List Char) :
    applyInputs h express' m code = applyInputs g express n code := by
  unfold applyInputs
  rw [halike.id, hsame.linksInto_eq]
  apply foldlM_congr
  intro l hl code
  obtain ⟨hlink, hid⟩ := List.mem_filter.mp hl
  exact hsame.applyLink_eq hexpress hlink (Scalar.same_iff.mp hid ▸ hcone)

/-- **Expressions of the cone are the same in both graphs.** -/
theorem expressionIn_agree (limit : Value) (room : Nat) (b : Bounds) (path : List Scalar) :
    AgreeInCone c g (expressionIn c g limit room b path) (expressionIn c h limit room b path) := by
  induction room generalizing b path with
  | zero =>
      intro n m p q htwins _ _
      simp only [expressionIn, htwins.alike.id]
  | succ room ih =>
      intro n m p q htwins hcone hport
      have hfeeds : AgreeInCone c g
          (fun m q => b.under 2 fun b => expressionIn c g limit room b (path ++ [n.id]) m q)
          (fun m q => b.under 2 fun b => expressionIn c h limit room b (path ++ [n.id]) m q) := by
        intro n' m p q htwins hcone hport
        simp only [ih _ _ n' m p q htwins hcone hport]
      have hinputs := hsame.applyInputs_eq hfeeds htwins.alike hcone
      simp only [expressionIn, htwins.alike.id, outputTemplate?_of_alike htwins.alike hport,
        htwins.fillValue b hcone, hinputs, fillId_of_alike b htwins.alike]

theorem roomFor_eq (path : List Scalar) : roomFor h limit path = roomFor g limit path := by
  simp only [roomFor, hsame.nodes.length_eq]

theorem supplyWithin_agree (b : Bounds) (limit : Value) :
    AgreeInCone c g (supplyWithin b c g limit) (supplyWithin b c h limit) := by
  intro n m p q htwins hcone hport
  simp only [supplyWithin, expressionWithin, hsame.roomFor_eq,
    hsame.expressionIn_agree limit _ _ [] n m p q htwins hcone hport]

/-! ## Statements -/

/-- One link out of a node that control flow leads to. -/
theorem applyFlow_eq {write write' : List Scalar → Node → Except Fault (List Char × List Scalar)}
    (hwrite : ∀ visited n m, Twins c g n m → Led c g n.id.key → write' visited m = write visited n)
    (hl : l ∈ g.links) (hsource : Led c g l.source.node.key) (s : List Char × List Scalar) :
    applyFlow h write' s l = applyFlow g write s l := by
  unfold applyFlow
  rcases hsame.follow?_cases l with ⟨hg, hh⟩ | ⟨p, n, q, m, hg, hh, houtput, htwins⟩
  · rw [hg, hh]
  · have hname : q.name = p.name := congrArg Prod.snd houtput
    have hblock : write' s.2 m = write s.2 n := hwrite s.2 n m htwins (Led.of_follow? hg hl hsource)
    simp only [hg, hh, hname, hblock]

/-- **Statements that control flow leads to are the same in both graphs.** -/
theorem statementIn_eq (limit : Value) (room : Nat) (b : Bounds) (visited : List Scalar)
    (htwins : Twins c g n m) (hled : Led c g n.id.key) :
    statementIn c h limit room b visited m = statementIn c g limit room b visited n := by
  induction room generalizing b visited n m with
  | zero => simp only [statementIn, htwins.alike.id]
  | succ room ih =>
      have hinputs := hsame.applyInputs_eq (hsame.supplyWithin_agree b limit) htwins.alike
        (.led hled)
      have hflow : ∀ s, (g.linksOutOf n.id).foldlM (applyFlow h fun visited m =>
            b.under 1 fun b => statementIn c h limit room b visited m) s =
          (g.linksOutOf n.id).foldlM (applyFlow g fun visited m =>
            b.under 1 fun b => statementIn c g limit room b visited m) s := by
        intro s
        apply foldlM_congr
        intro l hl s
        obtain ⟨hlink, hid⟩ := List.mem_filter.mp hl
        refine hsame.applyFlow_eq (fun visited n m htwins hled => ?_) hlink
          (Scalar.same_iff.mp hid ▸ hled) s
        simp only [ih _ visited htwins hled]
      simp only [statementIn, htwins.alike.id, statementTemplate?_of_alike htwins.alike,
        htwins.fillValue b (.led hled), hinputs, hsame.linksOutOf_eq, hflow,
        fillId_of_alike b htwins.alike]

/-! ## Programs -/

theorem isReached_eq (halike : n.Alike m) : isReached h m = isReached g n := by
  unfold isReached
  rw [halike.id, hsame.linksInto_eq]
  congr 1
  funext l
  rcases hsame.port?_cases l.target with ⟨hg, hh⟩ | ⟨p, q, hg, hh, hport⟩
  · rw [hg, hh]
  · rw [hg, hh, Option.map_some, Option.map_some, isExec_of_signature hport]

/-- The entry nodes of both graphs stand for each other. -/
theorem entryNodes_rel :
    List.Forall₂ (fun n m => Twins c g n m ∧ Led c g n.id.key) (entryNodes c g)
      (entryNodes c h) := by
  have hrel : List.Forall₂ (Twins c g) (entryNodes c g) (entryNodes c h) := by
    refine List.rel_filter ?_ hsame.nodes
    intro n m htwins
    simp only [hsame.isReached_eq htwins.alike, typeOf, htwins.alike.category, htwins.alike.type]
  refine List.forall₂_iff_zip.mpr ⟨hrel.length_eq, fun {n m} hpair => ?_⟩
  exact ⟨List.forall₂_zip hrel hpair, .entry (List.of_mem_zip hpair).1⟩

theorem blocksWithin_eq (b : Bounds) (limit : Value) (visited : List Scalar)
    {nodes nodes' : List Node}
    (hrel : List.Forall₂ (fun n m => Twins c g n m ∧ Led c g n.id.key) nodes nodes') :
    blocksWithin b c h limit visited nodes' = blocksWithin b c g limit visited nodes := by
  induction hrel generalizing visited with
  | nil => rfl
  | cons hnode _ ih =>
      simp only [blocksWithin, statementWithin, hsame.nodes.length_eq,
        hsame.statementIn_eq limit _ b _ hnode.1 hnode.2, ih]

end SameInCone

/-- **What lies outside of the cone does not show.**  Wherever the nodes lie, whichever
are selected and whatever values are stored outside of the cone, a program has the same
text or the same fault, within whatever bounds. -/
theorem body_free_of_rest (hsame : SameInCone c g h) (limit : Value) (b : Bounds) :
    bodyWithin b c h limit = bodyWithin b c g limit := by
  have hrel := hsame.entryNodes_rel
  have hblocks := hsame.blocksWithin_eq b limit [] hrel
  unfold bodyWithin
  generalize entryNodes c g = entries at hrel hblocks
  generalize entryNodes c h = entries' at hrel hblocks
  cases hrel with
  | nil => rfl
  | cons _ _ => simp only [hblocks]

/-- Keys that have those of the entry nodes, and with a node all that it leads to or
takes data from, have the whole cone. -/
theorem InCone.mem (keys : List Key) {key : Key} (hcone : InCone c g key)
    (hentry : ∀ n ∈ entryNodes c g, n.id.key ∈ keys)
    (hflow : ∀ l ∈ g.links, (g.port? l.source).any Port.isExec = true →
      l.source.node.key ∈ keys → l.target.node.key ∈ keys)
    (hfeed : ∀ l ∈ g.links, (g.port? l.target).any (fun p => !p.isExec) = true →
      l.target.node.key ∈ keys → l.source.node.key ∈ keys) : key ∈ keys := by
  induction hcone with
  | led hled =>
      induction hled with
      | entry hn => exact hentry _ hn
      | flow hl _ hport hexec ih => exact hflow _ hl (by rw [hport]; exact hexec) ih
  | feeds hl _ hport hdata ih => exact hfeed _ hl (by rw [hport]; simp [hdata]) ih

/-- A note that is brought to a step and to another note, which nobody takes. -/
def aside : Graph :=
  let link (id source target : Int) (place : Int) : Link :=
    ⟨.int id, ⟨.int source, .output, 0⟩, ⟨.int target, .input, place⟩⟩
  { nodes := [noteNode "note" 0, noteNode "say" 1, noteNode "note" 2]
    links := [link 0 0 1 1, link 1 0 2 0] }

/-- The same after the step was moved, and the other note selected and written anew. -/
def asideEdited : Graph :=
  { aside with
    nodes := [noteNode "note" 0, ((noteNode "say" 1).moveTo (.int 300) (.float 0.5)).1,
      { noteNode "note" 2 with selected := .bool true, value := .str "unheard" }] }

/-- The program does not know of the other note. -/
theorem body_free_of_rest_aside :
    SameInCone noteCatalog aside asideEdited ∧
      bodyWithin Nesting.direct.ofText noteCatalog asideEdited (.int 256) =
        bodyWithin Nesting.direct.ofText noteCatalog aside (.int 256) ∧
      bodyWithin Nesting.direct.ofText noteCatalog aside (.int 256) =
        .ok "say1('$5 each');".toList := by
  have hoff : ¬ InCone noteCatalog aside (noteNode "note" 2).id.key := by
    intro hcone
    have hmem := hcone.mem [.whole 0, .whole 1] (by decide +kernel) (by decide +kernel)
      (by decide +kernel)
    exact absurd hmem (by decide +kernel)
  have halike : ∀ n : Node, n.Alike n := fun n => ⟨rfl, rfl, rfl, rfl, fun _ => rfl⟩
  have hsame : SameInCone noteCatalog aside asideEdited := by
    refine ⟨rfl, .cons ⟨halike _, fun _ => rfl⟩ (.cons ?_ (.cons ?_ .nil))⟩
    · obtain ⟨hmoved, hvalue⟩ := Node.alike_moveTo (noteNode "say" 1) (.int 300) (.float 0.5)
      exact ⟨hmoved, fun _ => hvalue⟩
    · refine ⟨⟨rfl, rfl, rfl, rfl, fun side => ?_⟩, fun hcone => absurd hcone hoff⟩
      cases side <;> rfl
  exact ⟨hsame, body_free_of_rest hsame (.int 256) _, eq_ok_of_toOption (by decide +kernel)⟩

end Program

end NodeWeave
