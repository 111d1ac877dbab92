import Mathlib.Data.List.Basic
import NodeWeave.Program.Statement
import NodeWeave.Proofs.ControlFlow

/-!
# What a program sees of a graph and a catalog

A program is made from the nodes and the links of a graph in their order; the
counters have no part in it.  `core` is a graph with fresh counters, and each
function on the way from a graph to its text gives the same on both.

Of a catalog a program sees the types of the nodes of its graph.  With two catalogs
that have the `SameTypes` for them, each function on the way gives the same for the
nodes of the graph, and links lead to no other nodes.
-/

namespace NodeWeave

/-- The graph with fresh counters. -/
def Graph.core (g : Graph) : Graph :=
  { nodes := g.nodes, links := g.links }

namespace Program

/-! ## Graphs with the same nodes and links -/

section Graphs

variable (c : Catalog) (g : Graph) (limit : Value)

theorem expressionIn_core (room : Nat) :
    expressionIn c g.core limit room = expressionIn c g limit room := by
  induction room with
  | zero =>
      funext b path n p
      simp only [expressionIn]
  | succ room ih =>
      funext b path n p
      simp only [expressionIn, ih]
      rfl

theorem supplyWithin_core (b : Bounds) : supplyWithin b c g.core limit = supplyWithin b c g limit := by
  funext n p
  unfold supplyWithin expressionWithin
  rw [expressionIn_core]
  rfl

theorem statementIn_core (room : Nat) :
    statementIn c g.core limit room = statementIn c g limit room := by
  induction room with
  | zero =>
      funext b visited n
      simp only [statementIn]
  | succ room ih =>
      funext b visited n
      simp only [statementIn, ih, supplyWithin_core]
      rfl

theorem blocksWithin_core (b : Bounds) (visited : List Scalar) (nodes : List Node) :
    blocksWithin b c g.core limit visited nodes = blocksWithin b c g limit visited nodes := by
  induction nodes generalizing visited with
  | nil => rfl
  | cons n rest ih =>
      have hstatement : statementWithin b c g.core limit = statementWithin b c g limit := by
        funext visited n
        unfold statementWithin
        rw [statementIn_core]
        rfl
      simp only [blocksWithin, hstatement, ih]

theorem bodyWithin_core (b : Bounds) : bodyWithin b c g.core limit = bodyWithin b c g limit := by
  unfold bodyWithin
  simp only [blocksWithin_core]
  rfl

/-- The text of a program is the same for two graphs with the same nodes and the same
links, and so is its fault. -/
theorem sourceWithin_congr {g h : Graph} (hnodes : h.nodes = g.nodes) (hlinks : h.links = g.links)
    (b : Bounds) (now : Moment) :
    sourceWithin b c h limit now = sourceWithin b c g limit now := by
  have hcore : h.core = g.core := by simp only [Graph.core, hnodes, hlinks]
  simp only [sourceWithin]
  rw [← bodyWithin_core c h, ← bodyWithin_core c g, hcore]

end Graphs

/-! ## Catalogs with the same types -/

section Catalogs

variable {c d : Catalog} {g : Graph} {n : Node}

/-- Both catalogs have the same types for the nodes of a graph. -/
def SameTypes (g : Graph) (c d : Catalog) : Prop :=
  ∀ n ∈ g.nodes, typeOf d n = typeOf c n

/-- What feeds a data input is a node of the graph. -/
theorem producer_mem {l : Link} {input : Port} {t : Node × Port}
    (h : feed? g l = some (input, t)) : t.1 ∈ g.nodes :=
  Graph.node?_mem (feed?_eq_some.mp h).2.2.1

/-- Control flow leads to nodes of the graph. -/
theorem target_mem {l : Link} {output : Port} {target : Node}
    (h : follow? g l = some (output, target)) : target ∈ g.nodes :=
  Graph.node?_mem (follow?_eq_some.mp h).2.2

/-- The links into a node bring expressions of nodes of the graph only. -/
theorem applyInputs_congr {express express' : Node → Port → Except Fault (List Char)}
    (heq : ∀ m ∈ g.nodes, express' m = express m) (n : Node) (code : List Char) :
    applyInputs g express' n code = applyInputs g express n code := by
  have hlink : applyLink g express' = applyLink g express := by
    funext code l
    unfold applyLink
    cases hfeed : feed? g l with
    | none => rfl
    | some found => simp only [heq found.2.1 (producer_mem hfeed)]
  simp only [applyInputs, hlink]

/-- The links out of a node lead to blocks of nodes of the graph only. -/
theorem applyFlow_congr {write write' : List Scalar → Node → Except Fault (List Char × List Scalar)}
    (heq : ∀ visited, ∀ m ∈ g.nodes, write' visited m = write visited m) :
    applyFlow g write' = applyFlow g write := by
  funext s l
  unfold applyFlow
  cases hfollow : follow? g l with
  | none => rfl
  | some found => simp only [heq s.2 found.2 (target_mem hfollow)]

namespace SameTypes

variable (hsame : SameTypes g c d)

include hsame

theorem outputTemplate?_eq (hn : n ∈ g.nodes) : outputTemplate? d n = outputTemplate? c n := by
  funext p
  simp only [outputTemplate?, hsame n hn]

theorem statementTemplate?_eq (hn : n ∈ g.nodes) :
    statementTemplate? d n = statementTemplate? c n := by
  simp only [statementTemplate?, hsame n hn]

theorem expressionIn_eq (limit : Value) (room : Nat) (b : Bounds) (path : List Scalar)
    (hn : n ∈ g.nodes) : expressionIn d g limit room b path n = expressionIn c g limit room b path n := by
  induction room generalizing b path n with
  | zero =>
      funext p
      simp only [expressionIn]
  | succ room ih =>
      funext p
      have hfeeds : ∀ m ∈ g.nodes, (fun q => b.under 2 fun b =>
          expressionIn d g limit room b (path ++ [n.id]) m q) = fun q => b.under 2 fun b =>
          expressionIn c g limit room b (path ++ [n.id]) m q := fun m hm => by
        simp only [ih _ _ hm]
      simp only [expressionIn, hsame.outputTemplate?_eq hn, applyInputs_congr hfeeds]

theorem supplyWithin_eq (b : Bounds) (limit : Value) (hn : n ∈ g.nodes) :
    supplyWithin b d g limit n = supplyWithin b c g limit n := by
  funext p
  simp only [supplyWithin, expressionWithin, hsame.expressionIn_eq limit _ _ _ hn]

theorem statementIn_eq (limit : Value) (room : Nat) (b : Bounds) (visited : List Scalar)
    (hn : n ∈ g.nodes) : statementIn d g limit room b visited n = statementIn c g limit room b visited n := by
  induction room generalizing b visited n with
  | zero => simp only [statementIn]
  | succ room ih =>
      have hinputs := applyInputs_congr fun m hm => hsame.supplyWithin_eq b limit hm
      have hwrite : ∀ visited, ∀ m ∈ g.nodes,
          (b.under 1 fun b => statementIn d g limit room b visited m) =
            b.under 1 fun b => statementIn c g limit room b visited m := fun visited m hm => by
        simp only [ih _ visited hm]
      simp only [statementIn, hsame.statementTemplate?_eq hn, hinputs, applyFlow_congr hwrite]

theorem blocksWithin_eq (b : Bounds) (limit : Value) (visited : List Scalar) {nodes : List Node}
    (hnodes : ∀ n ∈ nodes, n ∈ g.nodes) :
    blocksWithin b d g limit visited nodes = blocksWithin b c g limit visited nodes := by
  induction nodes generalizing visited with
  | nil => rfl
  | cons n rest ih =>
      have hn : n ∈ g.nodes := hnodes n List.mem_cons_self
      have hrest : ∀ visited,
          blocksWithin b d g limit visited rest = blocksWithin b c g limit visited rest :=
        fun visited => ih visited fun m hm => hnodes m (List.mem_cons_of_mem n hm)
      simp only [blocksWithin, statementWithin, hsame.statementIn_eq limit _ _ _ hn, hrest]

theorem entryNodes_eq : entryNodes d g = entryNodes c g := by
  apply List.filter_congr
  intro n hn
  rw [hsame n hn]

/-- **The text of a program is the same with both catalogs**, and so is its fault. -/
theorem bodyWithin_eq (b : Bounds) (limit : Value) : bodyWithin b d g limit = bodyWithin b c g limit := by
  have hblocks : blocksWithin b d g limit [] (entryNodes c g) =
      blocksWithin b c g limit [] (entryNodes c g) :=
    hsame.blocksWithin_eq b limit [] fun n hn => (List.mem_filter.mp hn).1
  unfold bodyWithin
  rw [hsame.entryNodes_eq]
  split
  · rfl
  · rw [hblocks]

end SameTypes

end Catalogs

end Program

end NodeWeave
