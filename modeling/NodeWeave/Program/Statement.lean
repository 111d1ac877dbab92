import NodeWeave.Program.Expression
import NodeWeave.Moment
import NodeWeave.Value.Writable

/-!
# Statements and whole programs

The statement of a node is the template of its first control-flow input with the
value, the expressions that feed it, and the blocks of the nodes that its
control-flow outputs lead to.  A node is written once: whatever reaches it again
gets an empty block, so control flow may run in circles.  A program has a block
for every entry node, that is, every node with a control-flow input that nothing
leads to.

As expressions are, statements and programs are made within bounds: a node that control
flow leads to lies one step further down.  `statement`, `body` and `source` are those
without bounds.
-/

namespace NodeWeave.Program

/-- The longest chain of expressions, unless a limit is given. -/
def defaultLimit : Int := 256

/-- The template of the statement of a node, if its type has one. -/
def statementTemplate? (c : Catalog) (n : Node) : Option (List Char) := do
  let t ← typeOf c n
  let d ← t.execInput
  let code ← d.code
  return code.toList

/-- The port by which a link carries control flow out of a node, and the node it
leads to, if both exist. -/
def follow? (g : Graph) (l : Link) : Option (Port × Node) := do
  let output ← g.port? l.source
  guard output.isExec
  let target ← g.node? l.target.node
  return (output, target)

/-- Fills in the block that one link leads to; `write` makes the block of a node
and tells which nodes have been written after that. -/
def applyFlow (g : Graph) (write : List Scalar → Node → Except Fault (List Char × List Scalar))
    (s : List Char × List Scalar) (l : Link) : Except Fault (List Char × List Scalar) :=
  match follow? g l with
  | none => .ok s
  | some (output, target) => do
    let (block, visited) ← write s.2 target
    let code ← applyNamed Template.splice output.name s.1 block
    return (code, visited)

/-- The expression of an output that feeds a statement, two steps further down. -/
def supplyWithin (b : Bounds) (c : Catalog) (g : Graph) (limit : Value) (n : Node) (p : Port) :
    Except Fault (List Char) :=
  b.under 2 fun b => expressionWithin b c g limit [] n p

/-- The statement of a node and of all it leads to, with the nodes written by
then.  The first argument bounds how many nodes can still be written one inside
the other. -/
def statementIn (c : Catalog) (g : Graph) (limit : Value) :
    Nat → Bounds → List Scalar → Node → Except Fault (List Char × List Scalar)
  | room, b, visited, n =>
    if onPath visited n.id then .ok ([], visited)
    else
      match room with
      | 0 => .ok ([], visited)
      | room + 1 =>
        let visited := visited ++ [n.id]
        match statementTemplate? c n with
        | none => .ok ([], visited)
        | some code => do
          let code ← fillValue b n code
          let code ← applyInputs g (supplyWithin b c g limit) n code
          let (code, visited) ← (g.linksOutOf n.id).foldlM (applyFlow g fun visited m =>
            b.under 1 fun b => statementIn c g limit room b visited m) (code, visited)
          return (Template.strip (← fillId b n code), visited)

/-- The statement of a node of the graph within bounds, when some nodes have been
written already. -/
def statementWithin (b : Bounds) (c : Catalog) (g : Graph) (limit : Value)
    (visited : List Scalar) (n : Node) : Except Fault (List Char × List Scalar) :=
  statementIn c g limit (g.nodes.length + 1) b visited n

/-- Does control flow lead into the node? -/
def isReached (g : Graph) (n : Node) : Bool :=
  (g.linksInto n.id).any fun l => ((g.port? l.target).map Port.isExec).getD false

/-- The nodes where the program starts. -/
def entryNodes (c : Catalog) (g : Graph) : List Node :=
  g.nodes.filter fun n => (((typeOf c n).bind NodeType.execInput).isSome) && !isReached g n

/-- The blocks of some nodes, one after the other. -/
def blocksWithin (b : Bounds) (c : Catalog) (g : Graph) (limit : Value) (visited : List Scalar) :
    List Node → Except Fault (List (List Char))
  | [] => .ok []
  | n :: rest => do
    let (block, visited) ← statementWithin b c g limit visited n
    return block :: (← blocksWithin b c g limit visited rest)

/-- The text of the program without its header, within bounds. -/
def bodyWithin (b : Bounds) (c : Catalog) (g : Graph) (limit : Value) :
    Except Fault (List Char) :=
  match entryNodes c g with
  | [] => .error .noEntryPoint
  | entries => do
    let blocks ← blocksWithin b c g limit [] entries
    return ['\n', '\n'].intercalate (blocks.filter fun block => !block.isEmpty)

/-- The text of the program without its header. -/
def body (c : Catalog) (g : Graph) (limit : Value) : Except Fault (List Char) :=
  bodyWithin .free c g limit

/-- The text of the program within bounds. -/
def sourceWithin (b : Bounds) (c : Catalog) (g : Graph) (limit : Value) (now : Moment) :
    Except Fault String := do
  let text ← bodyWithin b c g limit
  b.check c.style.commentStyle
  return (← now.header c.style.commentStyle) ++ String.ofList text

end NodeWeave.Program
