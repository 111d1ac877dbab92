import NodeWeave.Program.Statement

/-!
# Recorded control flow

The text of a program does not show which nodes were visited on the way to it and
whose templates were filled in.  `traceIn`, `trace`, `traceBlocks` and `traceBody`
follow `statementIn`, `statementWithin`, `blocksWithin` and `bodyWithin` step by step
and keep a record of both.  Leaving the record out gives the program back
(`traceIn_plain`, `traceBlocks_plain`, `traceBody_plain`), so what is said about
the record is said about the program.
-/

namespace NodeWeave.Program

/-- What following control flow gives. -/
structure Trace where
  text : List Char
  /-- The ids of the nodes that were visited, those from before at the start. -/
  visited : List Scalar
  /-- The ids of the nodes whose templates were filled in, once for each time. -/
  expanded : List Scalar

/-- The trace without its record of templates. -/
def Trace.plain (t : Trace) : List Char × List Scalar :=
  (t.text, t.visited)

/-- `applyFlow` with a record. -/
def traceFlow (g : Graph) (write : List Scalar → Node → Except Fault Trace) (s : Trace) (l : Link) :
    Except Fault Trace :=
  match follow? g l with
  | none => .ok s
  | some (output, target) => do
    let t ← write s.visited target
    let code ← applyNamed Template.splice output.name s.text t.text
    return ⟨code, t.visited, s.expanded ++ t.expanded⟩

/-- `statementIn` with a record. -/
def traceIn (c : Catalog) (g : Graph) (limit : Value) :
    Nat → Bounds → List Scalar → Node → Except Fault Trace
  | room, b, visited, n =>
    if onPath visited n.id then .ok ⟨[], visited, []⟩
    else
      match room with
      | 0 => .ok ⟨[], visited, []⟩
      | room + 1 =>
        let visited := visited ++ [n.id]
        match statementTemplate? c n with
        | none => .ok ⟨[], visited, []⟩
        | some code => do
          let code ← fillValue b n code
          let code ← applyInputs g (supplyWithin b c g limit) n code
          let t ← (g.linksOutOf n.id).foldlM (traceFlow g fun visited m =>
            b.under 1 fun b => traceIn c g limit room b visited m) ⟨code, visited, [n.id]⟩
          return { t with text := Template.strip (← fillId b n t.text) }

/-- `statementWithin` with a record. -/
def trace (b : Bounds) (c : Catalog) (g : Graph) (limit : Value) (visited : List Scalar) (n : Node) :
    Except Fault Trace :=
  traceIn c g limit (g.nodes.length + 1) b visited n

/-- `blocksWithin` with a record of all nodes together. -/
def traceBlocks (b : Bounds) (c : Catalog) (g : Graph) (limit : Value) (visited : List Scalar) :
    List Node → Except Fault (List (List Char) × List Scalar × List Scalar)
  | [] => .ok ([], visited, [])
  | n :: rest => do
    let t ← trace b c g limit visited n
    let (texts, visited, expanded) ← traceBlocks b c g limit t.visited rest
    return (t.text :: texts, visited, t.expanded ++ expanded)

/-- `bodyWithin` with a record. -/
def traceBody (b : Bounds) (c : Catalog) (g : Graph) (limit : Value) : Except Fault Trace :=
  match entryNodes c g with
  | [] => .error .noEntryPoint
  | entries => do
    let (texts, visited, expanded) ← traceBlocks b c g limit [] entries
    return ⟨['\n', '\n'].intercalate (texts.filter fun b => !b.isEmpty), visited, expanded⟩

variable {b : Bounds} {c : Catalog} {g : Graph} {limit : Value}

theorem map_id_bind_eq {α β β' : Type} {h : β → β'} {x : Except Fault α} {k : α → Except Fault β}
    {k' : α → Except Fault β'} (hk : ∀ a, (k a).map h = k' a) : (x >>= k).map h = x >>= k' := by
  cases x with
  | error fault => rfl
  | ok a => exact hk a

/-- Two runs that agree step by step, but for what is left out, agree as a whole. -/
theorem map_bind_eq {α β α' β' : Type} {f : α → α'} {h : β → β'} {x : Except Fault α}
    {y : Except Fault α'} {k : α → Except Fault β} {k' : α' → Except Fault β'}
    (hx : x.map f = y) (hk : ∀ a, (k a).map h = k' (f a)) : (x >>= k).map h = y >>= k' := by
  subst hx
  cases x with
  | error fault => rfl
  | ok a => exact hk a

theorem traceFlow_plain {write : List Scalar → Node → Except Fault Trace}
    {write' : List Scalar → Node → Except Fault (List Char × List Scalar)}
    (hwrite : ∀ visited n, (write visited n).map Trace.plain = write' visited n)
    (s : Trace) (l : Link) :
    (traceFlow g write s l).map Trace.plain = applyFlow g write' s.plain l := by
  unfold traceFlow applyFlow
  cases follow? g l with
  | none => rfl
  | some found =>
      refine map_bind_eq (hwrite s.visited found.2) fun t => ?_
      exact map_id_bind_eq fun _ => rfl

theorem foldlM_traceFlow_plain {write : List Scalar → Node → Except Fault Trace}
    {write' : List Scalar → Node → Except Fault (List Char × List Scalar)}
    (hwrite : ∀ visited n, (write visited n).map Trace.plain = write' visited n)
    (links : List Link) (s : Trace) :
    (links.foldlM (traceFlow g write) s).map Trace.plain =
      links.foldlM (applyFlow g write') s.plain := by
  induction links generalizing s with
  | nil => rfl
  | cons l rest ih =>
      rw [List.foldlM_cons, List.foldlM_cons]
      exact map_bind_eq (traceFlow_plain hwrite s l) ih

theorem traceIn_plain (room : Nat) (b : Bounds) (visited : List Scalar) (n : Node) :
    (traceIn c g limit room b visited n).map Trace.plain = statementIn c g limit room b visited n := by
  induction room generalizing b visited n with
  | zero =>
      unfold traceIn statementIn
      split <;> rfl
  | succ room ih =>
      unfold traceIn statementIn
      split
      · rfl
      · cases statementTemplate? c n with
        | none => rfl
        | some code =>
            refine map_id_bind_eq fun code => map_id_bind_eq fun code => ?_
            have hwrite : ∀ visited m, (b.under 1 fun b => traceIn c g limit room b visited m).map
                Trace.plain = b.under 1 fun b => statementIn c g limit room b visited m :=
              fun visited m => map_id_bind_eq fun b => ih b visited m
            refine map_bind_eq (foldlM_traceFlow_plain hwrite _ _) fun t => ?_
            exact map_id_bind_eq fun _ => rfl

theorem trace_plain (visited : List Scalar) (n : Node) :
    (trace b c g limit visited n).map Trace.plain = statementWithin b c g limit visited n :=
  traceIn_plain _ b visited n

theorem traceBlocks_plain (visited : List Scalar) (nodes : List Node) :
    (traceBlocks b c g limit visited nodes).map Prod.fst = blocksWithin b c g limit visited nodes := by
  induction nodes generalizing visited with
  | nil => rfl
  | cons n rest ih =>
      unfold traceBlocks blocksWithin
      refine map_bind_eq (trace_plain visited n) fun t => ?_
      exact map_bind_eq (ih t.visited) fun _ => rfl

/-- **The record is one of the program itself.** -/
theorem traceBody_plain : (traceBody b c g limit).map Trace.text = bodyWithin b c g limit := by
  unfold traceBody bodyWithin
  cases entryNodes c g with
  | nil => rfl
  | cons n rest => exact map_bind_eq (traceBlocks_plain [] (n :: rest)) fun _ => rfl

end NodeWeave.Program
