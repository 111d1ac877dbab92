import NodeWeave.Proofs.AutoConnect
import NodeWeave.Proofs.DepthLimit

/-!
# Which template an output is made from

A port of a node is a copy of its definition, template included, but an expression is
not made from this copy.  The definition is looked up again in the type, by the name
of the port and else by its kind, among all outputs of the type and not only among the
visible ones.  `Supplies` says which definition that is without the search for it.

So an output has its own template as long as no output before it has its name or, where
it has none, its kind (`template_supplied`).  Of two nameless outputs of one kind
the second is made from the template of the first (`template_not_own`).
-/

namespace NodeWeave

namespace NodeType

variable {t : NodeType} {d e : PortDef}

/-- The first output of the type that passes a test. -/
def FirstOutput (t : NodeType) (test : PortDef → Bool) (e : PortDef) : Prop :=
  ∃ front back, t.outputs = front ++ e :: back ∧ test e = true ∧ ∀ o ∈ front, test o = false

/-- The output of the type from which an output like `d` has its template: the first one
with its name, or, where it has no name that an output could have, the first one of its
kind. -/
inductive Supplies (t : NodeType) (d e : PortDef) : Prop
  | byName (hname : d.name.isNull = false)
      (hfirst : t.FirstOutput (fun o => o.name.same d.name) e)
  | byKind (hname : d.name.isNull = true ∨ ∀ o ∈ t.outputs, o.name.same d.name = false)
      (hfirst : t.FirstOutput (fun o => o.kind == d.kind) e)

theorem find?_outputs {test : PortDef → Bool} :
    t.outputs.find? test = some e ↔ t.FirstOutput test e := by
  rw [List.find?_eq_some_iff_append]
  constructor
  · intro ⟨htest, front, back, hsplit, hfront⟩
    exact ⟨front, back, hsplit, htest, fun o ho => by simpa using hfront o ho⟩
  · intro ⟨front, back, hsplit, htest, hfront⟩
    exact ⟨htest, front, back, hsplit, fun o ho => by simp [hfront o ho]⟩

/-- **The search finds the output that supplies the template.** -/
theorem findOutput_iff : t.findOutput d.name (.str d.kind) = some e ↔ t.Supplies d e := by
  have hkind : (fun o : PortDef => (Value.str o.kind).same (.str d.kind)) =
      fun o => o.kind == d.kind := rfl
  unfold findOutput
  rw [hkind, Option.or_eq_some_iff, find?_outputs]
  cases hnull : d.name.isNull with
  | true =>
      constructor
      · intro h
        rcases h with h | ⟨_, hfirst⟩
        · cases h
        · exact .byKind (Or.inl hnull) hfirst
      · intro h
        cases h with
        | byName hname _ => exact absurd (hnull.symm.trans hname) (by decide)
        | byKind _ hfirst => exact Or.inr ⟨rfl, hfirst⟩
  | false =>
      simp only [Bool.false_eq_true, if_false, find?_outputs, List.find?_eq_none]
      constructor
      · intro h
        rcases h with hfirst | ⟨hnone, hfirst⟩
        · exact .byName hnull hfirst
        · exact .byKind (Or.inr fun o ho => by simpa using hnone o ho) hfirst
      · intro h
        cases h with
        | byName _ hfirst => exact Or.inl hfirst
        | byKind hname hfirst =>
            rcases hname with hname | hname
            · exact absurd (hnull.symm.trans hname) (by decide)
            · exact Or.inr ⟨fun o ho => by simp [hname o ho], hfirst⟩

/-- Every output of the type is supplied by one. -/
theorem exists_supplies (hd : d ∈ t.outputs) : ∃ e, t.Supplies d e := by
  have hkind : (t.findOutput d.name (.str d.kind)).isSome = true := by
    have hfound : (t.outputs.find? fun o => o.kind == d.kind).isSome = true :=
      List.find?_isSome.mpr ⟨d, hd, beq_self_eq_true d.kind⟩
    rw [findOutput, Option.isSome_or]
    exact Bool.or_eq_true_iff.mpr (Or.inr hfound)
  obtain ⟨e, he⟩ := Option.isSome_iff_exists.mp hkind
  exact ⟨e, findOutput_iff.mp he⟩

end NodeType

namespace Program

variable {c : Catalog} {n : Node}

/-- A template with all that a node brings to it: its value, what feeds it and its id. -/
def expand (b : Bounds) (g : Graph) (express : Node → Port → Except Fault (List Char)) (n : Node)
    (code : List Char) : Except Fault (List Char) := do
  let code ← fillValue b n code
  let code ← applyInputs g express n code
  return Template.strip (← fillId b n code)

theorem outputTemplate?_eq {t : NodeType} {p : Port} {d e : PortDef} (htype : typeOf c n = some t)
    (hmatches : p.Matches d) (hsupplies : t.Supplies d e) :
    outputTemplate? c n p = e.code.map String.toList := by
  have hfound : t.findOutput p.name (.str p.kind) = some e := by
    rw [hmatches.name, hmatches.kind]
    exact NodeType.findOutput_iff.mpr hsupplies
  simp only [outputTemplate?, htype, hfound, Option.bind_eq_bind, Option.bind_some]
  cases e.code <;> rfl

/-- An expression that nothing else asks for is its template with all that the node
brings to it. -/
theorem expressionWithin_eq_expand {p : Port} {limit : Int} (hlimit : 0 < limit) (b : Bounds)
    (g : Graph) :
    expressionWithin b c g (.int limit) [] n p =
      match outputTemplate? c n p with
      | none => .ok []
      | some code => expand b g (fun m q => b.under 2 fun b =>
          expressionIn c g (.int limit) (limit.toNat - 1) b [n.id] m q) n code := by
  obtain ⟨room, hroom⟩ : ∃ room, limit.toNat = room + 1 := ⟨limit.toNat - 1, by omega⟩
  rw [expressionWithin, roomFor_int, hroom, Nat.add_sub_cancel]
  simp only [expressionIn, onPath, List.any_nil, Bool.false_eq_true, if_false, List.nil_append]
  rfl

/-- **The template of an output of a new node.**  Within any bounds, an output is made from
the template of the definition that supplies it.  That is its own one if no output before
it has its name or, where it has none, its kind. -/
theorem template_supplied {id k : Scalar} {category type x y : Value} {name : String}
    {t : NodeType} (hbuild : Node.build c id category type x y = .ok n)
    (htype : c.require category type = .ok (k, name, t)) :
    (n.ports .output).length = (t.visiblePorts .output).length ∧
    ∀ (i : Nat) p d, (n.ports .output)[i]? = some p → (t.visiblePorts .output)[i]? = some d →
      (t.Supplies d d → outputTemplate? c n p = d.code.map String.toList) ∧
      ∃ e, t.Supplies d e ∧ outputTemplate? c n p = e.code.map String.toList ∧
        ∀ b g (limit : Int), 0 < limit → expressionWithin b c g (.int limit) [] n p =
          match e.code with
          | none => .ok []
          | some code => expand b g (fun m q => b.under 2 fun b =>
              expressionIn c g (.int limit) (limit.toNat - 1) b [n.id] m q) n code.toList := by
  have hkinds := Graph.kinds_of_build hbuild htype .output
  obtain ⟨hfind, hagrees⟩ := Node.Agrees.of_build hbuild htype
  refine ⟨by simpa [Node.kinds] using congrArg List.length hkinds, ?_⟩
  intro i p d hp hd
  have hmatches : p.Matches d := hagrees .output i p d hp hd
  have hmem : d ∈ t.outputs := (List.mem_filter.mp (List.mem_of_getElem? hd)).1
  obtain ⟨e, hsupplies⟩ := NodeType.exists_supplies hmem
  have htemplate := outputTemplate?_eq hfind hmatches hsupplies
  refine ⟨outputTemplate?_eq hfind hmatches, e, hsupplies, htemplate, fun b g limit hlimit => ?_⟩
  rw [expressionWithin_eq_expand hlimit, htemplate]
  cases e.code <;> rfl

/-- An output of one kind for all, with a template. -/
def floatOutput (name : Value) (code : String) (implicit : Bool) : PortDef :=
  { kind := "float", name, implicit, code := some code, dynamic := .null }

/-- Two outputs of one kind without names. -/
def pair : List PortDef :=
  [floatOutput .null "x" false, floatOutput .null "y" false]

/-- Two outputs with names, of which the second has that of an implicit output. -/
def namesakes : List PortDef :=
  [floatOutput (.str "a") "x" true, floatOutput (.str "b") "y" false,
    floatOutput (.str "a") "z" false]

/-- The type that is read from a document with these outputs. -/
def typeWith (outputs : List PortDef) : NodeType :=
  (NodeType.ofValue (.obj [("outputs", .list (outputs.map PortDef.toValue))]) .null).toOption.getD
    default

/-- A catalog with both types. -/
def twinCatalog : Catalog :=
  { categories := [(.text "math", {
      name := .text "math"
      types := [("pair", typeWith pair), ("namesakes", typeWith namesakes)] })]
    loaded := true }

/-- A new node of a type of that catalog. -/
def twinNode (type : String) : Node :=
  (Node.build twinCatalog (.int 0) (.str "math") (.str type) (.int 0) (.int 0)).toOption.getD
    default

theorem typeWith_pair : (typeWith pair).outputs = pair := rfl

theorem typeWith_namesakes : (typeWith namesakes).outputs = namesakes := rfl

/-- **The same output twice.**  The second one of the pair has the template of the first.
With names, the first visible output has its own. -/
theorem template_supplied_twins :
    (∀ p, ((twinNode "pair").ports .output)[1]? = some p →
      outputTemplate? twinCatalog (twinNode "pair") p = some ['x']) ∧
    (∀ p, ((twinNode "namesakes").ports .output)[0]? = some p →
      outputTemplate? twinCatalog (twinNode "namesakes") p = some ['y']) := by
  have hpair : twinCatalog.require (.str "math") (.str "pair") =
      .ok (.text "math", "pair", typeWith pair) := rfl
  have hnames : twinCatalog.require (.str "math") (.str "namesakes") =
      .ok (.text "math", "namesakes", typeWith namesakes) := rfl
  have hbuild : ∀ type ∈ ["pair", "namesakes"], Node.build twinCatalog (.int 0) (.str "math")
      (.str type) (.int 0) (.int 0) = .ok (twinNode type) := by
    intro type htype
    simp only [List.mem_cons, List.not_mem_nil, or_false] at htype
    rcases htype with rfl | rfl <;> rfl
  constructor
  · intro p hp
    obtain ⟨-, e, hsupplies, htemplate, -⟩ :=
      (template_supplied (hbuild "pair" (by simp)) hpair).2 1 p (floatOutput .null "y" false) hp rfl
    cases hsupplies with
    | byName hname _ => cases hname
    | byKind _ hfirst =>
        obtain ⟨front, back, hsplit, -, hfront⟩ := hfirst
        rw [typeWith_pair] at hsplit
        cases front with
        | nil =>
            obtain ⟨rfl, -⟩ := List.cons.inj hsplit
            exact htemplate
        | cons o front =>
            obtain ⟨rfl, -⟩ := List.cons.inj hsplit
            cases hfront _ List.mem_cons_self
  · intro p hp
    have hout := (template_supplied (hbuild "namesakes" (by simp)) hnames).2 0 p
      (floatOutput (.str "b") "y" false) hp rfl
    refine hout.1 (.byName rfl ?_)
    refine ⟨[floatOutput (.str "a") "x" true], [floatOutput (.str "a") "z" false],
      typeWith_namesakes, rfl, ?_⟩
    intro o ho
    rw [List.mem_singleton.mp ho]
    rfl

/-- What the definition of an output at a place has for a template, and what is made of
the output. -/
def ownAndMade (type : String) (i : Nat) : Option String × Option (List Char) :=
  (((twinCatalog.find? (.text "math") type).bind fun t => (t.visiblePorts .output)[i]?).bind
    PortDef.code,
  ((twinNode type).ports .output)[i]?.bind fun p =>
    (expressionWithin Nesting.direct.ofText twinCatalog { nodes := [twinNode type] } (.int 256) []
      (twinNode type) p).toOption)

/-- **Outputs that do not have their own template.**  The second one of the pair has that
of the first, and the last of the named ones that of the implicit output. -/
theorem template_not_own :
    ownAndMade "pair" 0 = (some "x", some ['x']) ∧ ownAndMade "pair" 1 = (some "y", some ['x']) ∧
    ownAndMade "namesakes" 0 = (some "y", some ['y']) ∧
    ownAndMade "namesakes" 1 = (some "z", some ['x']) := by
  decide +kernel

end Program

end NodeWeave
