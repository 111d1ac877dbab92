import NodeWeave.Proofs.ProgramText

/-!
# Programs without placeholders

Every text of a program is made from the templates, the values and the ids of its
nodes (`MadeOf`), by filling in, splicing and stripping.  So what stands behind each
`$` of these sources decides what stands behind each `$` of the program, as long as the
test is one that lasts (`Tame.lasting`).

From steady sources come expressions and statements without a placeholder, and from
closed ones a whole program without one.  Both conditions are needed.  The pass that
takes placeholders away does not look again at what it has left, and a `$` in front
of a placeholder may get a brace behind it that way; and a placeholder may start in
one block of a program and end in the next.
-/

namespace NodeWeave.Program

open Template

variable {source : List Char → Bool} {kept : Char → Bool} {b : Bounds} {c : Catalog} {g : Graph}
  {limit : Value} {n : Node} {p : Port} {l : Link} {path visited : List Scalar}
  {code text filled : List Char}

/-- What stands behind each `$` of the templates, the values and the ids of a graph
passes a test. -/
structure MadeOf (test : List Char → Bool) (c : Catalog) (g : Graph) : Prop where
  codes : ∀ n ∈ g.nodes, ∀ code ∈ codesOf c n, behind test code = true
  values : ∀ n ∈ g.nodes, ∀ text ∈ valueText? n, behind test text = true
  ids : ∀ n ∈ g.nodes, behind test n.id.display.toList = true

instance (test : List Char → Bool) (c : Catalog) (g : Graph) : Decidable (MadeOf test c g) :=
  decidable_of_iff ((∀ n ∈ g.nodes, ∀ code ∈ codesOf c n, behind test code = true) ∧
      (∀ n ∈ g.nodes, ∀ text ∈ valueText? n, behind test text = true) ∧
      ∀ n ∈ g.nodes, behind test n.id.display.toList = true)
    ⟨fun ⟨codes, values, ids⟩ => ⟨codes, values, ids⟩, fun h => ⟨h.codes, h.values, h.ids⟩⟩

/-- **What stripping makes of a test.**  Sources that pass the test become texts with
a character of a kind behind each `$`, and such texts may be filled in again. -/
structure Tame (source : List Char → Bool) (kept : Char → Bool) : Prop where
  firm : Firm source
  ink : ∀ c, kept c = true → isInk c = true
  weaken : ∀ rest, startsIn kept rest = true → source rest = true
  strip : ∀ text, behind source text = true → behind (startsIn kept) (strip text) = true

theorem tame_steady : Tame startsSteady isInk where
  firm := firm_steady
  ink := fun _ hc => hc
  weaken := fun _ hrest => hrest
  strip := fun _ htext => firm_steady.behind_strip htext

theorem tame_closed : Tame startsClosed (fun c => isInk c && c != '\x7b') where
  firm := firm_closed
  ink := fun _ hc => isInk_of_inert hc
  weaken := fun _ hrest => startsClosed_of_inert hrest
  strip := fun _ htext => isInert_strip htext

/-- A tame test lasts. -/
theorem Tame.lasting (htame : Tame source kept) : Lasting (fun text => behind source text = true)
    (fun text => behind (startsIn kept) text = true) where
  nil := rfl
  substitute := fun hcode htext => htame.firm.behind_substitute hcode htext
  splice := fun hcode hblock =>
    htame.firm.behind_splice htame.ink htame.weaken hcode hblock
  strip := fun htext => htame.strip _ htext
  weaken := fun htext => behind_mono htame.weaken htext

/-- What is left of sources that pass the test. -/
theorem Tame.behind_of_stripped (htame : Tame source kept)
    (htext : ∃ filled, behind source filled = true ∧ text = Template.strip filled) :
    behind (startsIn kept) text = true := by
  obtain ⟨filled, hfilled, rfl⟩ := htext
  exact htame.strip filled hfilled

namespace MadeOf

theorem behind_applyValue (hmade : MadeOf source c g) (hfirm : Firm source) (hn : n ∈ g.nodes)
    (hcode : behind source code = true) : behind source (applyValue n code) = true := by
  rw [applyValue_eq]
  cases hvalue : valueText? n with
  | none => exact hcode
  | some text => exact hfirm.behind_substitute hcode (hmade.values n hn text hvalue)

theorem sources (hmade : MadeOf source c g) :
    SourcesIn (fun text => behind source text = true) c g :=
  ⟨hmade.codes, hmade.values, hmade.ids⟩

end MadeOf

/-- **An expression is a stripped text** that passes the test of its sources. -/
theorem expressionIn_stripped (htame : Tame source kept) (hmade : MadeOf source c g) (room : Nat)
    (hn : n ∈ g.nodes) (htext : expressionIn c g limit room b path n p = .ok text) :
    ∃ filled, behind source filled = true ∧ text = strip filled :=
  expressionIn_draft htame.lasting hmade.sources room hn htext

/-- **A statement is a stripped text** that passes the test of its sources. -/
theorem statementIn_stripped (htame : Tame source kept) (hmade : MadeOf source c g) (room : Nat)
    (hn : n ∈ g.nodes) {r : List Char × List Scalar}
    (hrun : statementIn c g limit room b visited n = .ok r) :
    ∃ filled, behind source filled = true ∧ r.1 = strip filled :=
  statementIn_draft htame.lasting hmade.sources room hn hrun

theorem behind_intercalate (hfirm : Firm source) {separator : List Char} (hseparator : '$' ∉ separator)
    {texts : List (List Char)} (htexts : ∀ text ∈ texts, behind source text = true) :
    behind source (separator.intercalate texts) = true := by
  induction texts with
  | nil => rfl
  | cons text rest ih =>
      have hrest := ih fun other hother => htexts other (List.mem_cons_of_mem text hother)
      have htext := htexts text List.mem_cons_self
      cases rest with
      | nil =>
          rw [List.intercalate_singleton]
          exact htext
      | cons second others =>
          rw [List.intercalate_cons_cons]
          exact hfirm.behind_append (hfirm.behind_append htext (behind_of_not_mem hseparator)) hrest

theorem behind_bodyWithin (htame : Tame source kept) (hmade : MadeOf source c g)
    (hbody : bodyWithin b c g limit = .ok text) : behind (startsIn kept) text = true := by
  obtain ⟨_, texts, htexts, rfl⟩ := bodyWithin_eq_ok.mp hbody
  refine behind_intercalate (firm_startsIn htame.ink) (by simp) fun block hblock => ?_
  exact final_blocksWithin htame.lasting hmade.sources (fun n hn => (List.mem_filter.mp hn).1)
    htexts block (List.mem_filter.mp hblock).1

/-- **No placeholder is left in a program.**  From steady sources come expressions
and statements without one, and from closed sources a whole program without one. -/
theorem placeholders_compiled (hsteady : MadeOf startsSteady c g) (b : Bounds) :
    (∀ n ∈ g.nodes, ∀ p path text, expressionWithin b c g limit path n p = .ok text →
      placeholders text = []) ∧
    (∀ n ∈ g.nodes, ∀ visited text reached,
      statementWithin b c g limit visited n = .ok (text, reached) → placeholders text = []) ∧
    (MadeOf startsClosed c g → ∀ text, bodyWithin b c g limit = .ok text →
      placeholders text = []) := by
  refine ⟨fun n hn p path text htext => ?_, fun n hn visited text reached hrun => ?_,
    fun hclosed text hbody => placeholders_of_inert (behind_bodyWithin tame_closed hclosed hbody)⟩
  · obtain ⟨filled, hfilled, rfl⟩ := expressionIn_stripped tame_steady hsteady _ hn htext
    exact placeholders_strip hfilled
  · obtain ⟨filled, hfilled, heq⟩ := statementIn_stripped tame_steady hsteady _ hn hrun
    rw [show text = strip filled from heq]
    exact placeholders_strip hfilled

/-- A catalog of notes, which have a text, and of steps that say what is written
there. -/
def noteCatalog : Catalog :=
  let port (kind name : String) : Value := .obj [("type", .str kind), ("name", .str name)]
  (Catalog.merge {} (.obj [("nodeCategories", .obj [("text", .obj [("nodes", .obj [
    ("note", .obj [
      ("value", .obj [("type", .str "string"), ("default", .str "$5 each")]),
      ("inputs", .list [port "string" "more"]),
      ("outputs", .list [.obj [("type", .str "string"),
        ("code", .str "'$\x7bvalue\x7d'$\x7bmore\x7d$\x7bless\x7d")]])]),
    ("say", .obj [
      ("inputs", .list [.obj [("type", .str "exec"),
        ("code", .str "say$\x7bnodeId\x7d($\x7bwords\x7d$\x7btone\x7d);\n  $\x7bnext\x7d\n  $\x7belse\x7d")],
        port "string" "words", port "string" "tone"]),
      ("outputs", .list [port "exec" "next"])])])])])])).1

/-- A node of that catalog under an id. -/
def noteNode (type : String) (id : Int) : Node :=
  ((Node.build noteCatalog (.int id) (.str "text") (.str type) (.int 0) (.int 0)).toOption).getD
    default

/-- A note that another one brings to the first of two steps. -/
def noteGraph : Graph :=
  let link (id source target : Int) (place : Int) : Link :=
    ⟨.int id, ⟨.int source, .output, 0⟩, ⟨.int target, .input, place⟩⟩
  { nodes := [noteNode "note" 0, noteNode "note" 1, noteNode "say" 2, noteNode "say" 3]
    links := [link 0 0 1 0, link 1 1 2 1, link 2 2 3 0] }

/-- A `$` in a value is no trouble, and nothing is left of names that nobody
fills in. -/
theorem placeholders_compiled_note :
    MadeOf startsSteady noteCatalog noteGraph ∧ MadeOf startsClosed noteCatalog noteGraph ∧
      ∃ text, bodyWithin Nesting.direct.ofText noteCatalog noteGraph (.int 256) = .ok text ∧
        text = "say2('$5 each''$5 each');\n  say3();".toList ∧ placeholders text = [] := by
  have hsteady : MadeOf startsSteady noteCatalog noteGraph := by decide +kernel
  have hclosed : MadeOf startsClosed noteCatalog noteGraph := by decide +kernel
  have hbody : bodyWithin Nesting.direct.ofText noteCatalog noteGraph (.int 256) =
      .ok "say2('$5 each''$5 each');\n  say3();".toList :=
    eq_ok_of_toOption (by decide +kernel)
  exact ⟨hsteady, hclosed, _, hbody, rfl, (placeholders_compiled hsteady _).2.2 hclosed _ hbody⟩

/-- A catalog whose templates have a `$` too many, or leave a brace open. -/
def gapCatalog : Catalog :=
  let step (code : String) : Value :=
    .obj [("inputs", .list [.obj [("type", .str "exec"), ("code", .str code)]])]
  (Catalog.merge {} (.obj [("nodeCategories", .obj [("text", .obj [("nodes", .obj [
    ("note", .obj [("outputs", .list [.obj [("type", .str "string"),
      ("code", .str "$$\x7bx\x7d\x7by\x7d")]])]),
    ("open", step "open $\x7bdoor"),
    ("close", step "window\x7d")])])])])).1

/-- A node of that catalog under an id. -/
def gapNode (type : String) (id : Int) : Node :=
  ((Node.build gapCatalog (.int id) (.str "text") (.str type) (.int 0) (.int 0)).toOption).getD
    default

/-- **Placeholders that survive.**  Taking away the placeholder of a note makes a new
one from what stood around it, and two steps have one across their blocks. -/
theorem placeholders_survive :
    (expressionWithin Nesting.direct.ofText gapCatalog { nodes := [gapNode "note" 0] } (.int 256) []
      (gapNode "note" 0) (((gapNode "note" 0).ports .output).headD default)).toOption =
        some "$\x7by\x7d".toList ∧
    placeholders "$\x7by\x7d".toList = [['y']] ∧
    ((bodyWithin Nesting.direct.ofText gapCatalog
      { nodes := [gapNode "open" 0, gapNode "close" 1] } (.int 256)).toOption.map placeholders) =
        some ["door\n\nwindow".toList] := by
  decide +kernel

end NodeWeave.Program
