import Mathlib.Data.List.Nodup
import Mathlib.Data.List.Perm.Subperm
import NodeWeave.Catalog.Merge
import NodeWeave.Program.Statement
import NodeWeave.Proofs.ControlFlow
import NodeWeave.Proofs.IndentedText
import NodeWeave.Proofs.LiteralValue

/-!
# Chains of control flow

In a chain each node leads to the next one by its output `next`, and the template of a
node has the placeholder of that output on a line of its own.  The program of a chain
nests each block in the one before it, and so the indentations add up along the chain.

`nested` is the text that is to be expected, and `Row` says what the graph has to do
with it.  One induction along the chain gives the statement of every node on it
(`Row.statementIn_eq`).  Each node lies one step further down than the one before it, and
so bounds set a limit to the length of a chain (`Row.statementIn_tooDeep`).
-/

namespace NodeWeave.Program

open Template

/-- A node of a chain with the parts of its template. -/
structure Stage where
  node : Node
  /-- The text before the line of the placeholder. -/
  head : List Char
  /-- The blanks before the placeholder. -/
  indent : List Char
  /-- The text behind the placeholder. -/
  tail : List Char

namespace Stage

/-- The template of a node that is not the last one. -/
def template (s : Stage) : List Char :=
  s.head ++ '\n' :: (s.indent ++ (placeholder "next".toList ++ s.tail))

/-- There is a text before the placeholder, blanks only stand between them, and there is
no other placeholder. -/
structure Plain (s : Stage) : Prop where
  head_ne : s.head ≠ []
  head : '$' ∉ s.head
  indent : ∀ x ∈ s.indent, isIndent x = true
  tail : '$' ∉ s.tail

instance (s : Stage) : Decidable s.Plain :=
  decidable_of_iff (s.head ≠ [] ∧ '$' ∉ s.head ∧ s.indent.all isIndent = true ∧ '$' ∉ s.tail)
    ⟨fun h => ⟨h.1, h.2.1, List.all_eq_true.mp h.2.2.1, h.2.2.2⟩,
      fun h => ⟨h.head_ne, h.head, List.all_eq_true.mpr h.indent, h.tail⟩⟩

end Stage

/-- **The text of a chain.**  Behind the text of its first node come, on new lines, the
lines of the rest, each behind the indentation of the first node. -/
def nested : List Stage → List Char
  | [] => []
  | [s] => s.head
  | s :: rest => s.head ++ '\n' :: (indented s.indent (nested rest) ++ s.tail)

/-- Each node leads to the next one by its only link, from the output `next`, and the
last one leads nowhere. -/
inductive Row (c : Catalog) (g : Graph) : List Stage → Prop
  | last {s : Stage} (hplain : s.Plain) (hcode : statementTemplate? c s.node = some s.head)
      (hout : g.linksOutOf s.node.id = []) : Row c g [s]
  | next {s t : Stage} {rest : List Stage} {l : Link} {p : Port} (hplain : s.Plain)
      (hcode : statementTemplate? c s.node = some s.template)
      (hout : g.linksOutOf s.node.id = [l]) (hport : g.port? l.source = some p)
      (hexec : p.isExec = true) (hname : p.name = .str "next")
      (hnode : g.node? l.target.node = some t.node) (hrest : Row c g (t :: rest)) :
      Row c g (s :: t :: rest)

/-- **A chain of control flow** that starts at the only entry node.  No node comes twice,
no link feeds a data input, and no node has a value. -/
structure Chain (c : Catalog) (g : Graph) (stages : List Stage) : Prop where
  row : Row c g stages
  distinct : (stages.map fun s => s.node.id.key).Nodup
  entry : entryNodes c g = (stages.head?.map Stage.node).toList
  no_data : ∀ l ∈ g.links, feed? g l = none
  no_values : ∀ s ∈ stages, s.node.slot = none ∨ s.node.value = .null

variable {b : Bounds} {c : Catalog} {g : Graph} {stages : List Stage} {s t : Stage}
  {rest : List Stage} {visited : List Scalar} {room : Nat}

/-! ## The text -/

theorem nested_cons (s t : Stage) (rest : List Stage) :
    nested (s :: t :: rest) =
      s.head ++ '\n' :: (indented s.indent (nested (t :: rest)) ++ s.tail) := rfl

theorem Row.plain (hrow : Row c g stages) (hs : s ∈ stages) : s.Plain := by
  induction hrow with
  | last hplain _ _ => exact List.mem_singleton.mp hs ▸ hplain
  | next hplain _ _ _ _ _ _ _ ih =>
      rcases List.mem_cons.mp hs with heq | hs
      · exact heq ▸ hplain
      · exact ih hs

theorem Row.nested_ne_nil (hrow : Row c g stages) : nested stages ≠ [] := by
  cases hrow with
  | last hplain _ _ => exact hplain.head_ne
  | next hplain _ _ _ _ _ _ _ =>
      rw [nested_cons]
      simp

/-- No `$` is left in the text of a chain. -/
theorem Row.not_mem_nested (hrow : Row c g stages) : '$' ∉ nested stages := by
  induction hrow with
  | last hplain _ _ => exact hplain.head
  | next hplain _ _ _ _ _ _ _ ih =>
      have hblock := not_mem_indented (not_mem_of_isIndent hplain.indent) ih
      rw [nested_cons]
      simp [hplain.head, hblock, hplain.tail]

/-- Indentations in a row have no line break. -/
theorem newline_not_mem_indents (hplain : ∀ s ∈ stages, s.Plain) :
    '\n' ∉ (stages.map Stage.indent).flatten := by
  intro hmem
  obtain ⟨indent, hindent, hbreak⟩ := List.mem_flatten.mp hmem
  obtain ⟨s, hs, rfl⟩ := List.mem_map.mp hindent
  exact newline_not_mem (hplain s hs).indent hbreak

/-- **The lines of a node stand behind the indentations of all nodes before it.** -/
theorem Row.line_of_head (hrow : Row c g stages) {earlier later : List Stage}
    (hsplit : stages = earlier ++ s :: later) :
    ∃ before after, nested stages =
        before ++ (indented (earlier.map Stage.indent).flatten s.head ++ after) ∧
      OpensLine before := by
  induction earlier generalizing stages with
  | nil =>
      rw [List.nil_append] at hsplit
      subst hsplit
      rw [List.map_nil, List.flatten_nil, indented_nil]
      cases later with
      | nil => exact ⟨[], [], by simp [nested], Or.inl rfl⟩
      | cons t rest => exact ⟨[], _, nested_cons s t rest, Or.inl rfl⟩
  | cons first earlier ih =>
      rw [List.cons_append] at hsplit
      subst hsplit
      have hall := fun t ht => hrow.plain (s := t) ht
      -- the node is in the rest of the chain, which is indented as a whole
      obtain ⟨second, rest, hrest⟩ : ∃ second rest, earlier ++ s :: later = second :: rest :=
        List.exists_cons_of_ne_nil (by simp)
      have htail : Row c g (earlier ++ s :: later) := by
        rw [hrest] at hrow ⊢
        cases hrow with
        | next _ _ _ _ _ _ _ htail => exact htail
      obtain ⟨before, after, htext, hopens⟩ := ih htail rfl
      obtain ⟨before', after', hindented, hopens'⟩ := hopens.indented first.indent
        (indented (earlier.map Stage.indent).flatten s.head) after
      have hbreak : '\n' ∉ (earlier.map Stage.indent).flatten :=
        newline_not_mem_indents fun t ht =>
          hall t (List.mem_cons_of_mem first (List.mem_append_left _ ht))
      refine ⟨first.head ++ '\n' :: before', after' ++ first.tail, ?_, hopens'.after_line _⟩
      rw [indented_indented hbreak] at hindented
      rw [hrest, nested_cons, ← hrest, htext, hindented, List.map_cons, List.flatten_cons]
      simp

/-! ## The statements -/

theorem strip_of_not_mem {text : List Char} (htext : '$' ∉ text) : strip text = text := by
  have hinert := isInert_of_not_mem htext
  rw [strip, apply_dropLineRule_of_inert hinert, apply_dropRule_of_inert hinert]

theorem applyId_of_not_mem {text : List Char} (htext : '$' ∉ text) (n : Node) :
    applyId n text = text :=
  substitute_of_inert (isInert_of_not_mem htext) _ _

theorem applyInputs_of_no_data {express : Node → Port → Except Fault (List Char)}
    (hdata : ∀ l ∈ g.links, feed? g l = none) (n : Node) (code : List Char) :
    applyInputs g express n code = .ok code := by
  have hnone : ∀ l ∈ g.linksInto n.id, feed? g l = none := fun l hl =>
    hdata l (List.mem_filter.mp hl).1
  unfold applyInputs
  generalize g.linksInto n.id = links at hnone
  induction links with
  | nil => rfl
  | cons l rest ih =>
      have hfirst : applyLink g express code l = .ok code :=
        applyLink_eq_ok.mpr (Or.inl ⟨hnone l List.mem_cons_self, rfl⟩)
      rw [List.foldlM_cons, hfirst]
      exact ih fun l' hl' => hnone l' (List.mem_cons_of_mem l hl')

/-- A text that the value leaves alone. -/
theorem applyValue_eq_self {code : List Char}
    (hcode : ∀ text, substitute code "value".toList text = code) (n : Node) :
    applyValue n code = code := by
  unfold applyValue
  split
  · exact hcode _
  · rfl

/-- The value has no place in the template of a chain. -/
theorem Stage.Plain.substitute_template (hplain : s.Plain) (text : List Char) :
    substitute s.template "value".toList text = s.template := by
  have hbefore : '$' ∉ s.head ++ '\n' :: s.indent := by
    have hindent := not_mem_of_isIndent hplain.indent
    simp [hplain.head, hindent]
  have hbrace : '\x7d' ∉ "value".toList := by decide
  have hmark : isClosed (placeholder "next".toList) = true :=
    isClosed_placeholder (by decide) (by decide) (by decide)
  have hparts : s.template =
      (s.head ++ '\n' :: s.indent) ++ (placeholder "next".toList ++ s.tail) := by
    simp [template]
  rw [hparts, substitute_append (isClosed_of_inert (isInert_of_not_mem hbefore)) hbrace,
    substitute_of_inert (isInert_of_not_mem hbefore), substitute_append hmark hbrace,
    substitute_placeholder_of_ne (by decide) (by decide) (by decide) (by decide),
    substitute_of_inert (isInert_of_not_mem hplain.tail)]

/-- The nodes of a chain have not been written when the first of them is. -/
theorem onPath_eq_false_of_nodup
    (hnew : ((visited ++ (s :: rest).map fun t => t.node.id).map Scalar.key).Nodup) :
    onPath visited s.node.id = false := by
  rw [Bool.eq_false_iff]
  intro hon
  rw [List.map_append] at hnew
  have hdisjoint := (List.nodup_append.mp hnew).2.2
  exact hdisjoint _ (onPath_iff.mp hon) _ (by simp) rfl

theorem append_visited (visited : List Scalar) (s : Stage) (rest : List Stage) :
    visited ++ [s.node.id] ++ rest.map (fun t => t.node.id) =
      visited ++ (s :: rest).map fun t => t.node.id := by
  simp

/-- A value that is null, or none at all, can be written. -/
theorem fault?_of_no_value {n : Node} (h : n.slot = none ∨ n.value = .null)
    (hslot : n.slot.isSome = true) : b.fault? n.value = none := by
  rcases h with hnone | hnull
  · rw [hnone] at hslot
    cases hslot
  · rw [hnull]
    rfl

/-- A statement where nothing but blocks is filled in, and nothing is left to fill in
after that. -/
theorem statementIn_of_blocks {limit : Value} {n : Node} {code text : List Char}
    {reached : List Scalar} (hdata : ∀ l ∈ g.links, feed? g l = none) (hshows : Shows b n)
    (hfresh : onPath visited n.id = false) (hcode : statementTemplate? c n = some code)
    (hvalue : applyValue n code = code)
    (hflow : (g.linksOutOf n.id).foldlM (applyFlow g fun visited m =>
      b.under 1 fun b => statementIn c g limit room b visited m)
      (code, visited ++ [n.id]) = .ok (text, reached))
    (htext : '$' ∉ text) :
    statementIn c g limit (room + 1) b visited n = .ok (text, reached) := by
  refine (statementIn_eq_ok hfresh).mpr
    (Or.inr ⟨code, code, (text, reached), hcode, hshows, ?_, hflow, ?_⟩)
  · rw [hvalue]
    exact applyInputs_of_no_data hdata n code
  · rw [applyId_of_not_mem htext, strip_of_not_mem htext]

/-- What a chain shows can be written, and there is a step for each node behind the
first. -/
structure Row.Fits (b : Bounds) (s : Stage) (rest : List Stage) : Prop where
  values : ∀ t ∈ s :: rest, t.node.slot = none ∨ t.node.value = .null
  ids : ∀ t ∈ s :: rest, b.writes t.node.id = true
  depth : ∀ depth, b.depth = some depth → rest.length ≤ depth

theorem Row.Fits.shows (hfits : Row.Fits b s rest) : Shows b s.node :=
  ⟨fault?_of_no_value (hfits.values s List.mem_cons_self), hfits.ids s List.mem_cons_self⟩

theorem Row.Fits.step (hfits : Row.Fits b s (t :: rest)) :
    ∃ below, b.below 1 = .ok below ∧ Row.Fits below t rest := by
  obtain ⟨below, hbelow, hdigits, hdepth⟩ := Bounds.below_of_le b 1
    fun depth hb => Nat.le_trans (Nat.le_add_left 1 rest.length) (hfits.depth depth hb)
  refine ⟨below, hbelow, fun t' ht' => hfits.values t' (List.mem_cons_of_mem s ht'),
    fun t' ht' => ?_, fun depth hb => ?_⟩
  · rw [Bounds.writes, hdigits]
    exact hfits.ids t' (List.mem_cons_of_mem s ht')
  · have hle := hfits.depth _ ((Bounds.below_eq_ok hbelow).2 depth hb)
    rw [List.length_cons] at hle
    omega

/-- **The statement of a node of a chain** is the text of the chain from there on. -/
theorem Row.statementIn_eq (hrow : Row c g (s :: rest)) (limit : Value)
    (hdata : ∀ l ∈ g.links, feed? g l = none) (hfits : Row.Fits b s rest)
    (hroom : rest.length < room)
    (hnew : ((visited ++ (s :: rest).map fun t => t.node.id).map Scalar.key).Nodup) :
    statementIn c g limit room b visited s.node =
      .ok (nested (s :: rest), visited ++ (s :: rest).map fun t => t.node.id) := by
  induction rest generalizing b s visited room with
  | nil =>
      obtain ⟨less, rfl⟩ : ∃ less, room = less + 1 := ⟨room - 1, by omega⟩
      cases hrow with
      | last hplain hcode hout =>
          refine statementIn_of_blocks hdata hfits.shows (onPath_eq_false_of_nodup hnew) hcode ?_ ?_
            hplain.head
          · exact applyValue_eq_self (substitute_of_inert (isInert_of_not_mem hplain.head) _) _
          · rw [hout]
            rfl
  | cons t rest ih =>
      rw [List.length_cons] at hroom
      obtain ⟨less, rfl⟩ : ∃ less, room = less + 1 := ⟨room - 1, by omega⟩
      have htext := hrow.not_mem_nested
      have hfresh := onPath_eq_false_of_nodup hnew
      obtain ⟨below, hbelow, hfitsBelow⟩ := hfits.step
      rw [← append_visited] at hnew ⊢
      cases hrow with
      | next hplain hcode hout hport hexec hname hnode hrest =>
          have hblock : (b.under 1 fun b =>
              statementIn c g limit less b (visited ++ [s.node.id]) t.node) = .ok _ :=
            Bounds.under_eq_ok.mpr
              ⟨below, hbelow, ih hrest hfitsBelow (by omega : rest.length < less) hnew⟩
          have hsplice : splice s.template "next".toList (nested (t :: rest)) =
              nested (s :: t :: rest) :=
            splice_line hplain.head hplain.indent hplain.tail hrest.nested_ne_nil
          refine statementIn_of_blocks hdata hfits.shows hfresh hcode
            (applyValue_eq_self hplain.substitute_template _) ?_ htext
          rw [hout, List.foldlM_cons, applyFlow_eq_ok.mpr (Or.inr ⟨_, _, _, _, _,
            follow?_eq_some.mpr ⟨hport, hexec, hnode⟩, hblock,
            applyNamed_eq_ok.mpr (Or.inr ⟨"next", hname, hsplice.symm⟩), rfl⟩)]
          rfl

/-- A statement fails where the block that its only link leads to does. -/
theorem statementIn_of_failing_block {limit : Value} {n m : Node} {code : List Char} {l : Link}
    {p : Port} {fault : Fault} (hdata : ∀ l ∈ g.links, feed? g l = none)
    (hvalue : n.slot = none ∨ n.value = .null) (hfresh : onPath visited n.id = false)
    (hcode : statementTemplate? c n = some code) (hout : g.linksOutOf n.id = [l])
    (hfollow : follow? g l = some (p, m))
    (hfault : (b.under 1 fun b => statementIn c g limit room b (visited ++ [n.id]) m) =
      .error fault) : statementIn c g limit (room + 1) b visited n = .error fault := by
  have hflow : ∀ code, applyFlow g (fun visited m =>
      b.under 1 fun b => statementIn c g limit room b visited m) (code, visited ++ [n.id]) l =
        .error fault := by
    intro code
    simp only [applyFlow, hfollow, hfault, bind, Except.bind]
  rw [statementIn, if_neg (by simp [hfresh]), hcode]
  simp only [fillValue_eq_ok.mpr ⟨fault?_of_no_value hvalue, rfl⟩, bind, Except.bind,
    applyInputs_of_no_data hdata, hout, List.foldlM_cons, hflow]

/-- **A chain that is too long** for its bounds has no statement. -/
theorem Row.statementIn_tooDeep (hrow : Row c g (s :: rest)) (limit : Value)
    (hdata : ∀ l ∈ g.links, feed? g l = none)
    (hvalues : ∀ t ∈ s :: rest, t.node.slot = none ∨ t.node.value = .null) {depth : Nat}
    (hdepth : b.depth = some depth) (hlong : depth < rest.length) (hroom : rest.length < room)
    (hnew : ((visited ++ (s :: rest).map fun t => t.node.id).map Scalar.key).Nodup) :
    statementIn c g limit room b visited s.node = .error .tooDeep := by
  induction rest generalizing b depth s visited room with
  | nil => cases hlong
  | cons t rest ih =>
      rw [List.length_cons] at hlong hroom
      obtain ⟨less, rfl⟩ : ∃ less, room = less + 1 := ⟨room - 1, by omega⟩
      have hfresh := onPath_eq_false_of_nodup hnew
      rw [← append_visited] at hnew
      cases hrow with
      | next _ hcode hout hport hexec _ hnode hrest =>
          refine statementIn_of_failing_block hdata (hvalues s List.mem_cons_self) hfresh hcode hout
            (follow?_eq_some.mpr ⟨hport, hexec, hnode⟩) ?_
          cases depth with
          | zero => simp only [Bounds.under, Bounds.below, hdepth, bind, Except.bind]; rfl
          | succ depth =>
              obtain ⟨below, hbelow, _, hless⟩ := Bounds.below_of_le b 1
                fun depth hb => by
                  cases hdepth.symm.trans hb
                  omega
              have hblock := ih hrest (fun t' ht' => hvalues t' (List.mem_cons_of_mem s ht'))
                (hless _ hdepth) (by omega) (by omega : rest.length < less) hnew
              simp only [Bounds.under, hbelow, bind, Except.bind, hblock]

/-! ## Programs -/

theorem Row.mem_nodes (hrow : Row c g (s :: rest)) (ht : t ∈ rest) : t.node ∈ g.nodes := by
  induction rest generalizing s with
  | nil => cases ht
  | cons first rest ih =>
      cases hrow with
      | next _ _ _ _ _ _ hnode hrest =>
          rcases List.mem_cons.mp ht with rfl | ht
          · exact Graph.node?_mem hnode
          · exact ih hrest ht

namespace Chain

/-- A chain has a first node, and there the program starts. -/
theorem exists_first (hchain : Chain c g stages) :
    ∃ s rest, stages = s :: rest ∧ entryNodes c g = [s.node] := by
  have hentry := hchain.entry
  cases hchain.row with
  | last => exact ⟨_, _, rfl, hentry⟩
  | next => exact ⟨_, _, rfl, hentry⟩

/-- A chain is no longer than the graph has nodes. -/
theorem length_le (hchain : Chain c g stages) : stages.length ≤ g.nodes.length := by
  obtain ⟨s, rest, rfl, hentry⟩ := hchain.exists_first
  have hmem : ∀ t ∈ s :: rest, t.node ∈ g.nodes := by
    intro t ht
    rcases List.mem_cons.mp ht with rfl | ht
    · have hfirst : t.node ∈ entryNodes c g := by
        rw [hentry]
        exact List.mem_singleton_self _
      exact (List.mem_filter.mp hfirst).1
    · exact hchain.row.mem_nodes ht
  have hkeys : ((s :: rest).map fun t => t.node.id.key) ⊆ g.nodes.map fun n => n.id.key := by
    intro key hkey
    obtain ⟨t, ht, rfl⟩ := List.mem_map.mp hkey
    exact List.mem_map_of_mem (hmem t ht)
  have hlength := (hchain.distinct.subperm hkeys).length_le
  simpa only [List.length_map] using hlength

/-- There is room for the blocks of a whole chain. -/
theorem length_lt_room (hchain : Chain c g (s :: rest)) : rest.length < g.nodes.length + 1 := by
  have hlength := hchain.length_le
  rw [List.length_cons] at hlength
  omega

theorem nodup_ids (hchain : Chain c g stages) :
    (([] ++ stages.map fun (s : Stage) => s.node.id).map Scalar.key).Nodup := by
  rw [List.nil_append, List.map_map]
  exact hchain.distinct

/-- **The program of a chain** is its text, as long as it fits. -/
theorem bodyWithin_eq (hchain : Chain c g stages) (limit : Value)
    (hids : ∀ s ∈ stages, b.writes s.node.id = true)
    (hdepth : ∀ depth, b.depth = some depth → stages.length ≤ depth + 1) :
    bodyWithin b c g limit = .ok (nested stages) := by
  obtain ⟨s, rest, rfl, hentry⟩ := hchain.exists_first
  have hfits : Row.Fits b s rest :=
    ⟨hchain.no_values, hids, fun depth hb => Nat.le_of_succ_le_succ (hdepth depth hb)⟩
  have hstatement := hchain.row.statementIn_eq limit hchain.no_data hfits hchain.length_lt_room
    hchain.nodup_ids
  refine bodyWithin_eq_ok.mpr ⟨by simp [hentry], [nested (s :: rest)], ?_, ?_⟩
  · rw [hentry]
    exact blocksWithin_cons_eq_ok.mpr ⟨_, _, [], hstatement, rfl, rfl⟩
  · simp [hchain.row.nested_ne_nil, List.intercalate]

/-- A chain that does not fit has no program. -/
theorem bodyWithin_tooDeep (hchain : Chain c g stages) (limit : Value) {depth : Nat}
    (hdepth : b.depth = some depth) (hlong : depth + 1 < stages.length) :
    bodyWithin b c g limit = .error .tooDeep := by
  obtain ⟨s, rest, rfl, hentry⟩ := hchain.exists_first
  have hstatement := hchain.row.statementIn_tooDeep limit hchain.no_data hchain.no_values hdepth
    (Nat.lt_of_succ_lt_succ hlong) hchain.length_lt_room hchain.nodup_ids
  simp only [bodyWithin, hentry, blocksWithin, statementWithin, hstatement, bind, Except.bind]

end Chain

/-- **Indentations add up along a chain of any length.**  The program of a chain is the
text that nests the blocks of its nodes in each other, and each line of a node stands
there behind the indentations of all nodes before it.  Where the ids of the nodes can be
written, this program is given if the chain has at most one node more than there is room
for steps, and no program is given otherwise. -/
theorem body_of_chain (hchain : Chain c g stages) (limit : Value) :
    body c g limit = .ok (nested stages) ∧
    (∀ earlier s later, stages = earlier ++ s :: later →
      ∃ before after, nested stages =
          before ++ (indented (earlier.map Stage.indent).flatten s.head ++ after) ∧
        OpensLine before) ∧
    ((∀ s ∈ stages, s.node.id.isWritable = true) → ∀ nesting : Nesting,
      bodyWithin nesting.ofText c g limit =
        if stages.length ≤ nesting.text + 1 then .ok (nested stages) else .error .tooDeep) := by
  refine ⟨hchain.bodyWithin_eq limit (fun _ _ => rfl) nofun, ?_, fun hids nesting => ?_⟩
  · intro earlier s later hsplit
    exact hchain.row.line_of_head hsplit
  · split
    · rename_i hle
      refine hchain.bodyWithin_eq limit (fun s hs => hids s hs) fun depth hb => ?_
      cases hb
      exact hle
    · rename_i hlong
      exact hchain.bodyWithin_tooDeep limit rfl (Nat.lt_of_not_le hlong)

/-! ## Ladders -/

/-- The id of a rung. -/
def rungId (i : Nat) : Scalar :=
  .int i

/-- A side with one port for control flow. -/
def flowPort (side : Side) (name : Value) : Port.Row side :=
  .seated side [{ (default : Port) with kind := Kind.exec, name }]

/-- A node of a ladder with a number of steps: a step, or the stop behind the last one. -/
def rung (steps i : Nat) : Node :=
  { (default : Node) with
    id := rungId i
    category := .text "flow"
    type := if i < steps then "step" else "stop"
    inputs := flowPort .input .null
    outputs := flowPort .output (.str "next") }

/-- The link from a rung to the next one. -/
def rungLink (i : Nat) : Link :=
  ⟨rungId i, ⟨rungId i, .output, 0⟩, ⟨rungId (i + 1), .input, 0⟩⟩

/-- Steps one after the other, and a stop. -/
def ladder (steps : Nat) : Graph :=
  { nodes := (List.range (steps + 1)).map (rung steps)
    links := (List.range steps).map rungLink }

/-- A rung with the parts of its template, which are those of a step or of a stop. -/
def rungStage (step stop : Stage) (steps i : Nat) : Stage :=
  if i < steps then { step with node := rung steps i } else { stop with node := rung steps i }

section Ladder

variable {steps i : Nat} {step stop : Stage}

theorem rungStage_node : (rungStage step stop steps i).node = rung steps i := by
  unfold rungStage
  split <;> rfl

theorem rungId_key_inj {j : Nat} : (rungId i).key = (rungId j).key ↔ i = j := by
  simp only [rungId, Scalar.key, Key.whole.injEq]
  exact Int.natCast_inj

theorem rungId_same (i j : Nat) : (rungId i).same (rungId j) = (i == j) := by
  rw [Bool.eq_iff_iff, Scalar.same_iff, rungId_key_inj, beq_iff_eq]

theorem nodup_rung_keys (count : Nat) : ((List.range count).map fun i => (rungId i).key).Nodup :=
  List.nodup_range.map fun _ _ hkeys => rungId_key_inj.mp hkeys

theorem ladder_node? (hi : i ≤ steps) :
    (ladder steps).node? (rungId i) = some (rung steps i) := by
  have hids : (ladder steps).DistinctIds := by
    unfold Graph.DistinctIds ladder
    rw [List.map_map]
    exact nodup_rung_keys (steps + 1)
  have hmem : rung steps i ∈ (ladder steps).nodes :=
    List.mem_map_of_mem (List.mem_range.mpr (by omega))
  exact hids.node?_of_mem hmem

theorem ladder_input (hi : i ≤ steps) :
    (ladder steps).port? ⟨rungId i, .input, 0⟩ = (flowPort .input .null).ports.head? := by
  simp only [Graph.port?, ladder_node? hi, Option.bind_some]
  rfl

theorem ladder_output (hi : i ≤ steps) :
    (ladder steps).port? ⟨rungId i, .output, 0⟩ =
      (flowPort .output (.str "next")).ports.head? := by
  simp only [Graph.port?, ladder_node? hi, Option.bind_some]
  rfl

/-- One link starts at each step, and none at the stop. -/
theorem ladder_linksOutOf :
    (ladder steps).linksOutOf (rungId i) = if i < steps then [rungLink i] else [] := by
  have hsame : (fun l : Link => l.source.node.same (rungId i)) ∘ rungLink = fun j => j == i := by
    funext j
    exact rungId_same j i
  rw [Graph.linksOutOf, ladder, List.filter_map, hsame, List.filter_beq, List.count_range]
  split <;> rfl

/-- All rungs but the first are reached. -/
theorem isReached_rung (hi : i ≤ steps) : isReached (ladder steps) (rung steps i) = !(i == 0) := by
  rw [Bool.eq_iff_iff, isReached, List.any_eq_true]
  constructor
  · intro hreached
    obtain ⟨l, hl, _⟩ := hreached
    obtain ⟨hlink, hsame⟩ := List.mem_filter.mp hl
    obtain ⟨j, _, rfl⟩ := List.mem_map.mp hlink
    have hid : j + 1 = i := rungId_key_inj.mp (Scalar.same_iff.mp hsame)
    simp [← hid]
  · intro hpos
    obtain ⟨j, rfl⟩ : ∃ j, i = j + 1 := Nat.exists_eq_succ_of_ne_zero (by simpa using hpos)
    refine ⟨rungLink j, List.mem_filter.mpr ⟨?_, ?_⟩, ?_⟩
    · exact List.mem_map_of_mem (List.mem_range.mpr (by omega))
    · exact Scalar.same_iff.mpr rfl
    · rw [rungLink, ladder_input hi]
      rfl

theorem feed?_ladder {l : Link} (hl : l ∈ (ladder steps).links) :
    feed? (ladder steps) l = none := by
  obtain ⟨i, hi, rfl⟩ := List.mem_map.mp hl
  have hinput := ladder_input (i := i + 1) (List.mem_range.mp hi)
  simp [feed?_eq_none, rungLink, hinput, flowPort, Port.Row.seated, Port.isExec, Kind.isExec]

/-- A node with a template has an input for control flow. -/
theorem execInput_of_statementTemplate {n : Node} (h : (statementTemplate? c n).isSome) :
    ((typeOf c n).bind NodeType.execInput).isSome = true := by
  obtain ⟨code, hcode⟩ := Option.isSome_iff_exists.mp h
  obtain ⟨t, htype, hrest⟩ := Option.bind_eq_some_iff.mp hcode
  obtain ⟨d, hinput, _⟩ := Option.bind_eq_some_iff.mp hrest
  rw [htype, Option.bind_some, hinput]
  rfl

/-- The template of a rung depends on its type only. -/
theorem statementTemplate?_rung :
    statementTemplate? c (rung steps i) =
      if i < steps then statementTemplate? c (rung 1 0) else statementTemplate? c (rung 0 0) := by
  by_cases hi : i < steps <;> simp [statementTemplate?, typeOf, rung, hi]

theorem entryNodes_ladder (hcode : (statementTemplate? c (rung 1 0)).isSome)
    (hlast : (statementTemplate? c (rung 0 0)).isSome) :
    entryNodes c (ladder steps) = [rung steps 0] := by
  have hentry : ∀ i ∈ List.range (steps + 1),
      ((fun n => ((typeOf c n).bind NodeType.execInput).isSome && !isReached (ladder steps) n) ∘
        rung steps) i = (i == 0) := by
    intro i hi
    have htemplate : (statementTemplate? c (rung steps i)).isSome := by
      rw [statementTemplate?_rung]
      split
      · exact hcode
      · exact hlast
    have hexec := execInput_of_statementTemplate htemplate
    have hreached := isReached_rung (Nat.lt_succ_iff.mp (List.mem_range.mp hi))
    rw [Function.comp_apply, hexec, hreached, Bool.true_and, Bool.not_not]
  have hfirst : (List.range (steps + 1)).filter (fun i => i == 0) = [0] := by
    rw [List.filter_beq, List.count_range, if_pos (Nat.succ_pos steps)]
    rfl
  unfold entryNodes
  rw [show (ladder steps).nodes = (List.range (steps + 1)).map (rung steps) from rfl,
    List.filter_map, List.filter_congr hentry, hfirst]
  rfl

/-- **The rungs of a ladder from one of them on** are a row. -/
theorem row_rungs (hstep : step.Plain) (hstop : stop.Plain)
    (hcode : statementTemplate? c (rung 1 0) = some step.template)
    (hlast : statementTemplate? c (rung 0 0) = some stop.head) {above : Nat}
    (hsteps : i + above = steps) :
    Row c (ladder steps) ((List.range' i (above + 1)).map (rungStage step stop steps)) := by
  induction above generalizing i with
  | zero =>
      have hi : ¬ i < steps := by omega
      have hstage : rungStage step stop steps i = { stop with node := rung steps i } := if_neg hi
      have hplain : (rungStage step stop steps i).Plain :=
        hstage ▸ ⟨hstop.head_ne, hstop.head, hstop.indent, hstop.tail⟩
      refine Row.last hplain ?_ ?_
      · rw [hstage, statementTemplate?_rung, if_neg hi, hlast]
      · rw [hstage]
        exact ladder_linksOutOf.trans (if_neg hi)
  | succ above ih =>
      have hi : i < steps := by omega
      have hstage : rungStage step stop steps i = { step with node := rung steps i } := if_pos hi
      have hplain : (rungStage step stop steps i).Plain :=
        hstage ▸ ⟨hstep.head_ne, hstep.head, hstep.indent, hstep.tail⟩
      have hrest := ih (i := i + 1) (by omega)
      rw [List.range'_succ, List.map_cons] at hrest ⊢
      have hport : (ladder steps).port? (rungLink i).source =
          (flowPort .output (.str "next")).ports.head? := ladder_output (Nat.le_of_lt hi)
      refine Row.next hplain ?_ ?_ hport rfl rfl ?_ hrest
      · rw [hstage, statementTemplate?_rung, if_pos hi, hcode]
        rfl
      · rw [hstage]
        exact ladder_linksOutOf.trans (if_pos hi)
      · rw [rungStage_node]
        exact ladder_node? hi

/-- **A ladder is a chain.** -/
theorem chain_ladder (hstep : step.Plain) (hstop : stop.Plain)
    (hcode : statementTemplate? c (rung 1 0) = some step.template)
    (hlast : statementTemplate? c (rung 0 0) = some stop.head) (steps : Nat) :
    Chain c (ladder steps) ((List.range (steps + 1)).map (rungStage step stop steps)) where
  row := by
    rw [List.range_eq_range']
    exact row_rungs hstep hstop hcode hlast (Nat.zero_add steps)
  distinct := by
    rw [List.map_map]
    simp only [Function.comp_def, rungStage_node]
    exact nodup_rung_keys (steps + 1)
  entry := by
    rw [entryNodes_ladder (by rw [hcode]; rfl) (by rw [hlast]; rfl), List.range_succ_eq_map]
    simp [rungStage_node]
  no_data := fun _ hl => feed?_ladder hl
  no_values := by
    intro s hs
    obtain ⟨i, _, rfl⟩ := List.mem_map.mp hs
    rw [rungStage_node]
    exact Or.inl rfl

theorem isWritable_rungStage (hsteps : steps < 1000) {s : Stage}
    (hs : s ∈ (List.range (steps + 1)).map (rungStage step stop steps)) :
    s.node.id.isWritable = true := by
  obtain ⟨i, hi, rfl⟩ := List.mem_map.mp hs
  have hlt := List.mem_range.mp hi
  have hthousand : Number.isWritable 1000 = true := by decide +kernel
  rw [rungStage_node]
  exact Number.isWritable_of_le (by omega : ((i : Int)).natAbs ≤ (1000 : Int).natAbs) hthousand

end Ladder

/-- A catalog with the templates of a step and of a stop. -/
def ladderCatalog (step stop : Stage) : Catalog :=
  let type (code : List Char) : Value := .obj [
    ("inputs", .list [.obj [("type", .str "exec"), ("code", .str (String.ofList code))]]),
    ("outputs", .list [.obj [("type", .str "exec"), ("name", .str "next")]])]
  (Catalog.merge {} (.obj [("nodeCategories", .obj [("flow", .obj [("nodes", .obj [
    ("step", type step.template), ("stop", type stop.head)])])])])).1

/-- A step that holds its block between two lines. -/
def framed : Stage :=
  ⟨rung 1 0, "begin".toList, "\t ".toList, "\nend".toList⟩

/-- A step that is one line before its block. -/
def oneLine : Stage :=
  ⟨rung 1 0, "step".toList, [], []⟩

/-- A stop of two lines. -/
def twoLines : Stage :=
  ⟨rung 0 0, "one\ntwo".toList, [], []⟩

/-- Two steps in each other indent both lines of the stop twice, and there is a program
if a call may be made in a call. -/
theorem body_of_chain_framed :
    let stages := (List.range 3).map (rungStage framed twoLines 2)
    Chain (ladderCatalog framed twoLines) (ladder 2) stages ∧
    body (ladderCatalog framed twoLines) (ladder 2) (.int 256) =
      .ok "begin\n\t begin\n\t \t one\n\t \t two\n\t end\nend".toList ∧
    (∃ before after, nested stages =
        before ++ (indented "\t \t ".toList "one\ntwo".toList ++ after) ∧ OpensLine before) ∧
    bodyWithin Nesting.direct.ofText (ladderCatalog framed twoLines) (ladder 2) (.int 256) =
      .ok (nested stages) := by
  intro stages
  have hchain : Chain (ladderCatalog framed twoLines) (ladder 2) stages :=
    chain_ladder (by decide) (by decide) (by decide +kernel) (by decide +kernel) 2
  obtain ⟨hbody, hlines, hchecked⟩ := body_of_chain hchain (.int 256)
  have htext : nested stages =
      "begin\n\t begin\n\t \t one\n\t \t two\n\t end\nend".toList := by decide +kernel
  refine ⟨hchain, hbody.trans (by rw [htext]), ?_, ?_⟩
  · exact hlines [rungStage framed twoLines 2 0, rungStage framed twoLines 2 1]
      (rungStage framed twoLines 2 2) [] rfl
  · rw [hchecked (fun s hs => isWritable_rungStage (by decide) hs) .direct]
    exact if_pos (by decide)

/-- A chain of a thousand nodes has a text, but no program is given for it. -/
theorem body_of_long_chain_tooDeep :
    let stages := (List.range 1000).map (rungStage oneLine twoLines 999)
    Chain (ladderCatalog oneLine twoLines) (ladder 999) stages ∧
    (∀ s ∈ stages, s.node.id.isWritable = true) ∧
    bodyWithin Nesting.direct.ofText (ladderCatalog oneLine twoLines) (ladder 999) (.int 256) =
      .error .tooDeep := by
  intro stages
  have hchain : Chain (ladderCatalog oneLine twoLines) (ladder 999) stages :=
    chain_ladder (by decide) (by decide) (by decide +kernel) (by decide +kernel) 999
  have hids : ∀ s ∈ stages, s.node.id.isWritable = true := fun s hs =>
    isWritable_rungStage (by decide) hs
  have hlength : stages.length = 1000 := by
    rw [List.length_map, List.length_range]
  refine ⟨hchain, hids, hchain.bodyWithin_tooDeep (.int 256) rfl ?_⟩
  rw [hlength]
  decide

end NodeWeave.Program
