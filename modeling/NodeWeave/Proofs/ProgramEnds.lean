import NodeWeave.Proofs.Headroom

/-!
# A program is made in finitely many steps

The rules by which a program is made are stated here once more, as relations between
a call and its answer: `Expresses` for the expression of an output, `Writes` for the
statement of a node, `Lists` for the blocks of the entry nodes and `Generates` for
the whole program.  There is no room in them that could run out.  A call has an answer
when the calls it makes have one, and the number of a relation bounds how far calls
are nested in each other.

What the functions give with room for any number of steps is an answer by the rules
(`generates`), and the bound does not depend on the limit: no node is used in its own
expression and none is written twice, so expressions and statements are nested no
further than the graph has nodes.  Together with what can go wrong on the way
(`sourceWithin_eq_error`) this says how the making of a program ends.
-/

namespace NodeWeave.Program

section Rules

variable (b : Bounds) (c : Catalog) (g : Graph) (d : Int)

mutual

/-- The answer for an output that is used by the nodes on a path. -/
inductive Expresses : Nat → List Scalar → Node → Port → Except Fault (List Char) → Prop
  | again {k path p} {n : Node} (hon : onPath path n.id = true) :
      Expresses (k + 1) path n p (.error (cycleFault b path n.id))
  | full {k path p} {n : Node} (hnew : onPath path n.id = false) (hfull : d ≤ path.length) :
      Expresses (k + 1) path n p (.error (limitFault b (.int d) (path ++ [n.id])))
  | blank {k path p} {n : Node} (hnew : onPath path n.id = false) (hroom : path.length < d)
      (hnone : outputTemplate? c n p = none) :
      Expresses (k + 1) path n p (.ok [])
  | unwritten {k path p code fault} {n : Node} (hnew : onPath path n.id = false)
      (hroom : path.length < d) (hcode : outputTemplate? c n p = some code)
      (hvalue : fillValue b n code = .error fault) :
      Expresses (k + 1) path n p (.error fault)
  | made {k path p code valued answer} {n : Node} (hnew : onPath path n.id = false)
      (hroom : path.length < d) (hcode : outputTemplate? c n p = some code)
      (hvalue : fillValue b n code = .ok valued)
      (hfills : Fills k (path ++ [n.id]) (g.linksInto n.id) valued answer) :
      Expresses (k + 1) path n p
        (answer.bind fun filled => (fillId b n filled).map Template.strip)

/-- The answer for a template into which some links lead, one after the other. -/
inductive Fills : Nat → List Scalar → List Link → List Char → Except Fault (List Char) → Prop
  | done {k path code} : Fills k path [] code (.ok code)
  | idle {k path l rest code answer} (hnone : feed? g l = none)
      (hrest : Fills k path rest code answer) :
      Fills k path (l :: rest) code answer
  | fails {k path l rest code input producer output fault}
      (hfeed : feed? g l = some (input, producer, output))
      (hexpress : Expresses k path producer output (.error fault)) :
      Fills k path (l :: rest) code (.error fault)
  | unnamed {k path l rest code text producer output fault} {input : Port}
      (hfeed : feed? g l = some (input, producer, output))
      (hexpress : Expresses k path producer output (.ok text))
      (hname : applyNamed Template.substitute input.name code text = .error fault) :
      Fills k path (l :: rest) code (.error fault)
  | filled {k path l rest code text filled producer output answer} {input : Port}
      (hfeed : feed? g l = some (input, producer, output))
      (hexpress : Expresses k path producer output (.ok text))
      (hname : applyNamed Template.substitute input.name code text = .ok filled)
      (hrest : Fills k path rest filled answer) :
      Fills k path (l :: rest) code answer

end

mutual

/-- The answer for a node, with the nodes written before and after it. -/
inductive Writes : Nat → List Scalar → Node → Except Fault (List Char × List Scalar) → Prop
  | again {k visited} {n : Node} (hold : onPath visited n.id = true) :
      Writes (k + 1) visited n (.ok ([], visited))
  | blank {k visited} {n : Node} (hnew : onPath visited n.id = false)
      (hnone : statementTemplate? c n = none) :
      Writes (k + 1) visited n (.ok ([], visited ++ [n.id]))
  | unwritten {k visited code fault} {n : Node} (hnew : onPath visited n.id = false)
      (hcode : statementTemplate? c n = some code)
      (hvalue : fillValue b n code = .error fault) :
      Writes (k + 1) visited n (.error fault)
  | fails {k visited code valued fault} {n : Node} (hnew : onPath visited n.id = false)
      (hcode : statementTemplate? c n = some code) (hvalue : fillValue b n code = .ok valued)
      (hfills : Fills b c g d k [] (g.linksInto n.id) valued (.error fault)) :
      Writes (k + 1) visited n (.error fault)
  | made {k visited code valued filled answer} {n : Node} (hnew : onPath visited n.id = false)
      (hcode : statementTemplate? c n = some code) (hvalue : fillValue b n code = .ok valued)
      (hfills : Fills b c g d k [] (g.linksInto n.id) valued (.ok filled))
      (hfollows : Follows k (g.linksOutOf n.id) (filled, visited ++ [n.id]) answer) :
      Writes (k + 1) visited n
        (answer.bind fun s => (fillId b n s.1).map fun text => (Template.strip text, s.2))

/-- The answer for a template from which some links lead on, one after the other. -/
inductive Follows : Nat → List Link → List Char × List Scalar →
    Except Fault (List Char × List Scalar) → Prop
  | done {k s} : Follows k [] s (.ok s)
  | idle {k l rest s answer} (hnone : follow? g l = none) (hrest : Follows k rest s answer) :
      Follows k (l :: rest) s answer
  | fails {k l rest output target fault} {s : List Char × List Scalar}
      (hfollow : follow? g l = some (output, target))
      (hwrites : Writes k s.2 target (.error fault)) :
      Follows k (l :: rest) s (.error fault)
  | unnamed {k l rest target block reached fault} {s : List Char × List Scalar} {output : Port}
      (hfollow : follow? g l = some (output, target))
      (hwrites : Writes k s.2 target (.ok (block, reached)))
      (hname : applyNamed Template.splice output.name s.1 block = .error fault) :
      Follows k (l :: rest) s (.error fault)
  | placed {k l rest target block reached filled answer} {s : List Char × List Scalar}
      {output : Port} (hfollow : follow? g l = some (output, target))
      (hwrites : Writes k s.2 target (.ok (block, reached)))
      (hname : applyNamed Template.splice output.name s.1 block = .ok filled)
      (hrest : Follows k rest (filled, reached) answer) :
      Follows k (l :: rest) s answer

end

/-- The answer for the blocks of some nodes. -/
inductive Lists : Nat → List Scalar → List Node → Except Fault (List (List Char)) → Prop
  | done {k visited} : Lists k visited [] (.ok [])
  | fails {k visited n rest fault} (hwrites : Writes b c g d k visited n (.error fault)) :
      Lists k visited (n :: rest) (.error fault)
  | next {k visited reached n rest block answer}
      (hwrites : Writes b c g d k visited n (.ok (block, reached)))
      (hrest : Lists k reached rest answer) :
      Lists k visited (n :: rest) (answer.map fun others => block :: others)

/-- The answer for a whole program. -/
inductive Generates (now : Moment) : Nat → Except Fault String → Prop
  | idle {k} (hnone : entryNodes c g = []) : Generates now k (.error .noEntryPoint)
  | fails {k fault} (hsome : entryNodes c g ≠ [])
      (hlists : Lists b c g d k [] (entryNodes c g) (.error fault)) :
      Generates now k (.error fault)
  | made {k texts} (hsome : entryNodes c g ≠ [])
      (hlists : Lists b c g d k [] (entryNodes c g) (.ok texts)) :
      Generates now k ((b.check c.style.commentStyle).bind fun _ =>
        (now.header c.style.commentStyle).map fun header =>
          header ++ String.ofList (['\n', '\n'].intercalate (texts.filter fun b => !b.isEmpty)))

end Rules

variable {b : Bounds} {c : Catalog} {g : Graph} {limit : Value} {d : Int} {n : Node} {p : Port}
  {k room : Nat} {path visited : List Scalar} {fault : Fault}

/-! ## Expressions -/

theorem fills_foldlM {express : Node → Port → Except Fault (List Char)}
    (hcalls : ∀ m ∈ g.nodes, ∀ q, Expresses b c g d k path m q (express m q)) (links : List Link)
    (code : List Char) : Fills b c g d k path links code (links.foldlM (applyLink g express) code) := by
  induction links generalizing code with
  | nil => exact .done
  | cons l rest ih =>
      rw [List.foldlM_cons]
      unfold applyLink
      cases hfeed : feed? g l with
      | none => exact .idle hfeed (ih code)
      | some found =>
          obtain ⟨input, producer, output⟩ := found
          have hcall := hcalls producer (producer_mem hfeed) output
          cases hexpress : express producer output with
          | error fault =>
              rw [hexpress] at hcall
              simp only [hexpress, bind, Except.bind]
              exact .fails hfeed hcall
          | ok text =>
              rw [hexpress] at hcall
              cases hname : applyNamed Template.substitute input.name code text with
              | error fault =>
                  simp only [hexpress, hname, bind, Except.bind]
                  exact .unnamed hfeed hcall hname
              | ok filled =>
                  simp only [hexpress, hname, bind, Except.bind]
                  exact .filled hfeed hcall hname (ih filled)

/-- **Every expression has an answer by the rules.**  The induction is on the bound,
which stays above the number of nodes that are not on the path; the limit only
decides which rule applies. -/
theorem expresses_expressionIn (hdeep : b.depth = none) (hn : n ∈ g.nodes)
    (hk : unvisited g path < k) (hroom : room = (d - path.length).toNat) :
    Expresses b c g d k path n p (expressionIn c g (.int d) room b path n p) := by
  induction k generalizing path n p room with
  | zero => omega
  | succ k ih =>
      unfold expressionIn
      cases hon : onPath path n.id with
      | true => exact .again hon
      | false =>
          cases room with
          | zero => exact .full hon (by omega)
          | succ room =>
              have hless : path.length < d := by omega
              cases htemplate : outputTemplate? c n p with
              | none => exact .blank hon hless htemplate
              | some code =>
                  have hbound : unvisited g (path ++ [n.id]) < k := by
                    have hlt := unvisited_lt hn hon
                    omega
                  have hrest : room = (d - (path ++ [n.id]).length).toNat := by
                    rw [List.length_append, List.length_singleton]
                    omega
                  simp only [Bounds.under_of_none hdeep]
                  cases hvalue : fillValue b n code with
                  | error fault => exact .unwritten hon hless htemplate hvalue
                  | ok valued =>
                      exact .made hon hless htemplate hvalue
                        (fills_foldlM (fun m hm q => ih hm hbound hrest) _ _)

theorem fills_applyInputs {code : List Char} (hdeep : b.depth = none) (hk : g.nodes.length < k) :
    Fills b c g d k [] (g.linksInto n.id) code
      (applyInputs g (supplyWithin b c g (.int d)) n code) := by
  refine fills_foldlM (fun m hm q => ?_) _ _
  unfold supplyWithin
  rw [Bounds.under_of_none hdeep]
  refine expresses_expressionIn hdeep hm ?_ ?_
  · exact Nat.lt_of_le_of_lt List.countP_le_length hk
  · rw [roomFor_int]
    simp

/-! ## Statements -/

/-- What was written stays written. -/
theorem onPath_statementIn {r : List Char × List Scalar}
    (hrun : statementIn c g limit room b visited n = .ok r) {id : Scalar}
    (hold : onPath visited id = true) : onPath r.2 id = true := by
  induction room generalizing b visited n r with
  | zero =>
      rw [statementIn_zero] at hrun
      cases hrun
      exact hold
  | succ room ih =>
      cases hvisited : onPath visited n.id with
      | true =>
          rw [statementIn_of_onPath hvisited] at hrun
          cases hrun
          exact hold
      | false =>
          have hgrown : onPath (visited ++ [n.id]) id = true := onPath_append.mpr (Or.inl hold)
          rcases (statementIn_eq_ok hvisited).mp hrun with
            ⟨_, rfl⟩ | ⟨code, filled, s, _, _, _, hflow, rfl⟩
          · exact hgrown
          · refine foldlM_induct (motive := fun s => onPath s.2 id = true) hflow hgrown ?_
            intro l _ s s' hs hstep
            rcases applyFlow_eq_ok.mp hstep with
              ⟨_, rfl⟩ | ⟨_, target, block, reached, filled, _, hwrite, _, rfl⟩
            · exact hs
            · obtain ⟨below, _, hwrite⟩ := Bounds.under_eq_ok.mp hwrite
              have hreached := ih hwrite hs
              exact hreached

theorem follows_foldlM {write : List Scalar → Node → Except Fault (List Char × List Scalar)}
    (hgrows : ∀ visited m r, write visited m = .ok r →
      ∀ id, onPath visited id = true → onPath r.2 id = true)
    (links : List Link) (s : List Char × List Scalar)
    (hcalls : ∀ visited, (∀ id, onPath s.2 id = true → onPath visited id = true) →
      ∀ m ∈ g.nodes, Writes b c g d k visited m (write visited m)) :
    Follows b c g d k links s (links.foldlM (applyFlow g write) s) := by
  induction links generalizing s with
  | nil => exact .done
  | cons l rest ih =>
      rw [List.foldlM_cons]
      unfold applyFlow
      cases hfollow : follow? g l with
      | none => exact .idle hfollow (ih s hcalls)
      | some found =>
          obtain ⟨output, target⟩ := found
          have hcall := hcalls s.2 (fun _ h => h) target (target_mem hfollow)
          cases hwrite : write s.2 target with
          | error fault =>
              rw [hwrite] at hcall
              simp only [hwrite, bind, Except.bind]
              exact .fails hfollow hcall
          | ok written =>
              obtain ⟨block, reached⟩ := written
              rw [hwrite] at hcall
              cases hname : applyNamed Template.splice output.name s.1 block with
              | error fault =>
                  simp only [hwrite, hname, bind, Except.bind]
                  exact .unnamed hfollow hcall hname
              | ok filled =>
                  simp only [hwrite, hname, bind, Except.bind, pure, Except.pure]
                  refine .placed hfollow hcall hname (ih (filled, reached) ?_)
                  exact fun visited hmore => hcalls visited fun id hid =>
                    hmore id (hgrows s.2 target _ hwrite id hid)

/-- **Every statement has an answer by the rules.**  The induction is on the room, which
stays above the number of nodes that are not written yet, so that it never runs out;
expressions may be nested inside the innermost statement. -/
theorem writes_statementIn (hdeep : b.depth = none) (hn : n ∈ g.nodes)
    (hroom : unvisited g visited < room) (hk : room + g.nodes.length < k) :
    Writes b c g d k visited n (statementIn c g (.int d) room b visited n) := by
  induction room generalizing visited n k with
  | zero => omega
  | succ room ih =>
      obtain ⟨k, rfl⟩ : ∃ less, k = less + 1 := ⟨k - 1, by omega⟩
      unfold statementIn
      cases hold : onPath visited n.id with
      | true => exact .again hold
      | false =>
          cases htemplate : statementTemplate? c n with
          | none => exact .blank hold htemplate
          | some code =>
              simp only [Bounds.under_of_none hdeep]
              cases hvalue : fillValue b n code with
              | error fault => exact .unwritten hold htemplate hvalue
              | ok valued =>
                  have hfills : Fills b c g d k [] (g.linksInto n.id) valued
                      (applyInputs g (supplyWithin b c g (.int d)) n valued) :=
                    fills_applyInputs hdeep (by omega)
                  simp only [bind, Except.bind]
                  cases hinputs : applyInputs g (supplyWithin b c g (.int d)) n valued with
                  | error fault =>
                      rw [hinputs] at hfills
                      exact .fails hold htemplate hvalue hfills
                  | ok filled =>
                      rw [hinputs] at hfills
                      refine .made hold htemplate hvalue hfills (follows_foldlM ?_ _ _ ?_)
                      · exact fun visited m r hrun id => onPath_statementIn hrun
                      · intro reached hmore m hm
                        have hless := unvisited_lt hn hold
                        have hle : unvisited g reached ≤ unvisited g (visited ++ [n.id]) :=
                          unvisited_le hmore
                        exact ih hm (by omega) (by omega)

/-! ## Programs -/

theorem lists_blocksWithin (hdeep : b.depth = none) {nodes : List Node}
    (hnodes : ∀ n ∈ nodes, n ∈ g.nodes) (visited : List Scalar) :
    Lists b c g d (2 * g.nodes.length + 2) visited nodes
      (blocksWithin b c g (.int d) visited nodes) := by
  induction nodes generalizing visited with
  | nil => exact .done
  | cons n rest ih =>
      have hwrites : Writes b c g d (2 * g.nodes.length + 2) visited n
          (statementWithin b c g (.int d) visited n) := by
        have hle : unvisited g visited ≤ g.nodes.length := List.countP_le_length
        exact writes_statementIn hdeep (hnodes n List.mem_cons_self) (by omega) (by omega)
      rw [blocksWithin]
      cases hstatement : statementWithin b c g (.int d) visited n with
      | error fault =>
          rw [hstatement] at hwrites
          exact .fails hwrites
      | ok written =>
          obtain ⟨block, reached⟩ := written
          rw [hstatement] at hwrites
          exact .next hwrites (ih (fun m hm => hnodes m (List.mem_cons_of_mem n hm)) reached)

/-- **Every program has an answer by the rules**, with room for any number of steps. -/
theorem generates (hdeep : b.depth = none) (c : Catalog) (g : Graph) (d : Int) (now : Moment) :
    Generates b c g d now (2 * g.nodes.length + 2) (sourceWithin b c g (.int d) now) := by
  have hnodes : ∀ n ∈ entryNodes c g, n ∈ g.nodes := fun n hn => (List.mem_filter.mp hn).1
  have hlists := lists_blocksWithin (c := c) (d := d) hdeep hnodes []
  unfold sourceWithin bodyWithin
  split
  · rename_i hnone
    exact .idle hnone
  · rename_i hsome
    cases hblocks : blocksWithin b c g (.int d) [] (entryNodes c g) with
    | error fault =>
        rw [hblocks] at hlists
        exact .fails hsome hlists
    | ok texts =>
        rw [hblocks] at hlists
        exact .made hsome hlists

theorem sourceWithin_of_no_entries (hnone : entryNodes c g = []) (now : Moment) :
    sourceWithin b c g limit now = .error .noEntryPoint := by
  unfold sourceWithin bodyWithin
  rw [hnone]
  rfl

/-- **Making a program ends, and in few ways.**  In every graph whose port names are
texts, whatever its links are and whatever the limit is, the rules lead to an answer,
with calls nested no further than twice the number of nodes; and what is given within
bounds is this answer, unless there is no room for it.  The answer is a text, or there
is no entry point, or a data cycle is reported, or a number has no text: then an id or
a value, the limit or the comment style has such a number. -/
theorem generate_ends (hnames : g.TextNames) {now : Moment} {stamp : String}
    (hnow : now.timestamp = .ok stamp) (c : Catalog) (d : Int) (b : Bounds) :
    ∃ answer, Generates b.roomy c g d now (2 * g.nodes.length + 2) answer ∧
      (sourceWithin b c g (.int d) now = .error .tooDeep ∨
        sourceWithin b c g (.int d) now = answer) ∧
      (answer = .error .noEntryPoint ↔ entryNodes c g = []) ∧
      ((∃ text, answer = .ok text) ∨ answer = .error .noEntryPoint ∨
        (∃ fault, answer = .error fault ∧ fault.isDataCycle = true) ∨
        (answer = .error .unwritable ∧ b.digits = true ∧ ¬ Legible c g (.int d))) := by
  refine ⟨_, generates rfl c g d now, sourceWithin_unless_tooDeep b c g (.int d) now, ⟨?_, ?_⟩, ?_⟩
  · intro hanswer
    rcases sourceWithin_eq_error hnames hnow hanswer with ⟨hnone, _⟩ | ⟨_, hcycle | ⟨h, _⟩ | ⟨h, _⟩⟩
    · exact hnone
    · cases hcycle
    · cases h
    · cases h
  · exact fun hnone => sourceWithin_of_no_entries hnone now
  · cases hanswer : sourceWithin b.roomy c g (.int d) now with
    | ok text => exact Or.inl ⟨text, rfl⟩
    | error fault =>
        rcases sourceWithin_eq_error hnames hnow hanswer with
          ⟨_, rfl⟩ | ⟨_, hcycle | ⟨_, hdepth⟩ | ⟨rfl, hdigits⟩⟩
        · exact Or.inr (Or.inl rfl)
        · exact Or.inr (Or.inr (Or.inl ⟨fault, rfl, hcycle⟩))
        · cases hdepth
        · exact Or.inr (Or.inr (Or.inr ⟨rfl, hdigits, not_legible_of_unwritable hnames hnow hanswer⟩))

/-- Control flow in circles ends in a text, with no room at all for expressions; data
in circles is reported, although the limit would allow many more nodes. -/
theorem generate_ends_loops :
    (∃ text, Generates ⟨none, true⟩ stepCatalog stepLoop (-1) (.ofUnixMilliseconds 0) 10
        (.ok text)) ∧
      ∃ fault, Generates ⟨none, true⟩ noteCatalog loopedNotes 1000000000 (.ofUnixMilliseconds 0) 10
        (.error fault) ∧ fault.isDataCycle = true := by
  have hnow : (Moment.ofUnixMilliseconds 0).timestamp = .ok "1970-01-01T00:00:00.000Z" :=
    eq_ok_of_toOption (by decide +kernel)
  refine ⟨?_, ?_⟩
  · have hnames : stepLoop.TextNames := by decide +kernel
    obtain ⟨answer, hgenerates, hgiven, _⟩ :=
      generate_ends hnames hnow stepCatalog (-1) Nesting.direct.ofText
    obtain ⟨text, htext⟩ : ∃ text, sourceWithin Nesting.direct.ofText stepCatalog stepLoop
        (.int (-1)) (.ofUnixMilliseconds 0) = .ok text :=
      exists_ok_of_toBool (by decide +kernel)
    rw [htext] at hgiven
    rcases hgiven with hdeep | rfl
    · cases hdeep
    · exact ⟨text, hgenerates⟩
  · have hnames : loopedNotes.TextNames := by decide +kernel
    obtain ⟨answer, hgenerates, hgiven, _⟩ :=
      generate_ends hnames hnow noteCatalog 1000000000 Nesting.direct.ofText
    obtain ⟨fault, hfault, hcycle⟩ : ∃ fault, sourceWithin Nesting.direct.ofText noteCatalog
        loopedNotes (.int 1000000000) (.ofUnixMilliseconds 0) = .error fault ∧
          fault.isDataCycle = true :=
      exists_error_of_failsWith (by decide +kernel)
    rw [hfault] at hgiven
    rcases hgiven with hdeep | rfl
    · cases hdeep
      cases hcycle
    · exact ⟨fault, hgenerates, hcycle⟩

/-- A step alone, under the first id that cannot be written. -/
def longStep : Graph :=
  { nodes := [{ stepNode 0 with id := .int Number.writeBound }] }

/-- **An id may be too long for a text.**  Making the program of this step gives none of
the three: no text, no missing entry point and no data cycle. -/
theorem generate_unwritable :
    longStep.TextNames ∧
      (Moment.ofUnixMilliseconds 0).timestamp = .ok "1970-01-01T00:00:00.000Z" ∧
      ∀ answer, answer = sourceWithin Nesting.direct.ofText stepCatalog longStep (.int 256)
          (.ofUnixMilliseconds 0) →
        ¬ ((∃ text, answer = .ok text) ∨ answer = .error .noEntryPoint ∨
          ∃ fault, answer = .error fault ∧ fault.isDataCycle = true) := by
  refine ⟨by decide +kernel, eq_ok_of_toOption (by decide +kernel), ?_⟩
  intro answer hanswer hends
  have hgiven : answer = .error .unwritable :=
    hanswer.trans (eq_unwritable_of_failsWith (by decide +kernel))
  rcases hends with ⟨text, rfl⟩ | rfl | ⟨fault, rfl, hcycle⟩
  · cases hgiven
  · cases hgiven
  · cases hgiven
    cases hcycle

end NodeWeave.Program
