import NodeWeave.Proofs.ProgramSight

/-!
# The steps of a program that is made

What it takes for each step on the way to a program to give a text: one lemma for
each function, which says when the step succeeds and what it gives.  The proofs
about texts go by these cases and open none of the functions again.  In the same way
the second part says where a fault can come from, and the third when a program that
is made in one setting is made in another one (`Carries`).
-/

namespace NodeWeave

/-- The name of a port as a text; only a text is a name. -/
def Port.nameText (p : Port) : List Char :=
  match p.name with
  | .str name => name.toList
  | _ => []

namespace Graph

/-- No port has any of some characters in its name. -/
def NamesAvoid (g : Graph) (marks : List Char) : Prop :=
  ∀ n ∈ g.nodes, ∀ p ∈ n.ports .input ++ n.ports .output,
    (p.nameText.all fun mark => !marks.contains mark) = true

instance (g : Graph) (marks : List Char) : Decidable (g.NamesAvoid marks) :=
  inferInstanceAs (Decidable (∀ n ∈ g.nodes, ∀ p ∈ n.ports .input ++ n.ports .output, _))

/-- A port that is found belongs to a node of the graph. -/
theorem port?_mem {g : Graph} {r : PortRef} {p : Port} (hport : g.port? r = some p) :
    ∃ n ∈ g.nodes, p ∈ n.ports .input ++ n.ports .output := by
  obtain ⟨n, hnode, hp⟩ := Option.bind_eq_some_iff.mp hport
  refine ⟨n, node?_mem hnode, ?_⟩
  unfold Node.port? at hp
  split at hp
  · have hside := List.mem_of_getElem? hp
    cases hr : r.side with
    | input =>
        rw [hr] at hside
        exact List.mem_append_left _ hside
    | output =>
        rw [hr] at hside
        exact List.mem_append_right _ hside
  · cases hp

/-- The name under which a link is filled in. -/
theorem NamesAvoid.not_mem {g : Graph} {marks : List Char} (hnames : g.NamesAvoid marks)
    {r : PortRef} {p : Port} (hport : g.port? r = some p) {name : String} (hname : p.name = .str name)
    {mark : Char} (hmark : mark ∈ marks) : mark ∉ name.toList := by
  obtain ⟨n, hn, hp⟩ := port?_mem hport
  have hfree := hnames n hn p hp
  rw [Port.nameText, hname, List.all_eq_true] at hfree
  intro hmem
  have hout := hfree mark hmem
  simp [hmark] at hout

end Graph

namespace Program

variable {b : Bounds} {c : Catalog} {g : Graph} {limit : Value} {n : Node} {p : Port} {l : Link}
  {path visited : List Scalar} {code text filled : List Char} {room : Nat}

/-- Can the value and the id of a node be written? -/
structure Shows (b : Bounds) (n : Node) : Prop where
  value : n.slot.isSome = true → b.fault? n.value = none
  id : b.writes n.id = true

theorem fillValue_eq_ok : fillValue b n code = .ok filled ↔
    (n.slot.isSome = true → b.fault? n.value = none) ∧ filled = applyValue n code := by
  unfold fillValue
  cases n.slot.isSome with
  | false => simp [pure, Except.pure, eq_comm]
  | true =>
      cases hfault : b.fault? n.value with
      | none => simp [Bounds.check, hfault, bind, Except.bind, pure, Except.pure, eq_comm]
      | some e => simp [Bounds.check, hfault, bind, Except.bind]

theorem fillId_eq_ok : fillId b n code = .ok filled ↔
    b.writes n.id = true ∧ filled = applyId n code := by
  unfold fillId Bounds.checkScalar
  cases b.writes n.id with
  | false => simp [bind, Except.bind]
  | true => simp [bind, Except.bind, pure, Except.pure, eq_comm]

theorem applyNamed_eq_ok {put : List Char → List Char → List Char → List Char} {name : Value} :
    applyNamed put name code text = .ok filled ↔
      (name = .null ∧ filled = code) ∨
        ∃ key, name = .str key ∧ filled = put code key.toList text := by
  cases name <;> simp [applyNamed, eq_comm]

theorem applyLink_eq_ok {express : Node → Port → Except Fault (List Char)} :
    applyLink g express code l = .ok filled ↔
      (feed? g l = none ∧ filled = code) ∨
        ∃ input t text, feed? g l = some (input, t) ∧ express t.1 t.2 = .ok text ∧
          applyNamed Template.substitute input.name code text = .ok filled := by
  unfold applyLink
  cases hfeed : feed? g l with
  | none => simp [eq_comm]
  | some found =>
      obtain ⟨input, t⟩ := found
      constructor
      · intro happly
        obtain ⟨text, htext, happly⟩ := bind_eq_ok happly
        exact Or.inr ⟨input, t, text, rfl, htext, happly⟩
      · rintro (⟨hnone, _⟩ | ⟨_, _, text, hfound, htext, hnamed⟩)
        · cases hnone
        · cases hfound
          simp [htext, hnamed, bind, Except.bind]

theorem applyFlow_eq_ok {write : List Scalar → Node → Except Fault (List Char × List Scalar)}
    {s r : List Char × List Scalar} :
    applyFlow g write s l = .ok r ↔
      (follow? g l = none ∧ r = s) ∨
        ∃ output target block reached filled, follow? g l = some (output, target) ∧
          write s.2 target = .ok (block, reached) ∧
          applyNamed Template.splice output.name s.1 block = .ok filled ∧ r = (filled, reached) := by
  unfold applyFlow
  cases hfollow : follow? g l with
  | none => simp [eq_comm]
  | some found =>
      obtain ⟨output, target⟩ := found
      constructor
      · intro happly
        obtain ⟨⟨block, reached⟩, hwrite, happly⟩ := bind_eq_ok happly
        obtain ⟨filled, hfilled, happly⟩ := bind_eq_ok happly
        exact Or.inr ⟨output, target, block, reached, filled, rfl, hwrite, hfilled,
          (Except.ok.inj happly).symm⟩
      · rintro (⟨hnone, _⟩ | ⟨_, _, block, reached, filled, hfound, hwrite, hfilled, rfl⟩)
        · cases hnone
        · cases hfound
          simp [hwrite, hfilled, bind, Except.bind, pure, Except.pure]

theorem expressionIn_eq_ok :
    expressionIn c g limit room b path n p = .ok text ↔
      onPath path n.id = false ∧ ∃ less, room = less + 1 ∧
        ((outputTemplate? c n p = none ∧ text = []) ∨
          ∃ code filled, outputTemplate? c n p = some code ∧ Shows b n ∧
            applyInputs g (fun m q => b.under 2 fun b =>
              expressionIn c g limit less b (path ++ [n.id]) m q) n (applyValue n code) = .ok filled ∧
            text = Template.strip (applyId n filled)) := by
  cases hpath : onPath path n.id with
  | true =>
      have hfault : expressionIn c g limit room b path n p = .error (cycleFault b path n.id) := by
        unfold expressionIn
        rw [if_pos hpath]
      simp [hfault]
  | false =>
      cases room with
      | zero =>
          have hfault : expressionIn c g limit 0 b path n p =
              .error (limitFault b limit (path ++ [n.id])) := by
            unfold expressionIn
            rw [if_neg (by simp [hpath])]
          simp [hfault]
      | succ room =>
          rw [expressionIn, if_neg (by simp [hpath])]
          cases htemplate : outputTemplate? c n p with
          | none => simp [eq_comm]
          | some code =>
              constructor
              · intro hrun
                obtain ⟨_, hvalue, hrun⟩ := bind_eq_ok hrun
                obtain ⟨hshown, rfl⟩ := fillValue_eq_ok.mp hvalue
                obtain ⟨filled, hfilled, hrun⟩ := bind_eq_ok hrun
                obtain ⟨_, hid, hrun⟩ := bind_eq_ok hrun
                obtain ⟨hwritten, rfl⟩ := fillId_eq_ok.mp hid
                exact ⟨rfl, room, rfl, Or.inr ⟨code, filled, rfl, ⟨hshown, hwritten⟩, hfilled,
                  (Except.ok.inj hrun).symm⟩⟩
              · rintro ⟨_, less, hroom, ⟨hnone, _⟩ | ⟨_, filled, hcode, hshows, hfilled, rfl⟩⟩
                · cases hnone
                · cases hroom
                  cases hcode
                  simp [fillValue_eq_ok.mpr ⟨hshows.value, rfl⟩, hfilled,
                    fillId_eq_ok.mpr ⟨hshows.id, rfl⟩, bind, Except.bind, pure, Except.pure]

theorem statementIn_of_onPath (h : onPath visited n.id = true) :
    statementIn c g limit room b visited n = .ok ([], visited) := by
  unfold statementIn
  rw [if_pos h]

theorem statementIn_zero : statementIn c g limit 0 b visited n = .ok ([], visited) := by
  unfold statementIn
  split <;> rfl

theorem statementIn_eq_ok (hnew : onPath visited n.id = false) {r : List Char × List Scalar} :
    statementIn c g limit (room + 1) b visited n = .ok r ↔
      (statementTemplate? c n = none ∧ r = ([], visited ++ [n.id])) ∨
        ∃ code filled s, statementTemplate? c n = some code ∧ Shows b n ∧
          applyInputs g (supplyWithin b c g limit) n (applyValue n code) = .ok filled ∧
          (g.linksOutOf n.id).foldlM (applyFlow g fun visited m =>
            b.under 1 fun b => statementIn c g limit room b visited m)
            (filled, visited ++ [n.id]) = .ok s ∧
          r = (Template.strip (applyId n s.1), s.2) := by
  rw [statementIn, if_neg (by simp [hnew])]
  cases htemplate : statementTemplate? c n with
  | none => simp [eq_comm]
  | some code =>
      constructor
      · intro hrun
        obtain ⟨_, hvalue, hrun⟩ := bind_eq_ok hrun
        obtain ⟨hshown, rfl⟩ := fillValue_eq_ok.mp hvalue
        obtain ⟨filled, hfilled, hrun⟩ := bind_eq_ok hrun
        obtain ⟨s, hs, hrun⟩ := bind_eq_ok hrun
        obtain ⟨_, hid, hrun⟩ := bind_eq_ok hrun
        obtain ⟨hwritten, rfl⟩ := fillId_eq_ok.mp hid
        exact Or.inr ⟨code, filled, s, rfl, ⟨hshown, hwritten⟩, hfilled, hs,
          (Except.ok.inj hrun).symm⟩
      · rintro (⟨hnone, _⟩ | ⟨_, filled, s, hcode, hshows, hfilled, hs, rfl⟩)
        · cases hnone
        · cases hcode
          simp [fillValue_eq_ok.mpr ⟨hshows.value, rfl⟩, hfilled, hs,
            fillId_eq_ok.mpr ⟨hshows.id, rfl⟩, bind, Except.bind, pure, Except.pure]

theorem blocksWithin_cons_eq_ok {rest : List Node} {texts : List (List Char)} :
    blocksWithin b c g limit visited (n :: rest) = .ok texts ↔
      ∃ block reached others, statementWithin b c g limit visited n = .ok (block, reached) ∧
        blocksWithin b c g limit reached rest = .ok others ∧ texts = block :: others := by
  rw [blocksWithin]
  constructor
  · intro hrun
    obtain ⟨⟨block, reached⟩, hblock, hrun⟩ := bind_eq_ok hrun
    obtain ⟨others, hothers, hrun⟩ := bind_eq_ok hrun
    exact ⟨block, reached, others, hblock, hothers, (Except.ok.inj hrun).symm⟩
  · rintro ⟨block, reached, others, hblock, hothers, rfl⟩
    simp [hblock, hothers, bind, Except.bind, pure, Except.pure]

theorem bodyWithin_eq_ok :
    bodyWithin b c g limit = .ok text ↔ entryNodes c g ≠ [] ∧
      ∃ texts, blocksWithin b c g limit [] (entryNodes c g) = .ok texts ∧
        text = ['\n', '\n'].intercalate (texts.filter fun b => !b.isEmpty) := by
  unfold bodyWithin
  split
  · rename_i hnone
    simp [hnone]
  · rename_i hsome
    constructor
    · intro hrun
      obtain ⟨texts, htexts, hrun⟩ := bind_eq_ok hrun
      exact ⟨hsome, texts, htexts, (Except.ok.inj hrun).symm⟩
    · rintro ⟨_, texts, htexts, rfl⟩
      simp [htexts, bind, Except.bind, pure, Except.pure]

/-! ## Faults -/

section Faults

/-! A fault on the way to a program is that of an expression or that of a name.  So
what holds of these, `Q`, holds of the faults of all that is made of them. -/

variable {fault : Fault} {Q : Fault → Prop}

theorem applyNamed_eq_error {put : List Char → List Char → List Char → List Char} {name : Value}
    (happly : applyNamed put name code text = .error fault) : fault = .unsuitable := by
  cases name <;> simp_all [applyNamed]

theorem applyLink_eq_error {express : Node → Port → Except Fault (List Char)}
    (happly : applyLink g express code l = .error fault) :
    ∃ input t, feed? g l = some (input, t) ∧ (express t.1 t.2 = .error fault ∨
      ∃ text, applyNamed Template.substitute input.name code text = .error fault) := by
  unfold applyLink at happly
  split at happly
  · cases happly
  · rename_i input producer output hfeed
    refine ⟨input, (producer, output), hfeed, ?_⟩
    rcases bind_eq_error happly with hexpress | ⟨text, _, hnamed⟩
    · exact Or.inl hexpress
    · exact Or.inr ⟨text, hnamed⟩

theorem applyFlow_eq_error {write : List Scalar → Node → Except Fault (List Char × List Scalar)}
    {s : List Char × List Scalar} (happly : applyFlow g write s l = .error fault) :
    ∃ output target, follow? g l = some (output, target) ∧ (write s.2 target = .error fault ∨
      ∃ block, applyNamed Template.splice output.name s.1 block = .error fault) := by
  unfold applyFlow at happly
  split at happly
  · cases happly
  · rename_i output target hfollow
    refine ⟨output, target, hfollow, ?_⟩
    rcases bind_eq_error happly with hwrite | ⟨⟨block, reached⟩, _, happly⟩
    · exact Or.inl hwrite
    · rcases bind_eq_error happly with hnamed | ⟨_, _, hpure⟩
      · exact Or.inr ⟨block, hnamed⟩
      · cases hpure

/-- **How an expression fails:** its node is met again, there is no room for it, what
feeds it fails, or it is out of bounds. -/
theorem expressionIn_eq_error (hrun : expressionIn c g limit room b path n p = .error fault) :
    (onPath path n.id = true ∧ fault = cycleFault b path n.id) ∨
    (onPath path n.id = false ∧ ((room = 0 ∧ fault = limitFault b limit (path ++ [n.id])) ∨
      b.Causes fault ∨ ∃ less code, room = less + 1 ∧
        applyInputs g (fun m q => b.under 2 fun b =>
          expressionIn c g limit less b (path ++ [n.id]) m q) n code = .error fault)) := by
  unfold expressionIn at hrun
  cases hon : onPath path n.id with
  | true =>
      rw [if_pos hon] at hrun
      cases hrun
      exact Or.inl ⟨rfl, rfl⟩
  | false =>
      rw [if_neg (by simp [hon])] at hrun
      refine Or.inr ⟨rfl, ?_⟩
      split at hrun
      · cases hrun
        exact Or.inl ⟨rfl, rfl⟩
      · split at hrun
        · cases hrun
        · rcases bind_eq_error hrun with hvalue | ⟨_, _, hrun⟩
          · exact Or.inr (Or.inl (fillValue_eq_error hvalue).1)
          · rcases bind_eq_error hrun with hinputs | ⟨_, _, hrun⟩
            · exact Or.inr (Or.inr ⟨_, _, rfl, hinputs⟩)
            · rcases bind_eq_error hrun with hid | ⟨_, _, hpure⟩
              · exact Or.inr (Or.inl (fillId_eq_error hid).1)
              · cases hpure

theorem header_eq_error {comment : Value} {now : Moment} (hrun : now.header comment = .error fault) :
    fault = .outOfRange := by
  unfold Moment.header at hrun
  rcases bind_eq_error hrun with htime | ⟨_, _, hpure⟩
  · rcases bind_eq_error htime with huniversal | ⟨_, _, hpure⟩
    · unfold Moment.toUniversal at huniversal
      dsimp only at huniversal
      split at huniversal
      · cases huniversal
        rfl
      · cases huniversal
    · cases hpure
  · cases hpure

variable (hnamed : ∀ r p, g.port? r = some p → ∀ put code text fault,
  applyNamed put p.name code text = .error fault → Q fault)

include hnamed

theorem fault_applyInputs {express : Node → Port → Except Fault (List Char)}
    (hexpress : ∀ m ∈ g.nodes, ∀ q fault, express m q = .error fault → Q fault)
    (happly : applyInputs g express n code = .error fault) : Q fault := by
  obtain ⟨l, _, before, hstep⟩ := foldlM_eq_error happly
  obtain ⟨input, t, hfeed, hfault | ⟨text, hname⟩⟩ := applyLink_eq_error hstep
  · exact hexpress t.1 (producer_mem hfeed) t.2 fault hfault
  · exact hnamed _ input (feed?_eq_some.mp hfeed).1 _ _ _ _ hname

variable {top : Bounds} (hbound : ∀ fault, top.Causes fault → Q fault)
  (hexpress : ∀ b, b.IsBelow top → ∀ m ∈ g.nodes, ∀ q fault,
    expressionWithin b c g limit [] m q = .error fault → Q fault)

include hbound hexpress

omit hnamed in
/-- What feeds a statement fails as its expression does, or there is no room for it. -/
theorem fault_supplyWithin (hb : b.IsBelow top) {m : Node} (hm : m ∈ g.nodes) {q : Port}
    (hrun : supplyWithin b c g limit m q = .error fault) : Q fault := by
  rcases Bounds.under_eq_error hrun with ⟨_, hcauses⟩ | ⟨b', hb', hrun⟩
  · exact hbound fault (hb.causes hcauses)
  · exact hexpress b' (hb.below hb') m hm q fault hrun

theorem fault_statementIn (hb : b.IsBelow top)
    (hrun : statementIn c g limit room b visited n = .error fault) : Q fault := by
  induction room generalizing b visited n fault with
  | zero =>
      rw [statementIn_zero] at hrun
      cases hrun
  | succ room ih =>
      unfold statementIn at hrun
      split at hrun
      · cases hrun
      · dsimp only at hrun
        split at hrun
        · cases hrun
        · rcases bind_eq_error hrun with hvalue | ⟨_, _, hrun⟩
          · exact hbound fault (hb.causes (fillValue_eq_error hvalue).1)
          · rcases bind_eq_error hrun with hinputs | ⟨_, _, hrun⟩
            · exact fault_applyInputs hnamed
                (fun m hm q fault => fault_supplyWithin hbound hexpress hb hm) hinputs
            · rcases bind_eq_error hrun with hflow | ⟨_, _, hrun⟩
              · obtain ⟨l, _, before, hstep⟩ := foldlM_eq_error hflow
                obtain ⟨output, target, hfollow, hwrite | ⟨block, hname⟩⟩ := applyFlow_eq_error hstep
                · rcases Bounds.under_eq_error hwrite with ⟨_, hcauses⟩ | ⟨b', hb', hwrite⟩
                  · exact hbound fault (hb.causes hcauses)
                  · exact ih (hb.below hb') hwrite
                · exact hnamed _ output (follow?_eq_some.mp hfollow).1 _ _ _ _ hname
              · rcases bind_eq_error hrun with hid | ⟨_, _, hpure⟩
                · exact hbound fault (hb.causes (fillId_eq_error hid).1)
                · cases hpure

theorem fault_blocksWithin {nodes : List Node}
    (hrun : blocksWithin top c g limit visited nodes = .error fault) : Q fault := by
  induction nodes generalizing visited with
  | nil => cases hrun
  | cons n rest ih =>
      rw [blocksWithin] at hrun
      rcases bind_eq_error hrun with hfirst | ⟨_, _, hrun⟩
      · exact fault_statementIn hnamed hbound hexpress Bounds.isBelow_self hfirst
      · rcases bind_eq_error hrun with hrest | ⟨_, _, hpure⟩
        · exact ih hrest
        · cases hpure

theorem fault_bodyWithin (hrun : bodyWithin top c g limit = .error fault) :
    (entryNodes c g = [] ∧ fault = .noEntryPoint) ∨ (entryNodes c g ≠ [] ∧ Q fault) := by
  unfold bodyWithin at hrun
  split at hrun
  · rename_i hentries
    cases hrun
    exact Or.inl ⟨hentries, rfl⟩
  · rename_i hentries
    rcases bind_eq_error hrun with hblocks | ⟨_, _, hpure⟩
    · exact Or.inr ⟨hentries, fault_blocksWithin hnamed hbound hexpress hblocks⟩
    · cases hpure

theorem fault_sourceWithin (hentry : Q .noEntryPoint) (hclock : Q .outOfRange) {now : Moment}
    (hrun : sourceWithin top c g limit now = .error fault) : Q fault := by
  unfold sourceWithin at hrun
  rcases bind_eq_error hrun with hbody | ⟨_, _, hrun⟩
  · rcases fault_bodyWithin hnamed hbound hexpress hbody with ⟨_, rfl⟩ | ⟨_, hfault⟩
    · exact hentry
    · exact hfault
  · rcases bind_eq_error hrun with hstyle | ⟨_, _, hrun⟩
    · exact hbound fault (Bounds.causes_of_fault? _ (Bounds.check_eq_error.mp hstyle))
    · rcases bind_eq_error hrun with hheader | ⟨_, _, hpure⟩
      · rw [header_eq_error hheader]
        exact hclock
      · cases hpure

end Faults

section TextNames

variable {fault : Fault} (hnames : g.TextNames) {d : Int}

include hnames

theorem isDataCycle_named (r : PortRef) (p : Port) (hport : g.port? r = some p)
    (put : List Char → List Char → List Char → List Char) (code text : List Char) (fault : Fault)
    (happly : applyNamed put p.name code text = .error fault) : fault.isDataCycle = true := by
  obtain ⟨filled, hfilled⟩ := applyNamed_ok hnames hport put code text
  rw [hfilled] at happly
  cases happly

theorem isDataCycle_expression (hrun : expressionWithin b c g (.int d) [] n p = .error fault) :
    fault.isDataCycle = true ∨ b.Causes fault := by
  have hsettles := expressionWithin_settles (c := c) hnames b n p d
  rw [hrun] at hsettles
  cases hsettles with
  | cycle hcycle _ => exact Or.inl hcycle
  | bound hcauses _ => exact Or.inr hcauses

/-- Where names are texts, a data cycle and the bounds are the only ways for a program with
an entry point to fail. -/
theorem bodyWithin_eq_error (hrun : bodyWithin b c g (.int d) = .error fault) :
    (entryNodes c g = [] ∧ fault = .noEntryPoint) ∨
      (entryNodes c g ≠ [] ∧ (fault.isDataCycle = true ∨ b.Causes fault)) := by
  refine fault_bodyWithin (Q := fun fault => fault.isDataCycle = true ∨ b.Causes fault)
    (fun r p hport put code text fault h =>
      Or.inl (isDataCycle_named hnames r p hport put code text fault h))
    (fun _ => Or.inr) (fun below hbelow m _ q fault h => ?_) hrun
  rcases isDataCycle_expression hnames h with hcycle | hcauses
  · exact Or.inl hcycle
  · exact Or.inr (hbelow.causes hcauses)

theorem sourceWithin_eq_error {now : Moment} {stamp : String} (hnow : now.timestamp = .ok stamp)
    (hrun : sourceWithin b c g (.int d) now = .error fault) :
    (entryNodes c g = [] ∧ fault = .noEntryPoint) ∨
      (entryNodes c g ≠ [] ∧ (fault.isDataCycle = true ∨ b.Causes fault)) := by
  unfold sourceWithin at hrun
  rcases bind_eq_error hrun with hbody | ⟨text, hbody, hrun⟩
  · exact bodyWithin_eq_error hnames hbody
  · have hsome : entryNodes c g ≠ [] := (bodyWithin_eq_ok.mp hbody).1
    rcases bind_eq_error hrun with hstyle | ⟨_, _, hrun⟩
    · exact Or.inr ⟨hsome, Or.inr (Bounds.causes_of_fault? _ (Bounds.check_eq_error.mp hstyle))⟩
    · simp only [Moment.header, hnow, bind, Except.bind, pure, Except.pure] at hrun
      cases hrun

end TextNames

/-! ## Other settings -/

theorem applyLink_mono {express express' : Node → Port → Except Fault (List Char)}
    (hexpress : ∀ m ∈ g.nodes, ∀ q text, express m q = .ok text → express' m q = .ok text)
    (happly : applyLink g express code l = .ok filled) : applyLink g express' code l = .ok filled := by
  rcases applyLink_eq_ok.mp happly with hnone | ⟨input, t, text, hfeed, htext, hnamed⟩
  · exact applyLink_eq_ok.mpr (Or.inl hnone)
  · have htext' := hexpress t.1 (producer_mem hfeed) t.2 text htext
    exact applyLink_eq_ok.mpr (Or.inr ⟨input, t, text, hfeed, htext', hnamed⟩)

theorem applyFlow_mono {write write' : List Scalar → Node → Except Fault (List Char × List Scalar)}
    (hwrite : ∀ visited, ∀ m ∈ g.nodes, ∀ r, write visited m = .ok r → write' visited m = .ok r)
    {s r : List Char × List Scalar} (happly : applyFlow g write s l = .ok r) :
    applyFlow g write' s l = .ok r := by
  rcases applyFlow_eq_ok.mp happly with
    hnone | ⟨output, target, block, reached, filled, hfollow, hblock, hnamed, heq⟩
  · exact applyFlow_eq_ok.mpr (Or.inl hnone)
  · have hblock' := hwrite s.2 target (target_mem hfollow) (block, reached) hblock
    exact applyFlow_eq_ok.mpr
      (Or.inr ⟨output, target, block, reached, filled, hfollow, hblock', hnamed, heq⟩)

/-- **A program that is made in one setting is made in another one.**  The graphs have
the same entry points, the links that lead on from a node do the same, and what could
be filled in for the statement of a node still can, within whatever bounds. -/
structure Carries (c : Catalog) (g : Graph) (limit : Value) (h : Graph) (limit' : Value) : Prop where
  size : h.nodes.length = g.nodes.length
  entries : entryNodes c h = entryNodes c g
  flow : ∀ write id s, (h.linksOutOf id).foldlM (applyFlow h write) s =
    (g.linksOutOf id).foldlM (applyFlow g write) s
  inputs : ∀ b, ∀ n ∈ g.nodes, ∀ code filled, statementTemplate? c n = some code →
    applyInputs g (supplyWithin b c g limit) n (applyValue n code) = .ok filled →
      applyInputs h (supplyWithin b c h limit') n (applyValue n code) = .ok filled

namespace Carries

variable {h : Graph} {limit' : Value} (hcarries : Carries c g limit h limit')

include hcarries

/-- The induction is on the room. -/
theorem statementIn (hn : n ∈ g.nodes) {r : List Char × List Scalar}
    (hrun : statementIn c g limit room b visited n = .ok r) :
    Program.statementIn c h limit' room b visited n = .ok r := by
  induction room generalizing b visited n r with
  | zero =>
      rw [statementIn_zero] at hrun ⊢
      exact hrun
  | succ room ih =>
      cases hvisited : onPath visited n.id with
      | true =>
          rw [statementIn_of_onPath hvisited] at hrun ⊢
          exact hrun
      | false =>
          rcases (statementIn_eq_ok hvisited).mp hrun with
            hnone | ⟨code, filled, s, hcode, hshows, hfilled, hs, heq⟩
          · exact (statementIn_eq_ok hvisited).mpr (Or.inl hnone)
          · have hinputs := hcarries.inputs b n hn code filled hcode hfilled
            refine (statementIn_eq_ok hvisited).mpr
              (Or.inr ⟨code, filled, s, hcode, hshows, hinputs, ?_, heq⟩)
            rw [hcarries.flow]
            refine foldlM_mono hs fun _ _ _ _ hstep =>
              applyFlow_mono (fun visited m hm r hr => ?_) hstep
            obtain ⟨below, hbelow, hr⟩ := Bounds.under_eq_ok.mp hr
            exact Bounds.under_eq_ok.mpr ⟨below, hbelow, ih hm hr⟩

theorem blocksWithin {nodes : List Node} (hnodes : ∀ n ∈ nodes, n ∈ g.nodes) {texts : List (List Char)}
    (hrun : blocksWithin b c g limit visited nodes = .ok texts) :
    Program.blocksWithin b c h limit' visited nodes = .ok texts := by
  induction nodes generalizing visited texts with
  | nil => exact hrun
  | cons n rest ih =>
      obtain ⟨block, reached, others, hblock, hothers, heq⟩ := blocksWithin_cons_eq_ok.mp hrun
      have hblock' : statementWithin b c h limit' visited n = .ok (block, reached) := by
        unfold statementWithin at hblock ⊢
        rw [hcarries.size]
        exact hcarries.statementIn (hnodes n List.mem_cons_self) hblock
      have hothers' := ih (fun m hm => hnodes m (List.mem_cons_of_mem n hm)) hothers
      exact blocksWithin_cons_eq_ok.mpr ⟨block, reached, others, hblock', hothers', heq⟩

theorem bodyWithin (hbody : bodyWithin b c g limit = .ok text) :
    Program.bodyWithin b c h limit' = .ok text := by
  obtain ⟨hentries, texts, htexts, heq⟩ := bodyWithin_eq_ok.mp hbody
  have hnodes : ∀ n ∈ entryNodes c g, n ∈ g.nodes := fun n hn => (List.mem_filter.mp hn).1
  have htexts' := hcarries.blocksWithin hnodes htexts
  rw [← hcarries.entries] at hentries htexts'
  exact bodyWithin_eq_ok.mpr ⟨hentries, texts, htexts', heq⟩

end Carries

end Program

end NodeWeave
