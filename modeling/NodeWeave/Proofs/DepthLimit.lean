import Mathlib.Data.List.TakeWhile
import NodeWeave.Proofs.PlaceholderFree

/-!
# Programs and the depth limit

The depth limit, the path and the bounds decide whether an expression is made, but not
what it says: with more room, or with fewer nodes on the path, the same expression comes
out (`expressionIn_weaken`).  So an expression is the same wherever it is used, and a
program that is made under one limit is made under every higher one.

The nodes on a path are different nodes of the graph, and a limit that is as high as
the number of nodes is never the reason why an expression fails (`expressionIn_loops`).
A data cycle is then reported as a row of nodes that ends where it starts.
-/

namespace NodeWeave.Program

variable {b b' : Bounds} {c : Catalog} {g : Graph} {limit limit' : Value} {n : Node} {p : Port}
  {l : Link} {path path' visited : List Scalar} {code text filled : List Char} {room more : Nat}
  {fault : Fault}

/-! ## More room -/

theorem applyInputs_mono {express express' : Node → Port → Except Fault (List Char)}
    (hexpress : ∀ m q text, express m q = .ok text → express' m q = .ok text)
    (happly : applyInputs g express n code = .ok filled) :
    applyInputs g express' n code = .ok filled :=
  foldlM_mono happly fun _ _ _ _ hstep => applyLink_mono (fun m _ => hexpress m) hstep

theorem Shows.widen (hshows : Shows b n) (hwithin : b.IsWithin b') : Shows b' n :=
  ⟨fun hslot => hwithin.fault? (hshows.value hslot), hwithin.writes hshows.id⟩

/-- **With more room and fewer nodes on the path the same expression comes out.**  The
induction is on the smaller room. -/
theorem expressionIn_weaken (limit' : Value) (hroom : room ≤ more) (hwithin : b.IsWithin b')
    (hpath : ∀ id, onPath path' id = true → onPath path id = true)
    (htext : expressionIn c g limit room b path n p = .ok text) :
    expressionIn c g limit' more b' path' n p = .ok text := by
  induction room generalizing more b b' path path' n p text with
  | zero =>
      obtain ⟨_, less, hzero, _⟩ := expressionIn_eq_ok.mp htext
      cases hzero
  | succ room ih =>
      obtain ⟨hnew, less, hless, hmade⟩ := expressionIn_eq_ok.mp htext
      cases hless
      obtain ⟨least, rfl⟩ : ∃ least, more = least + 1 := ⟨more - 1, by omega⟩
      have hnew' : onPath path' n.id = false :=
        Bool.eq_false_iff.mpr fun hold => Bool.eq_false_iff.mp hnew (hpath _ hold)
      refine expressionIn_eq_ok.mpr ⟨hnew', least, rfl, ?_⟩
      rcases hmade with hnone | ⟨code, filled, hcode, hshows, hfilled, heq⟩
      · exact Or.inl hnone
      · refine Or.inr ⟨code, filled, hcode, hshows.widen hwithin,
          applyInputs_mono (fun m q text hexpress => ?_) hfilled, heq⟩
        obtain ⟨below, hbelow, hexpress⟩ := Bounds.under_eq_ok.mp hexpress
        obtain ⟨below', hbelow', hwithin⟩ := hwithin.below hbelow
        refine Bounds.under_eq_ok.mpr
          ⟨below', hbelow', ih (by omega) hwithin (fun id hid => ?_) hexpress⟩
        rcases onPath_append.mp hid with hold | hself
        · exact onPath_append.mpr (Or.inl (hpath id hold))
        · exact onPath_append.mpr (Or.inr hself)

/-- An expression does not depend on the limit, the path or the bounds. -/
theorem expressionWithin_eq_of_ok {b₁ b₂ : Bounds} {limit₁ limit₂ : Value}
    {path₁ path₂ : List Scalar} {text₁ text₂ : List Char}
    (h₁ : expressionWithin b₁ c g limit₁ path₁ n p = .ok text₁)
    (h₂ : expressionWithin b₂ c g limit₂ path₂ n p = .ok text₂) : text₁ = text₂ := by
  -- both come out again with all the room and an empty path
  have hempty : ∀ (path : List Scalar) id, onPath [] id = true → onPath path id = true :=
    fun _ _ hid => nomatch hid
  have hfirst := expressionIn_weaken limit₁ (Nat.le_max_left _ (roomFor g limit₂ path₂))
    Bounds.isWithin_free (hempty path₁) h₁
  have hsecond := expressionIn_weaken limit₁ (Nat.le_max_right (roomFor g limit₁ path₁) _)
    Bounds.isWithin_free (hempty path₂) h₂
  exact Except.ok.inj (hfirst.symm.trans hsecond)

theorem roomFor_int (d : Int) : roomFor g (.int d) [] = d.toNat := by
  simp [roomFor, Value.number?, Number.ceil?]

theorem supplyWithin_mono {d d' : Int} (hd : d ≤ d')
    (htext : supplyWithin b c g (.int d) n p = .ok text) :
    supplyWithin b c g (.int d') n p = .ok text := by
  obtain ⟨below, hbelow, htext⟩ := Bounds.under_eq_ok.mp htext
  refine Bounds.under_eq_ok.mpr ⟨below, hbelow,
    expressionIn_weaken _ ?_ Bounds.isWithin_self (fun _ hid => hid) htext⟩
  rw [roomFor_int, roomFor_int]
  omega

theorem carries_of_le {d d' : Int} (hd : d ≤ d') : Carries c g (.int d) g (.int d') where
  size := rfl
  entries := rfl
  flow := fun _ _ _ => rfl
  inputs := fun _ _ _ _ _ _ hfilled => applyInputs_mono (fun _ _ _ => supplyWithin_mono hd) hfilled

/-! ## Programs under a higher limit -/

theorem sourceWithin_eq_ok {now : Moment} {program : String} :
    sourceWithin b c g limit now = .ok program ↔
      ∃ text header, bodyWithin b c g limit = .ok text ∧
        b.fault? c.style.commentStyle = none ∧ now.header c.style.commentStyle = .ok header ∧
        program = header ++ String.ofList text := by
  unfold sourceWithin
  constructor
  · intro hrun
    obtain ⟨text, htext, hrun⟩ := bind_eq_ok hrun
    obtain ⟨_, hstyle, hrun⟩ := bind_eq_ok hrun
    obtain ⟨header, hheader, hrun⟩ := bind_eq_ok hrun
    exact ⟨text, header, htext, Bounds.check_eq_ok.mp hstyle, hheader, (Except.ok.inj hrun).symm⟩
  · intro h
    obtain ⟨text, header, htext, hstyle, hheader, rfl⟩ := h
    simp [htext, Bounds.check_eq_ok.mpr hstyle, hheader, bind, Except.bind, pure, Except.pure]

/-- **A higher limit changes nothing about a program that is made.** -/
theorem sourceWithin_mono {d d' : Int} (hd : d ≤ d') {now : Moment} {program : String}
    (hrun : sourceWithin b c g (.int d) now = .ok program) :
    sourceWithin b c g (.int d') now = .ok program := by
  obtain ⟨text, header, hbody, hrest⟩ := sourceWithin_eq_ok.mp hrun
  exact sourceWithin_eq_ok.mpr ⟨text, header, (carries_of_le hd).bodyWithin hbody, hrest⟩

/-! ## Data cycles -/

/-- The fault may name a data cycle, but only as a row of nodes that ends where it
starts. -/
def NamesLoop (fault : Fault) : Prop :=
  fault.isDataCycle = true → ∃ first between last,
    fault = .dataCycle (first :: (between ++ [last])) ∧ first.same last = true

theorem namesLoop_of_not (hfault : fault.isDataCycle = false) : NamesLoop fault :=
  fun hcycle => absurd hcycle (Bool.eq_false_iff.mp hfault)

/-- The part of a path from a node on starts with that node. -/
theorem dropWhile_of_onPath {id : Scalar} (hpath : onPath path id = true) :
    ∃ first between, path.dropWhile (fun other => !id.same other) = first :: between ∧
      first.same id = true := by
  obtain ⟨other, hother, hsame⟩ := List.any_eq_true.mp hpath
  cases hdrop : path.dropWhile fun other => !id.same other with
  | nil =>
      have hnone := List.dropWhile_eq_nil_iff.mp hdrop other hother
      rw [hsame] at hnone
      cases hnone
  | cons first between =>
      have hfirst := List.head_dropWhile_not (fun other => !id.same other)
        (by rw [hdrop]; exact List.cons_ne_nil _ _)
      simp only [hdrop, List.head_cons, Bool.not_eq_false'] at hfirst
      exact ⟨first, between, rfl, Scalar.same_iff.mpr (Scalar.same_iff.mp hfirst).symm⟩

theorem namesLoop_cycleFault {id : Scalar} (hpath : onPath path id = true) :
    NamesLoop (cycleFault b path id) := by
  obtain ⟨first, between, hdrop, hsame⟩ := dropWhile_of_onPath hpath
  unfold cycleFault Bounds.naming
  dsimp only
  split
  · intro _
    exact ⟨first, between, id, by rw [hdrop]; rfl, hsame⟩
  · exact namesLoop_of_not rfl

theorem namesLoop_named (r : PortRef) (p : Port) (_ : g.port? r = some p)
    (put : List Char → List Char → List Char → List Char) (code text : List Char) (fault : Fault)
    (happly : applyNamed put p.name code text = .error fault) : NamesLoop fault :=
  namesLoop_of_not (by rw [applyNamed_eq_error happly]; rfl)

theorem namesLoop_bound (hcauses : b.Causes fault) : NamesLoop fault := by
  rcases hcauses with ⟨rfl, _⟩ | ⟨rfl, _⟩
  · exact namesLoop_of_not rfl
  · exact namesLoop_of_not rfl

/-- **With room for all nodes only a loop makes an expression fail.**  The nodes of the
graph that are not on the path still fit on it. -/
theorem expressionIn_loops (hn : n ∈ g.nodes) (hroom : unvisited g path ≤ room)
    (hrun : expressionIn c g limit room b path n p = .error fault) : NamesLoop fault := by
  induction room generalizing b path n p fault with
  | zero =>
      rcases expressionIn_eq_error hrun with ⟨hon, rfl⟩ | ⟨hnew, _⟩
      · exact namesLoop_cycleFault hon
      · have hpos := unvisited_pos hn hnew
        omega
  | succ room ih =>
      rcases expressionIn_eq_error hrun with
        ⟨hon, rfl⟩ | ⟨hnew, ⟨hzero, _⟩ | hcauses | ⟨less, code, hless, hinputs⟩⟩
      · exact namesLoop_cycleFault hon
      · cases hzero
      · exact namesLoop_bound hcauses
      · cases hless
        have hfewer := unvisited_lt hn hnew
        refine fault_applyInputs namesLoop_named (fun m hm q fault hfault => ?_) hinputs
        rcases Bounds.under_eq_error hfault with ⟨_, hcauses⟩ | ⟨below, _, hfault⟩
        · exact namesLoop_bound hcauses
        · exact ih hm (by omega) hfault

/-- **A limit as high as the number of nodes leaves only loops to report.** -/
theorem sourceWithin_loops {d : Int} (hd : g.nodes.length ≤ d) {now : Moment}
    (hrun : sourceWithin b c g (.int d) now = .error fault) : NamesLoop fault := by
  refine fault_sourceWithin namesLoop_named (fun _ => namesLoop_bound)
    (fun below _ m hm q fault hfault => ?_)
    (namesLoop_of_not rfl) (namesLoop_of_not rfl) hrun
  refine expressionIn_loops hm ?_ hfault
  have hcount : unvisited g [] ≤ g.nodes.length := List.countP_le_length
  rw [roomFor_int]
  omega

/-- **The depth limit and the place of use do not show in a text.**  Two expressions of
an output are the same, whatever the path, the limit and the bounds; a program stays as it
is under a higher limit; and with a limit for all nodes of the graph a data cycle is
reported with a path that ends where it starts. -/
theorem text_free_of_limit (c : Catalog) (g : Graph) (now : Moment) :
    (∀ n p path₁ path₂ limit₁ limit₂ b₁ b₂ text₁ text₂,
      expressionWithin b₁ c g limit₁ path₁ n p = .ok text₁ →
      expressionWithin b₂ c g limit₂ path₂ n p = .ok text₂ → text₁ = text₂) ∧
    (∀ b, ∀ d d' : Int, d ≤ d' → ∀ program, sourceWithin b c g (.int d) now = .ok program →
      sourceWithin b c g (.int d') now = .ok program) ∧
    (∀ b, ∀ d : Int, g.nodes.length ≤ d → ∀ fault,
      sourceWithin b c g (.int d) now = .error fault → fault.isDataCycle = true →
      ∃ first between last, fault = .dataCycle (first :: (between ++ [last])) ∧
        first.same last = true) := by
  refine ⟨?_, ?_, ?_⟩
  · intro n p path₁ path₂ limit₁ limit₂ b₁ b₂ text₁ text₂ h₁ h₂
    exact expressionWithin_eq_of_ok h₁ h₂
  · intro b d d' hd program hrun
    exact sourceWithin_mono hd hrun
  · intro b d hd fault hrun hcycle
    exact sourceWithin_loops hd hrun hcycle

/-- The notes and steps with a link back between the notes. -/
def loopedNotes : Graph :=
  { noteGraph with links := noteGraph.links ++ [⟨.int 3, ⟨.int 1, .output, 0⟩, ⟨.int 0, .input, 0⟩⟩] }

/-- Two notes need a limit of two, and neither a higher one nor another path changes
what comes out.  In a loop they are reported with both its ends. -/
theorem text_free_of_limit_notes :
    (∀ path limit text, expressionWithin .free noteCatalog noteGraph limit path (noteNode "note" 1)
        (((noteNode "note" 1).ports .output).headD default) = .ok text →
      text = "'$5 each''$5 each'".toList) ∧
    (∃ program, sourceWithin Nesting.direct.ofText noteCatalog noteGraph (.int 2)
        (.ofUnixMilliseconds 0) = .ok program ∧
      sourceWithin Nesting.direct.ofText noteCatalog noteGraph (.int 256)
        (.ofUnixMilliseconds 0) = .ok program) ∧
    ∃ first between last, sourceWithin Nesting.direct.ofText noteCatalog loopedNotes (.int 4)
        (.ofUnixMilliseconds 0) = .error (.dataCycle (first :: (between ++ [last]))) ∧
      first.same last = true := by
  refine ⟨?_, ?_, ?_⟩
  · intro path limit text htext
    have hshort : expressionWithin Nesting.direct.ofText noteCatalog noteGraph (.int 3) [.int 9]
        (noteNode "note" 1) (((noteNode "note" 1).ports .output).headD default) =
          .ok "'$5 each''$5 each'".toList :=
      eq_ok_of_toOption (by decide +kernel)
    exact (text_free_of_limit noteCatalog noteGraph (.ofUnixMilliseconds 0)).1
      _ _ _ _ _ _ _ _ _ _ htext hshort
  · have htwo : ∃ program, sourceWithin Nesting.direct.ofText noteCatalog noteGraph (.int 2)
        (.ofUnixMilliseconds 0) = .ok program := exists_ok_of_toBool (by decide +kernel)
    obtain ⟨program, hprogram⟩ := htwo
    exact ⟨program, hprogram,
      (text_free_of_limit noteCatalog noteGraph _).2.1 _ 2 256 (by decide) program hprogram⟩
  · have hloop : ∃ fault, sourceWithin Nesting.direct.ofText noteCatalog loopedNotes (.int 4)
        (.ofUnixMilliseconds 0) = .error fault ∧ fault.isDataCycle = true :=
      exists_error_of_failsWith (by decide +kernel)
    obtain ⟨fault, hfault, hcycle⟩ := hloop
    obtain ⟨first, between, last, rfl, hsame⟩ :=
      (text_free_of_limit noteCatalog loopedNotes _).2.2 _ 4 (by decide) fault hfault hcycle
    exact ⟨first, between, last, hfault, hsame⟩

end NodeWeave.Program
