import Mathlib.Data.List.Pairwise
import NodeWeave.Proofs.ClosedText
import NodeWeave.Proofs.ExecChain
import NodeWeave.Proofs.WellFormed

/-!
# The order of data links

What the links into a node bring is filled in one after the other, and each time the
whole text is gone over again.  In a `PlainProgram` the order does not show: the
template stays closed, what is put in is inert, and no two links of a well-formed
graph fill in the same name, so two neighbours in the list may change places
(`fill_comm`, `foldl_perm`).

`Relinked` graphs have the same nodes and links, with the control-flow links in the
same order.  What comes out for one comes out for the other (`Relinked.expressionIn`,
`Relinked.carries`), and the relation is symmetric, so both fail or none does.  Where
names are texts, a data cycle and the bounds are the only ways to fail.
-/

namespace NodeWeave

namespace Template

/-- A placeholder stands behind the `$`, with none of the characters of a placeholder
in its name. -/
def startsPlain (rest : List Char) : Bool :=
  (placeholderName? ('$' :: rest)).any fun name => !name.contains '$' && !name.contains '\x7b'

/-- Each `$` starts a placeholder, and no placeholder has another one in its name. -/
def isPlain (text : List Char) : Bool :=
  behind startsPlain text

theorem isClosed_of_plain {text : List Char} (hplain : isPlain text = true) :
    isClosed text = true := by
  refine behind_mono (fun rest hrest => ?_) hplain
  obtain ⟨name, hname, hfree⟩ := (Option.any_eq_true _ _).mp hrest
  refine Bool.or_eq_true_iff.mpr (Or.inr ((Option.any_eq_true _ _).mpr ⟨name, hname, ?_⟩))
  exact (Bool.and_eq_true_iff.mp hfree).1

end Template

theorem Scalar.dollar_not_mem_display (i : Int) : '$' ∉ (Scalar.int i).display.toList := by
  have hdigits : ∀ n : Nat, '$' ∉ n.repr.toList := by
    intro n hmem
    have hdigit := Nat.isDigit_of_mem_toDigits (by decide) (by decide)
      (show '$' ∈ Nat.toDigits 10 n by simpa [Nat.repr] using hmem)
    cases hdigit
  show '$' ∉ (toString i).toList
  rw [Int.toString_eq_repr]
  cases i with
  | ofNat n => exact hdigits n
  | negSucc n =>
      simp only [Int.repr, String.toList_append, List.mem_append, not_or]
      exact ⟨by decide, hdigits _⟩

namespace Graph

variable {g h : Graph} {l m : Link}

/-- No two data inputs of a node have the same name. -/
def DistinctInputs (g : Graph) : Prop :=
  ∀ n ∈ g.nodes, (n.ports .input).Pairwise fun p q =>
    p.isExec = true ∨ q.isExec = true ∨ p.name.isNull = true ∨ q.name.isNull = true ∨
      p.nameText ≠ q.nameText

instance (g : Graph) : Decidable g.DistinctInputs :=
  inferInstanceAs (Decidable (∀ n ∈ g.nodes, (n.ports .input).Pairwise _))

theorem Clash.symm (hclash : g.Clash l m) : g.Clash m l := by
  rcases hclash with ⟨hsource, hexec⟩ | ⟨htarget, hdata⟩
  · refine Or.inl ⟨hsource.symm, ?_⟩
    rw [IsExecAt, ← kindAt_congr g hsource]
    exact hexec
  · refine Or.inr ⟨htarget.symm, ?_⟩
    rw [IsExecAt, ← kindAt_congr g htarget]
    exact hdata

theorem WellFormed.not_clash (hwell : g.WellFormed) (hl : l ∈ g.links) (hm : m ∈ g.links)
    (hne : l ≠ m) : ¬ g.Clash l m := by
  have hsymm : Std.Symm fun l m => ¬ g.Clash l m := ⟨fun _ _ hno hclash => hno hclash.symm⟩
  exact (wellFormed_iff.mp hwell).2.forall hl hm hne

end Graph

namespace Program

open Template

variable {b : Bounds} {c : Catalog} {g h : Graph} {limit : Value} {n : Node} {p : Port}
  {l m : Link} {path visited : List Scalar} {code text filled : List Char} {room : Nat} {fault : Fault}

/-- **Programs in which no text gets in the way of another.**  The graph is
well-formed, the names of its data inputs are different texts without a mark of a
placeholder, each `$` of a template starts a placeholder with such a name, the values
have no `$`, and the ids are whole numbers. -/
structure PlainProgram (c : Catalog) (g : Graph) : Prop where
  wellFormed : g.WellFormed
  names : g.TextNames
  marks : g.NamesAvoid ['$', '\x7b', '\x7d']
  inputs : g.DistinctInputs
  codes : ∀ n ∈ g.nodes, ∀ code ∈ codesOf c n, isPlain code = true
  values : ∀ n ∈ g.nodes, ∀ text ∈ valueText? n, '$' ∉ text
  ids : ∀ n ∈ g.nodes, n.id.toValue.isInt = true

instance (c : Catalog) (g : Graph) : Decidable (PlainProgram c g) :=
  decidable_of_iff (g.WellFormed ∧ g.TextNames ∧ g.NamesAvoid ['$', '\x7b', '\x7d'] ∧
      g.DistinctInputs ∧ (∀ n ∈ g.nodes, ∀ code ∈ codesOf c n, isPlain code = true) ∧
      (∀ n ∈ g.nodes, ∀ text ∈ valueText? n, '$' ∉ text) ∧
      ∀ n ∈ g.nodes, n.id.toValue.isInt = true)
    ⟨fun ⟨wellFormed, names, marks, inputs, codes, values, ids⟩ =>
        ⟨wellFormed, names, marks, inputs, codes, values, ids⟩,
      fun h => ⟨h.wellFormed, h.names, h.marks, h.inputs, h.codes, h.values, h.ids⟩⟩

theorem PlainProgram.madeOf (hplain : PlainProgram c g) : MadeOf startsClosed c g where
  codes := fun n hn code hcode => isClosed_of_plain (hplain.codes n hn code hcode)
  values := fun n hn text htext => behind_of_not_mem (hplain.values n hn text htext)
  ids := by
    intro n hn
    have hint := hplain.ids n hn
    cases hid : n.id with
    | int i => exact behind_of_not_mem (Scalar.dollar_not_mem_display i)
    | _ =>
        rw [hid] at hint
        cases hint

/-- Does the link carry control flow? -/
def carriesFlow (g : Graph) (l : Link) : Bool :=
  decide (g.IsExecAt l.source)

/-- **The same nodes and links**, with those that carry control flow in the same
order. -/
structure Relinked (g h : Graph) : Prop where
  nodes : h.nodes = g.nodes
  links : h.links.Perm g.links
  flow : h.links.filter (carriesFlow g) = g.links.filter (carriesFlow g)

/-! ## What a link fills in -/

/-- The name and the text that a link fills in, if it fills in anything. -/
def filling? (g : Graph) (express : Node → Port → Except Fault (List Char)) (l : Link) :
    Option (List Char × List Char) :=
  match feed? g l with
  | none => none
  | some (input, producer, output) =>
    match express producer output, input.name with
    | .ok text, .str key => some (key.toList, text)
    | _, _ => none

/-- A template with what a link fills in. -/
def fillLink (g : Graph) (express : Node → Port → Except Fault (List Char)) (code : List Char)
    (l : Link) : List Char :=
  match filling? g express l with
  | none => code
  | some (key, text) => substitute code key text

section Filling

variable {express express' : Node → Port → Except Fault (List Char)}

theorem filling?_eq_some {key : List Char} (hfilling : filling? g express l = some (key, text)) :
    ∃ input t name, feed? g l = some (input, t) ∧ express t.1 t.2 = .ok text ∧
      input.name = .str name ∧ key = name.toList := by
  unfold filling? at hfilling
  split at hfilling
  · cases hfilling
  · rename_i input producer output hfeed
    split at hfilling
    · rename_i hexpress hname
      cases hfilling
      exact ⟨input, (producer, output), _, hfeed, hexpress, hname, rfl⟩
    · cases hfilling

/-- A link that could be filled in once can be filled in everywhere. -/
theorem applyLink_eq_fillLink (happly : applyLink g express code l = .ok filled)
    (template : List Char) :
    applyLink g express template l = .ok (fillLink g express template l) := by
  rcases applyLink_eq_ok.mp happly with ⟨hnone, _⟩ | ⟨input, t, text, hfeed, htext, hnamed⟩
  · simp [applyLink, fillLink, filling?, hnone]
  · refine applyLink_eq_ok.mpr (Or.inr ⟨input, t, text, hfeed, htext, applyNamed_eq_ok.mpr ?_⟩)
    rcases applyNamed_eq_ok.mp hnamed with ⟨hname, _⟩ | ⟨key, hname, _⟩
    · exact Or.inl ⟨hname, by simp [fillLink, filling?, hfeed, htext, hname]⟩
    · exact Or.inr ⟨key, hname, by simp [fillLink, filling?, hfeed, htext, hname]⟩

theorem isClosed_fillLink
    (hexpress : ∀ m ∈ g.nodes, ∀ q text, express m q = .ok text → isInert text = true)
    (hcode : isClosed code = true) : isClosed (fillLink g express code l) = true := by
  unfold fillLink
  split
  · exact hcode
  · rename_i key text hfilling
    obtain ⟨input, t, name, hfeed, htext, _⟩ := filling?_eq_some hfilling
    exact firm_closed.behind_substitute hcode
      (isClosed_of_inert (hexpress t.1 (producer_mem hfeed) t.2 text htext))

theorem getElem?_pairwise {α : Type} {R : α → α → Prop} {xs : List α} (hpairs : xs.Pairwise R)
    (hsymm : ∀ {a b}, R a b → R b a) {i j : Nat} {a b : α} (ha : xs[i]? = some a)
    (hb : xs[j]? = some b) (hne : i ≠ j) : R a b := by
  obtain ⟨hi, rfl⟩ := List.getElem?_eq_some_iff.mp ha
  obtain ⟨hj, rfl⟩ := List.getElem?_eq_some_iff.mp hb
  rcases Nat.lt_or_gt_of_ne hne with hlt | hgt
  · exact List.pairwise_iff_getElem.mp hpairs i j hi hj hlt
  · exact hsymm (List.pairwise_iff_getElem.mp hpairs j i hj hi hgt)

/-- **Two links into a node fill in different names**: they end at different inputs of
the node. -/
theorem PlainProgram.names_differ (hplain : PlainProgram c g) (hl : l ∈ g.linksInto n.id)
    (hm : m ∈ g.linksInto n.id) (hne : l ≠ m) {input input' : Port} {t t' : Node × Port}
    (hfeed : feed? g l = some (input, t)) (hfeed' : feed? g m = some (input', t'))
    {name name' : String} (hname : input.name = .str name) (hname' : input'.name = .str name') :
    name.toList ≠ name'.toList := by
  obtain ⟨hlink, hnode⟩ := List.mem_filter.mp hl
  obtain ⟨hlink', hnode'⟩ := List.mem_filter.mp hm
  obtain ⟨hport, hdata, _⟩ := feed?_eq_some.mp hfeed
  obtain ⟨hport', hdata', _⟩ := feed?_eq_some.mp hfeed'
  have hside := (hplain.wellFormed.sound l hlink).target_input
  have hside' := (hplain.wellFormed.sound m hlink').target_input
  have hkey : l.target.node.key = m.target.node.key :=
    (Scalar.same_iff.mp hnode).trans (Scalar.same_iff.mp hnode').symm
  have hindex : l.target.index ≠ m.target.index := by
    intro heq
    apply hplain.wellFormed.not_clash hlink hlink' hne
    refine Or.inr ⟨by simp [PortRef.address, hkey, hside, hside', heq], ?_⟩
    intro hexec
    have htest := Graph.isExec_iff.mpr hexec
    simp [hport, hdata] at htest
  obtain ⟨k, hk, hp⟩ := Option.bind_eq_some_iff.mp hport
  obtain ⟨k', hk', hp'⟩ := Option.bind_eq_some_iff.mp hport'
  rw [← Graph.node?_congr g hkey, hk] at hk'
  cases hk'
  unfold Node.port? at hp hp'
  rw [hside] at hp
  rw [hside'] at hp'
  split at hp
  · split at hp'
    · have hplace : l.target.index.toNat ≠ m.target.index.toNat := by omega
      have hdistinct := getElem?_pairwise (hplain.inputs k (Graph.node?_mem hk))
        (fun {a b} hab => by tauto) hp hp' hplace
      simpa [hdata, hdata', hname, hname', Value.isNull, Port.nameText] using hdistinct
    · cases hp'
  · cases hp

/-- **Neighbours may change places.** -/
theorem PlainProgram.fillLink_comm (hplain : PlainProgram c g)
    (hexpress : ∀ m ∈ g.nodes, ∀ q text, express m q = .ok text → isInert text = true)
    (hl : l ∈ g.linksInto n.id) (hm : m ∈ g.linksInto n.id) (hcode : isClosed code = true) :
    fillLink g express (fillLink g express code l) m =
      fillLink g express (fillLink g express code m) l := by
  by_cases hne : l = m
  · rw [hne]
  · unfold fillLink
    cases hfirst : filling? g express l with
    | none => rfl
    | some first =>
        cases hsecond : filling? g express m with
        | none => rfl
        | some second =>
            obtain ⟨input, t, name, hfeed, htext, hname, hkey⟩ := filling?_eq_some hfirst
            obtain ⟨input', t', name', hfeed', htext', hname', hkey'⟩ := filling?_eq_some hsecond
            have hmark : '\x7d' ∈ ['$', '\x7b', '\x7d'] := by simp
            have hfree := hplain.marks.not_mem (feed?_eq_some.mp hfeed).1 hname hmark
            have hfree' := hplain.marks.not_mem (feed?_eq_some.mp hfeed').1 hname' hmark
            have hdiffer := hplain.names_differ hl hm hne hfeed hfeed' hname hname'
            dsimp only
            rw [hkey, hkey']
            exact substitute_comm hcode hfree hfree' hdiffer
              (hexpress t.1 (producer_mem hfeed) t.2 _ htext)
              (hexpress t'.1 (producer_mem hfeed') t'.2 _ htext')

end Filling

/-- A run over a list in another order, where steps may change places as long as an
invariant holds. -/
theorem foldl_perm {α β : Type} {f : β → α → β} {P : β → Prop} {xs ys : List α}
    (hperm : xs.Perm ys) (hkeep : ∀ a ∈ xs, ∀ b, P b → P (f b a))
    (hcomm : ∀ a ∈ xs, ∀ a' ∈ xs, ∀ b, P b → f (f b a) a' = f (f b a') a) {b : β} (hb : P b) :
    xs.foldl f b = ys.foldl f b := by
  induction hperm generalizing b with
  | nil => rfl
  | cons a _ ih =>
      rw [List.foldl_cons, List.foldl_cons]
      refine ih (fun x hx => hkeep x (List.mem_cons_of_mem a hx)) (fun x hx y hy => ?_)
        (hkeep a List.mem_cons_self b hb)
      exact hcomm x (List.mem_cons_of_mem a hx) y (List.mem_cons_of_mem a hy)
  | swap a a' rest =>
      simp only [List.foldl_cons]
      rw [hcomm a' (by simp) a (by simp) b hb]
  | trans hfirst _ ihfirst ihsecond =>
      rw [ihfirst hkeep hcomm hb]
      refine ihsecond (fun x hx => hkeep x (hfirst.mem_iff.mpr hx)) (fun x hx y hy => ?_) hb
      exact hcomm x (hfirst.mem_iff.mpr hx) y (hfirst.mem_iff.mpr hy)

/-! ## Graphs with the same links -/

namespace Relinked

theorem node?_eq (hrel : Relinked g h) : h.node? = g.node? := by
  funext id
  rw [Graph.node?, Graph.node?, hrel.nodes]

theorem port?_eq (hrel : Relinked g h) : h.port? = g.port? := by
  funext r
  rw [Graph.port?, Graph.port?, hrel.node?_eq]

theorem kindAt_eq (hrel : Relinked g h) : h.kindAt = g.kindAt := by
  funext r
  rw [Graph.kindAt, Graph.kindAt, hrel.port?_eq]

theorem feed?_eq (hrel : Relinked g h) : feed? h = feed? g := by
  funext l
  rw [feed?, feed?, hrel.port?_eq, hrel.node?_eq]

theorem follow?_eq (hrel : Relinked g h) : follow? h = follow? g := by
  funext l
  rw [follow?, follow?, hrel.port?_eq, hrel.node?_eq]

theorem carriesFlow_eq (hrel : Relinked g h) : carriesFlow h = carriesFlow g := by
  funext l
  refine decide_eq_decide.mpr ?_
  rw [Graph.IsExecAt, Graph.IsExecAt, hrel.kindAt_eq]

theorem symm (hrel : Relinked g h) : Relinked h g where
  nodes := hrel.nodes.symm
  links := hrel.links.symm
  flow := by rw [hrel.carriesFlow_eq, hrel.flow]

theorem wellFormed (hrel : Relinked g h) (hwell : g.WellFormed) : h.WellFormed := by
  obtain ⟨hsound, hclash⟩ := Graph.wellFormed_iff.mp hwell
  refine Graph.wellFormed_iff.mpr ⟨fun l hl => ?_, ?_⟩
  · exact (hsound l (hrel.links.mem_iff.mp hl)).congr (by rw [hrel.kindAt_eq])
      (by rw [hrel.kindAt_eq])
  · have hpairs := (hrel.links.pairwise_iff fun hno hclash => hno hclash.symm).mpr hclash
    simpa only [Graph.Clash, Graph.IsExecAt, hrel.kindAt_eq] using hpairs

theorem plain (hrel : Relinked g h) (hplain : PlainProgram c g) : PlainProgram c h where
  wellFormed := hrel.wellFormed hplain.wellFormed
  names := by
    unfold Graph.TextNames
    rw [hrel.nodes]
    exact hplain.names
  marks := by
    unfold Graph.NamesAvoid
    rw [hrel.nodes]
    exact hplain.marks
  inputs := by
    unfold Graph.DistinctInputs
    rw [hrel.nodes]
    exact hplain.inputs
  codes := hrel.nodes ▸ hplain.codes
  values := hrel.nodes ▸ hplain.values
  ids := hrel.nodes ▸ hplain.ids

/-- **The links into a node in another order** bring the same. -/
theorem applyInputs (hrel : Relinked g h) (hplain : PlainProgram c g)
    {express express' : Node → Port → Except Fault (List Char)}
    (hexpress : ∀ m ∈ g.nodes, ∀ q text, express m q = .ok text →
      express' m q = .ok text ∧ isInert text = true)
    (hcode : isClosed code = true) (happly : applyInputs g express n code = .ok filled) :
    Program.applyInputs h express' n code = .ok filled := by
  have hinert : ∀ m ∈ g.nodes, ∀ q text, express m q = .ok text → isInert text = true :=
    fun m hm q text htext => (hexpress m hm q text htext).2
  have hsteps : ∀ l ∈ g.linksInto n.id, ∀ template,
      applyLink g express template l = .ok (fillLink g express template l) := by
    intro l hl template
    obtain ⟨before, after, hstep⟩ := exists_step_of_foldlM happly hl
    exact applyLink_eq_fillLink hstep template
  have hperm : (g.linksInto n.id).Perm (h.linksInto n.id) := hrel.links.symm.filter _
  have hsteps' : ∀ l ∈ h.linksInto n.id, ∀ template,
      applyLink h express' template l = .ok (fillLink g express template l) := by
    intro l hl template
    have hsame : applyLink h express' = applyLink g express' := by
      funext code l
      rw [applyLink, applyLink, hrel.feed?_eq]
    rw [hsame]
    exact applyLink_mono (fun m hm q text htext => (hexpress m hm q text htext).1)
      (hsteps l (hperm.mem_iff.mpr hl) template)
  have hfilled : filled = (g.linksInto n.id).foldl (fillLink g express) code := by
    have hrun := foldlM_eq_foldl hsteps code
    exact Except.ok.inj (happly.symm.trans hrun)
  have horder : (g.linksInto n.id).foldl (fillLink g express) code =
      (h.linksInto n.id).foldl (fillLink g express) code :=
    foldl_perm (f := fillLink g express) (P := fun code => isClosed code = true) hperm
      (fun l _ code hcode => isClosed_fillLink hinert hcode)
      (fun l hl m hm code hcode => hplain.fillLink_comm hinert hl hm hcode) hcode
  rw [hfilled, horder]
  exact foldlM_eq_foldl hsteps' code

/-- **Expressions.**  The induction is on the room. -/
theorem expressionIn (hrel : Relinked g h) (hplain : PlainProgram c g) (hn : n ∈ g.nodes)
    (htext : expressionIn c g limit room b path n p = .ok text) :
    Program.expressionIn c h limit room b path n p = .ok text := by
  induction room generalizing b path n p text with
  | zero =>
      obtain ⟨_, less, hroom, _⟩ := expressionIn_eq_ok.mp htext
      cases hroom
  | succ room ih =>
      obtain ⟨hnew, less, hroom, hmade⟩ := expressionIn_eq_ok.mp htext
      cases hroom
      refine expressionIn_eq_ok.mpr ⟨hnew, room, rfl, ?_⟩
      rcases hmade with hnone | ⟨code, filled, hcode, hshows, hfilled, heq⟩
      · exact Or.inl hnone
      · refine Or.inr ⟨code, filled, hcode, hshows, ?_, heq⟩
        have hclosed : isClosed (applyValue n code) = true :=
          hplain.madeOf.behind_applyValue firm_closed hn
            (hplain.madeOf.codes n hn code (outputTemplate?_mem hcode))
        refine hrel.applyInputs hplain (fun m hm q text hexpress => ?_) hclosed hfilled
        obtain ⟨below, hbelow, hexpress⟩ := Bounds.under_eq_ok.mp hexpress
        refine ⟨Bounds.under_eq_ok.mpr ⟨below, hbelow, ih hm hexpress⟩, ?_⟩
        exact tame_closed.behind_of_stripped
          (expressionIn_stripped tame_closed hplain.madeOf room hm hexpress)

/-- What feeds a statement comes out again, and has no mark of a placeholder. -/
theorem supplyWithin (hrel : Relinked g h) (hplain : PlainProgram c g) (hn : n ∈ g.nodes)
    (htext : supplyWithin b c g limit n p = .ok text) :
    Program.supplyWithin b c h limit n p = .ok text ∧ isInert text = true := by
  have hroom : roomFor h limit [] = roomFor g limit [] := by
    rw [roomFor, roomFor, hrel.nodes]
  obtain ⟨below, hbelow, htext⟩ := Bounds.under_eq_ok.mp htext
  refine ⟨Bounds.under_eq_ok.mpr ⟨below, hbelow, ?_⟩, tame_closed.behind_of_stripped
    (expressionIn_stripped tame_closed hplain.madeOf _ hn htext)⟩
  unfold expressionWithin
  rw [hroom]
  exact hrel.expressionIn hplain hn htext

/-- Links that carry no control flow have no part in the blocks. -/
theorem foldlM_applyFlow {write : List Scalar → Node → Except Fault (List Char × List Scalar)}
    (links : List Link) (s : List Char × List Scalar) :
    links.foldlM (applyFlow g write) s =
      (links.filter (carriesFlow g)).foldlM (applyFlow g write) s := by
  induction links generalizing s with
  | nil => rfl
  | cons l rest ih =>
      cases hflow : carriesFlow g l with
      | true =>
          rw [List.filter_cons_of_pos hflow, List.foldlM_cons, List.foldlM_cons]
          exact bind_congr ih
      | false =>
          have hnone : follow? g l = none := by
            rw [Option.eq_none_iff_forall_ne_some]
            intro found hfound
            obtain ⟨hport, hexec, _⟩ := follow?_eq_some.mp hfound
            have hat : g.IsExecAt l.source := Graph.isExec_iff.mp (by simp [hport, hexec])
            simp [carriesFlow, hat] at hflow
          have hidle : applyFlow g write s l = .ok s := by simp [applyFlow, hnone]
          rw [List.filter_cons_of_neg (by simp [hflow]), List.foldlM_cons, hidle]
          exact ih s

theorem linksOutOf_flow (hrel : Relinked g h) (id : Scalar) :
    (h.linksOutOf id).filter (carriesFlow g) = (g.linksOutOf id).filter (carriesFlow g) := by
  simp only [Graph.linksOutOf, List.filter_filter, Bool.and_comm (carriesFlow g _)]
  rw [← List.filter_filter, ← List.filter_filter, hrel.flow]

theorem entryNodes_eq (hrel : Relinked g h) : entryNodes c h = entryNodes c g := by
  have hreached : ∀ n, isReached h n = isReached g n := by
    intro n
    rw [isReached, isReached, hrel.port?_eq]
    exact (hrel.links.filter _).any_eq
  rw [entryNodes, entryNodes, hrel.nodes]
  simp only [hreached]

/-- **Statements and programs.**  The links that carry control flow are followed in the
same order. -/
theorem carries (hrel : Relinked g h) (hplain : PlainProgram c g) : Carries c g limit h limit where
  size := by rw [hrel.nodes]
  entries := hrel.entryNodes_eq
  flow := by
    intro write id s
    have hflow : applyFlow h write = applyFlow g write := by
      funext s l
      rw [applyFlow, applyFlow, hrel.follow?_eq]
    rw [hflow, foldlM_applyFlow, hrel.linksOutOf_flow, ← foldlM_applyFlow]
  inputs := by
    intro b n hn code filled hcode hfilled
    have hclosed : isClosed (applyValue n code) = true :=
      hplain.madeOf.behind_applyValue firm_closed hn
        (hplain.madeOf.codes n hn code (statementTemplate?_mem hcode))
    exact hrel.applyInputs hplain (fun m hm q text htext => hrel.supplyWithin hplain hm htext)
      hclosed hfilled

end Relinked

/-- **The order of the data links does not matter.**  With its links in another order,
but the control flow in the same one, a plain program has the same text, or both have no
entry point, or both orders fail: they lead into a data cycle, or out of the bounds.
Without bounds, both lead into a data cycle. -/
theorem body_free_of_link_order (hplain : PlainProgram c g) (hrel : Relinked g h) (d : Int)
    (b : Bounds) :
    (∃ text, bodyWithin b c g (.int d) = .ok text ∧ bodyWithin b c h (.int d) = .ok text) ∨
    ((∃ fault, bodyWithin b c g (.int d) = .error fault ∧
        (fault.isDataCycle = true ∨ b.Causes fault)) ∧
      ∃ fault, bodyWithin b c h (.int d) = .error fault ∧
        (fault.isDataCycle = true ∨ b.Causes fault)) ∨
    (bodyWithin b c g (.int d) = .error .noEntryPoint ∧
      bodyWithin b c h (.int d) = .error .noEntryPoint) := by
  cases hg : bodyWithin b c g (.int d) with
  | ok text => exact Or.inl ⟨text, rfl, (hrel.carries hplain).bodyWithin hg⟩
  | error fault =>
      cases hh : bodyWithin b c h (.int d) with
      | ok text =>
          rw [(hrel.symm.carries (hrel.plain hplain)).bodyWithin hh] at hg
          cases hg
      | error fault' =>
          have hfault := bodyWithin_eq_error hplain.names hg
          have hfault' := bodyWithin_eq_error (hrel.plain hplain).names hh
          rw [hrel.entryNodes_eq] at hfault'
          rcases hfault with ⟨hnone, rfl⟩ | ⟨hsome, hcycle⟩
          · rcases hfault' with ⟨_, rfl⟩ | ⟨hsome, _⟩
            · exact Or.inr (Or.inr ⟨rfl, rfl⟩)
            · exact absurd hnone hsome
          · rcases hfault' with ⟨hnone, _⟩ | ⟨_, hcycle'⟩
            · exact absurd hnone hsome
            · exact Or.inr (Or.inl ⟨⟨fault, rfl, hcycle⟩, fault', rfl, hcycle'⟩)

/-- Two notes that are brought to one step, the second one also to the next step. -/
def chorus : Graph :=
  let link (id source target : Int) (place : Int) : Link :=
    ⟨.int id, ⟨.int source, .output, 0⟩, ⟨.int target, .input, place⟩⟩
  { nodes := [{ noteNode "note" 0 with value := .str "one" },
      { noteNode "note" 1 with value := .str "two" }, noteNode "say" 2, noteNode "say" 3]
    links := [link 0 0 2 1, link 1 1 2 2, link 2 2 3 0, link 3 1 3 1] }

/-- The same with the links in the opposite order. -/
def chorusBackwards : Graph :=
  { chorus with links := chorus.links.reverse }

/-- Both orders of the notes give the same program. -/
theorem body_free_of_link_order_chorus :
    PlainProgram noteCatalog chorus ∧ Relinked chorus chorusBackwards ∧
      ∃ text, bodyWithin Nesting.direct.ofText noteCatalog chorus (.int 256) = .ok text ∧
        bodyWithin Nesting.direct.ofText noteCatalog chorusBackwards (.int 256) = .ok text := by
  have hplain : PlainProgram noteCatalog chorus := by decide +kernel
  have hrel : Relinked chorus chorusBackwards :=
    ⟨rfl, List.reverse_perm _, by decide +kernel⟩
  have hbody : bodyWithin Nesting.direct.ofText noteCatalog chorus (.int 256) =
      .ok "say2('one''two');\n  say3('two');".toList :=
    eq_ok_of_toOption (by decide +kernel)
  rcases body_free_of_link_order hplain hrel 256 Nesting.direct.ofText with
    hsame | ⟨⟨fault, hfault, _⟩, _⟩ | ⟨hfault, _⟩
  · exact ⟨hplain, hrel, hsame⟩
  · rw [hbody] at hfault
    cases hfault
  · rw [hbody] at hfault
    cases hfault

/-! ## Ladders are plain programs -/

theorem wellFormed_ladder (steps : Nat) : (ladder steps).WellFormed := by
  have hkinds : ∀ {i}, i < steps → (ladder steps).kindAt (rungLink i).source = some Kind.exec ∧
      (ladder steps).kindAt (rungLink i).target = some Kind.exec := by
    intro i hi
    simp only [Graph.kindAt, rungLink, ladder_output (Nat.le_of_lt hi), ladder_input hi]
    exact ⟨rfl, rfl⟩
  refine Graph.wellFormed_iff.mpr ⟨fun l hl => ?_, ?_⟩
  · obtain ⟨i, hi, rfl⟩ := List.mem_map.mp hl
    obtain ⟨hsource, htarget⟩ := hkinds (List.mem_range.mp hi)
    refine ⟨rfl, rfl, fun hkeys => ?_, _, _, hsource, htarget, rfl⟩
    have hid := rungId_key_inj.mp hkeys
    omega
  · refine List.pairwise_map.mpr (List.nodup_range.imp_of_mem fun {i j} hi _ hne => ?_)
    rintro (⟨hsource, _⟩ | ⟨_, hdata⟩)
    · exact hne (rungId_key_inj.mp (congrArg Prod.fst hsource))
    · exact hdata (hkinds (List.mem_range.mp hi)).2

theorem plainProgram_ladder (steps : Nat) :
    PlainProgram (ladderCatalog oneLine twoLines) (ladder steps) where
  wellFormed := wellFormed_ladder steps
  names := by
    intro n hn
    obtain ⟨i, _, rfl⟩ := List.mem_map.mp hn
    show ∀ p ∈ (rung 0 0).ports .input ++ (rung 0 0).ports .output, _
    decide
  marks := by
    intro n hn
    obtain ⟨i, _, rfl⟩ := List.mem_map.mp hn
    show ∀ p ∈ (rung 0 0).ports .input ++ (rung 0 0).ports .output, _
    decide
  inputs := by
    intro n hn
    obtain ⟨i, _, rfl⟩ := List.mem_map.mp hn
    show ((rung 0 0).ports .input).Pairwise _
    exact List.pairwise_singleton _ _
  codes := by
    intro n hn
    obtain ⟨i, _, rfl⟩ := List.mem_map.mp hn
    by_cases hi : i < steps
    · have hcodes : ∀ code ∈ codesOf (ladderCatalog oneLine twoLines) (rung 1 0),
          isPlain code = true := by decide +kernel
      simpa only [codesOf, typeOf, rung, hi, Nat.zero_lt_one] using hcodes
    · have hcodes : ∀ code ∈ codesOf (ladderCatalog oneLine twoLines) (rung 0 0),
          isPlain code = true := by decide +kernel
      simpa only [codesOf, typeOf, rung, hi, Nat.lt_irrefl] using hcodes
  values := by
    intro n hn text htext
    obtain ⟨i, _, rfl⟩ := List.mem_map.mp hn
    cases htext
  ids := by
    intro n hn
    obtain ⟨i, _, rfl⟩ := List.mem_map.mp hn
    rfl

/-- A ladder of a thousand rungs is a plain program, but one that has no text, and neither a
data cycle nor the lack of an entry point is the reason. -/
theorem body_free_of_link_order_tooDeep :
    PlainProgram (ladderCatalog oneLine twoLines) (ladder 999) ∧
      Relinked (ladder 999) (ladder 999) ∧
      bodyWithin Nesting.direct.ofText (ladderCatalog oneLine twoLines) (ladder 999) (.int 256) =
        .error .tooDeep := by
  have hchain : Chain (ladderCatalog oneLine twoLines) (ladder 999)
      ((List.range 1000).map (rungStage oneLine twoLines 999)) :=
    chain_ladder (by decide) (by decide) (by decide +kernel) (by decide +kernel) 999
  refine ⟨plainProgram_ladder 999, ⟨rfl, List.Perm.refl _, rfl⟩, ?_⟩
  refine hchain.bodyWithin_tooDeep (.int 256) rfl ?_
  rw [List.length_map, List.length_range]
  decide

end Program

end NodeWeave
