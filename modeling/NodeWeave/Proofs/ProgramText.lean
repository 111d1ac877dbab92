import NodeWeave.Proofs.DollarSigns
import NodeWeave.Proofs.ProgramSteps

/-!
# Where the text of a program comes from

Every text of a program is made from the templates, the values and the ids of its
nodes, by filling in, splicing and stripping.  So a property of texts that these three
keep is one of the program as soon as it is one of its sources: `Lasting` is what it
takes, `SourcesIn` where it starts, and the induction is on the room of the recursion,
with one step for each link (`draft_applyLink`, `draft_applyFlow`).

The simplest case is that of the characters: a program has no others than its sources,
line breaks apart (`all_bodyWithin`).
-/

namespace NodeWeave

/-- **A property that lasts.**  A draft may be filled in with drafts and spliced with
final texts, and stripping makes it final. -/
structure Template.Lasting (draft final : List Char → Prop) : Prop where
  nil : draft []
  substitute : ∀ {code name text}, draft code → draft text → draft (substitute code name text)
  splice : ∀ {code name block}, draft code → final block → draft (splice code name block)
  strip : ∀ {text}, draft text → final (strip text)
  weaken : ∀ {text}, final text → draft text

namespace Program

open Template

variable {draft final : List Char → Prop} {b : Bounds} {c : Catalog} {g : Graph} {limit : Value}
  {n : Node} {p : Port} {l : Link} {path visited : List Scalar} {code text filled : List Char}

/-- The templates of the ports of a node. -/
def codesOf (c : Catalog) (n : Node) : List (List Char) :=
  ((typeOf c n).map fun type => (type.inputs ++ type.outputs).filterMap fun d =>
    d.code.map String.toList).getD []

/-- The text of the value of a node, if it has one. -/
def valueText? (n : Node) : Option (List Char) :=
  if n.slot.isSome && !n.value.isNull then some (renderValue n.value).toList else none

/-- The templates, the values and the ids of a graph have a property. -/
structure SourcesIn (draft : List Char → Prop) (c : Catalog) (g : Graph) : Prop where
  codes : ∀ n ∈ g.nodes, ∀ code ∈ codesOf c n, draft code
  values : ∀ n ∈ g.nodes, ∀ text ∈ valueText? n, draft text
  ids : ∀ n ∈ g.nodes, draft n.id.display.toList

theorem mem_codesOf {type : NodeType} {d : PortDef} {code : String} (htype : typeOf c n = some type)
    (hd : d ∈ type.inputs ++ type.outputs) (hcode : d.code = some code) :
    code.toList ∈ codesOf c n := by
  simp only [codesOf, htype, Option.map_some, Option.getD_some]
  exact List.mem_filterMap.mpr ⟨d, hd, by rw [hcode]; rfl⟩

theorem outputTemplate?_mem (hcode : outputTemplate? c n p = some code) : code ∈ codesOf c n := by
  obtain ⟨type, htype, hcode⟩ := Option.bind_eq_some_iff.mp hcode
  obtain ⟨d, hd, hcode⟩ := Option.bind_eq_some_iff.mp hcode
  obtain ⟨text, htext, hcode⟩ := Option.bind_eq_some_iff.mp hcode
  cases hcode
  refine mem_codesOf htype (List.mem_append_right _ ?_) htext
  unfold NodeType.findOutput at hd
  rcases Option.or_eq_some_iff.mp hd with hd | ⟨_, hd⟩
  · split at hd
    · cases hd
    · exact List.mem_of_find?_eq_some hd
  · exact List.mem_of_find?_eq_some hd

theorem statementTemplate?_mem (hcode : statementTemplate? c n = some code) :
    code ∈ codesOf c n := by
  obtain ⟨type, htype, hcode⟩ := Option.bind_eq_some_iff.mp hcode
  obtain ⟨d, hd, hcode⟩ := Option.bind_eq_some_iff.mp hcode
  obtain ⟨text, htext, hcode⟩ := Option.bind_eq_some_iff.mp hcode
  cases hcode
  exact mem_codesOf htype (List.mem_append_left _ (List.mem_of_find?_eq_some hd)) htext

theorem applyValue_eq (n : Node) (code : List Char) :
    applyValue n code = ((valueText? n).map (substitute code "value".toList)).getD code := by
  unfold applyValue valueText?
  split <;> rfl

variable (hlasting : Lasting draft final) (hsources : SourcesIn draft c g)

include hlasting

theorem draft_of_stripped (htext : ∃ filled, draft filled ∧ text = strip filled) : draft text := by
  obtain ⟨filled, hfilled, rfl⟩ := htext
  exact hlasting.weaken (hlasting.strip hfilled)

/-- What one link into a node brings. -/
theorem draft_applyLink {express : Node → Port → Except Fault (List Char)}
    (hexpress : ∀ m ∈ g.nodes, ∀ q text, express m q = .ok text → draft text)
    (hcode : draft code) (happly : applyLink g express code l = .ok filled) : draft filled := by
  rcases applyLink_eq_ok.mp happly with ⟨_, rfl⟩ | ⟨input, t, text, hfeed, htext, hnamed⟩
  · exact hcode
  · rcases applyNamed_eq_ok.mp hnamed with ⟨_, rfl⟩ | ⟨key, _, rfl⟩
    · exact hcode
    · exact hlasting.substitute hcode (hexpress t.1 (producer_mem hfeed) t.2 text htext)

/-- What one link out of a node leads to. -/
theorem draft_applyFlow {write : List Scalar → Node → Except Fault (List Char × List Scalar)}
    (hwrite : ∀ visited, ∀ m ∈ g.nodes, ∀ block reached, write visited m = .ok (block, reached) →
      final block)
    {s r : List Char × List Scalar} (hcode : draft s.1) (happly : applyFlow g write s l = .ok r) :
    draft r.1 := by
  rcases applyFlow_eq_ok.mp happly with
    ⟨_, rfl⟩ | ⟨output, target, block, reached, filled, hfollow, hblock, hnamed, rfl⟩
  · exact hcode
  · rcases applyNamed_eq_ok.mp hnamed with ⟨_, rfl⟩ | ⟨key, _, rfl⟩
    · exact hcode
    · exact hlasting.splice hcode (hwrite s.2 target (target_mem hfollow) block reached hblock)

theorem draft_applyInputs {express : Node → Port → Except Fault (List Char)}
    (hexpress : ∀ m ∈ g.nodes, ∀ q text, express m q = .ok text → draft text)
    (hcode : draft code) (happly : applyInputs g express n code = .ok filled) : draft filled :=
  foldlM_induct (motive := draft) happly hcode
    fun _ _ _ _ hcode happly => draft_applyLink hlasting hexpress hcode happly

include hsources

theorem draft_applyValue (hn : n ∈ g.nodes) (hcode : draft code) : draft (applyValue n code) := by
  rw [applyValue_eq]
  cases hvalue : valueText? n with
  | none => exact hcode
  | some text => exact hlasting.substitute hcode (hsources.values n hn text hvalue)

theorem draft_applyId (hn : n ∈ g.nodes) (hcode : draft code) : draft (applyId n code) :=
  hlasting.substitute hcode (hsources.ids n hn)

/-- **An expression is a stripped draft.** -/
theorem expressionIn_draft (room : Nat) (hn : n ∈ g.nodes)
    (htext : expressionIn c g limit room b path n p = .ok text) :
    ∃ filled, draft filled ∧ text = strip filled := by
  induction room generalizing b path n p text with
  | zero =>
      obtain ⟨_, less, hroom, _⟩ := expressionIn_eq_ok.mp htext
      cases hroom
  | succ room ih =>
      obtain ⟨_, less, hroom, ⟨_, rfl⟩ | ⟨code, filled, hcode, _, hfilled, rfl⟩⟩ :=
        expressionIn_eq_ok.mp htext
      · exact ⟨[], hlasting.nil, rfl⟩
      · cases hroom
        have hvalue := draft_applyValue hlasting hsources hn
          (hsources.codes n hn code (outputTemplate?_mem hcode))
        have hinputs := draft_applyInputs hlasting (fun m hm q text hexpress => by
          obtain ⟨below, _, hexpress⟩ := Bounds.under_eq_ok.mp hexpress
          exact draft_of_stripped hlasting (ih hm hexpress)) hvalue hfilled
        exact ⟨_, draft_applyId hlasting hsources hn hinputs, rfl⟩

/-- **A statement is a stripped draft.** -/
theorem statementIn_draft (room : Nat) (hn : n ∈ g.nodes) {r : List Char × List Scalar}
    (hrun : statementIn c g limit room b visited n = .ok r) :
    ∃ filled, draft filled ∧ r.1 = strip filled := by
  induction room generalizing b visited n r with
  | zero =>
      rw [statementIn_zero] at hrun
      cases hrun
      exact ⟨[], hlasting.nil, rfl⟩
  | succ room ih =>
      cases hvisited : onPath visited n.id with
      | true =>
          rw [statementIn_of_onPath hvisited] at hrun
          cases hrun
          exact ⟨[], hlasting.nil, rfl⟩
      | false =>
          rcases (statementIn_eq_ok hvisited).mp hrun with
            ⟨_, rfl⟩ | ⟨code, filled, s, hcode, _, hfilled, hs, rfl⟩
          · exact ⟨[], hlasting.nil, rfl⟩
          · have hvalue := draft_applyValue hlasting hsources hn
              (hsources.codes n hn code (statementTemplate?_mem hcode))
            have hinputs := draft_applyInputs hlasting (fun m hm q text htext => by
              obtain ⟨below, _, htext⟩ := Bounds.under_eq_ok.mp htext
              exact draft_of_stripped hlasting (expressionIn_draft hlasting hsources _ hm htext))
              hvalue hfilled
            have hwrite : ∀ visited, ∀ m ∈ g.nodes, ∀ block reached,
                (b.under 1 fun b => statementIn c g limit room b visited m) = .ok (block, reached) →
                  final block := by
              intro visited m hm block reached hblock
              obtain ⟨below, _, hblock⟩ := Bounds.under_eq_ok.mp hblock
              obtain ⟨filled, hfilled, heq⟩ := ih hm hblock
              rw [show block = strip filled from heq]
              exact hlasting.strip hfilled
            have hflow : draft s.1 :=
              foldlM_induct (motive := fun s => draft s.1) hs hinputs
                fun _ _ _ _ hs happly => draft_applyFlow hlasting hwrite hs happly
            exact ⟨_, draft_applyId hlasting hsources hn hflow, rfl⟩

/-- The blocks of a program are final texts. -/
theorem final_blocksWithin {nodes : List Node} (hnodes : ∀ n ∈ nodes, n ∈ g.nodes)
    {texts : List (List Char)} (hrun : blocksWithin b c g limit visited nodes = .ok texts) :
    ∀ text ∈ texts, final text := by
  induction nodes generalizing visited texts with
  | nil =>
      cases hrun
      simp
  | cons n rest ih =>
      obtain ⟨block, reached, others, hblock, hothers, rfl⟩ := blocksWithin_cons_eq_ok.mp hrun
      have hrest := ih (fun m hm => hnodes m (List.mem_cons_of_mem n hm)) hothers
      obtain ⟨filled, hfilled, hstrip⟩ :=
        statementIn_draft hlasting hsources _ (hnodes n List.mem_cons_self) hblock
      intro text htext
      rcases List.mem_cons.mp htext with rfl | htext
      · rw [show text = strip filled from hstrip]
        exact hlasting.strip hfilled
      · exact hrest text htext

omit hlasting hsources

end Program

/-! ## The characters of a program -/

namespace Template

variable {ok : Char → Bool} {rule : List Char → Option Cut} {text : List Char}

/-- A pass brings no new characters if what it puts in has none. -/
theorem all_apply (hadvances : Advances rule)
    (hput : ∀ text cut, text.all ok = true → rule text = some cut → cut.put.all ok = true)
    (htext : text.all ok = true) : (apply rule text).all ok = true := by
  revert htext
  refine apply_induct hadvances
    (motive := fun text result => text.all ok = true → result.all ok = true) ?_ ?_ ?_ text
  · exact id
  · intro c rest _ ih hall
    rw [List.all_cons, Bool.and_eq_true] at hall ⊢
    exact ⟨hall.1, ih hall.2⟩
  · intro c rest cut hrule ih hall
    have hrest : ((c :: rest).drop cut.taken).all ok = true :=
      List.all_eq_true.mpr fun x hx => List.all_eq_true.mp hall x (List.mem_of_mem_drop hx)
    rw [List.all_append, hput _ cut hall hrule, ih hrest]
    rfl

theorem all_placeBlock {newline indent block : List Char} (hbreak : ok '\n' = true)
    (hnewline : newline.all ok = true) (hindent : indent.all ok = true)
    (hblock : block.all ok = true) : (placeBlock newline indent block).all ok = true := by
  have hchar : ∀ c, ok c = true → (indentChar indent c).all ok = true := by
    intro c hc
    unfold indentChar
    split
    · simp [hbreak, hindent]
    · simp [hc]
  unfold placeBlock
  split
  · rfl
  · rw [indentBlock_eq, List.all_append, List.all_append, hnewline, hindent, List.all_flatMap]
    refine List.all_eq_true.mpr fun c hc => hchar c (List.all_eq_true.mp hblock c hc)

theorem all_intercalate {separator : List Char} {texts : List (List Char)}
    (hseparator : separator.all ok = true) (htexts : ∀ text ∈ texts, text.all ok = true) :
    (separator.intercalate texts).all ok = true := by
  induction texts with
  | nil => rfl
  | cons text rest ih =>
      have hrest := ih fun other hother => htexts other (List.mem_cons_of_mem text hother)
      have htext := htexts text List.mem_cons_self
      cases rest with
      | nil => simpa using htext
      | cons second others =>
          rw [List.intercalate_cons_cons, List.all_append, List.all_append, htext, hseparator,
            hrest]
          rfl

/-- **No pass brings new characters,** line breaks apart. -/
theorem lasting_all (hbreak : ok '\n' = true) :
    Lasting (fun text => text.all ok = true) (fun text => text.all ok = true) where
  nil := rfl
  substitute := by
    intro code name text hcode htext
    rw [substitute_eq_apply]
    refine all_apply (fillRule_advances name text) (fun _ cut _ hrule => ?_) hcode
    obtain ⟨_, rfl⟩ := fillRule_eq_some.mp hrule
    exact htext
  splice := by
    intro code name block hcode hblock
    refine all_apply (spliceRule_marked name block).advances
      (fun front cut hfront hrule => ?_) hcode
    obtain ⟨newline, indent, after, rfl, _, _, _, hput⟩ := spliceRule_eq_some hrule
    simp only [List.all_append, Bool.and_eq_true] at hfront
    rw [hput]
    exact all_placeBlock hbreak hfront.1 hfront.2.1 hblock
  strip := by
    intro text htext
    refine all_apply dropRule_marked.advances (fun _ cut _ hrule => ?_)
      (all_apply dropLineRule_marked.advances (fun _ cut _ hrule => ?_) htext)
    · obtain ⟨_, _, rfl⟩ := dropRule_eq_some.mp hrule
      rfl
    · obtain ⟨_, _, _, _, _, _, rfl⟩ := dropLineRule_eq_some.mp hrule
      rfl
  weaken := id

end Template

/-- **A program has no characters but those of its sources,** line breaks apart. -/
theorem Program.all_bodyWithin {ok : Char → Bool} {b : Bounds} {c : Catalog} {g : Graph} {limit : Value}
    {text : List Char} (hbreak : ok '\n' = true)
    (hsources : SourcesIn (fun text => text.all ok = true) c g)
    (hbody : bodyWithin b c g limit = .ok text) : text.all ok = true := by
  obtain ⟨_, texts, htexts, rfl⟩ := bodyWithin_eq_ok.mp hbody
  have hblocks := final_blocksWithin (Template.lasting_all hbreak) hsources
    (fun n hn => (List.mem_filter.mp hn).1) htexts
  exact Template.all_intercalate (by simp [hbreak]) fun block hblock =>
    hblocks block (List.mem_filter.mp hblock).1

end NodeWeave
