import NodeWeave.Proofs.ProgramText
import NodeWeave.Text.Utf8

/-!
# Texts without halves

A text can be written to a file unless it keeps one half of a surrogate pair.  The leads
of the halves are the first of all leads, so a single character tells whether a half is
kept there: `isHalfFree` looks at the characters one by one, and where it finds none, no
code point of the text is a half (`isHalf_points`).

Whatever is written down of a value brings no half that its texts do not have: numbers
and times have plain characters only, and the notations for messages and for documents
spell the code points of a text one after the other.
-/

namespace NodeWeave

namespace Text

/-- Is the character other than the lead of a half? -/
def isFree (c : Char) : Bool :=
  c.toNat < firstLead || firstLead + halfCount / 64 ≤ c.toNat

/-- Does the text keep no half? -/
def isHalfFree (text : String) : Bool :=
  text.toList.all isFree

variable {c : Char} {n : Nat} {cs : List Char} {done : List Nat} {s t : String}

/-- No character is a half. -/
theorem isHalf_toNat (c : Char) : isHalf c.toNat = false := by
  have hvalid : c.toNat.isValidChar := c.valid
  simp only [Nat.isValidChar] at hvalid
  simp only [isHalf, Bool.and_eq_false_iff, decide_eq_false_iff_not]
  simp only [firstHalf, halfCount]
  omega

/-- What has a place behind the halves is none. -/
theorem isHalf_ofRank {i : Nat} (h : halfCount ≤ i) : isHalf (ofRank i) = false := by
  simp only [ofRank, if_neg (Nat.not_lt.mpr h), isHalf, Bool.and_eq_false_iff,
    decide_eq_false_iff_not]
  simp only [firstHalf, halfCount, firstLead]
  omega

theorem isHalf_pointsFrom (hdone : ∀ n ∈ done, isHalf n = false) (hcs : cs.all isFree = true) :
    ∀ n ∈ pointsFrom done cs, isHalf n = false := by
  fun_induction pointsFrom done cs with
  | case1 done => simpa using hdone
  | case2 done c =>
      intro n hn
      rcases List.mem_cons.mp (List.mem_reverse.mp hn) with rfl | hn
      · exact isHalf_toNat c
      · exact hdone n hn
  | case3 done c d rest hlead ih =>
      simp only [List.all_cons, Bool.and_eq_true] at hcs
      refine ih (fun n hn => ?_) hcs.2.2
      rcases List.mem_cons.mp hn with hlast | hn
      · rw [hlast]
        apply isHalf_ofRank
        have hfree := hcs.1
        simp only [isFree, isLead, Bool.or_eq_true, Bool.and_eq_true,
          decide_eq_true_eq] at hfree hlead
        have hcount : halfCount = halfCount / 64 * 64 := rfl
        omega
      · exact hdone n hn
  | case4 done c d rest _ ih =>
      rw [List.all_cons, Bool.and_eq_true] at hcs
      refine ih (fun n hn => ?_) hcs.2
      rcases List.mem_cons.mp hn with rfl | hn
      · exact isHalf_toNat c
      · exact hdone n hn

/-- The code points of a text that keeps no half. -/
theorem isHalf_points (hcs : cs.all isFree = true) : ∀ n ∈ points cs, isHalf n = false :=
  isHalf_pointsFrom (by simp) hcs

/-- What keeps a code point that is no half. -/
theorem all_pointChars (hn : isHalf n = false) : (pointChars n).all isFree = true := by
  have hofNat : ∀ m, firstLead + halfCount / 64 ≤ m ∨ m < firstLead →
      isFree (Char.ofNat m) = true := by
    intro m hm
    by_cases hvalid : m.isValidChar
    · simp only [isFree, toNat_ofNat hvalid, Bool.or_eq_true, decide_eq_true_eq]
      omega
    · rw [Char.ofNat, dif_neg hvalid]
      rfl
  cases hrank : rank? n with
  | none =>
      have hlow : n < firstLead := by
        simp only [rank?, hn, Bool.false_eq_true, if_false] at hrank
        grind
      simp [pointChars, hrank, hofNat n (Or.inr hlow)]
  | some i =>
      have hi : halfCount ≤ i := by
        simp only [rank?, hn, Bool.false_eq_true, if_false] at hrank
        grind
      have hlead : firstLead + halfCount / 64 ≤ firstLead + i / 64 := by
        have := Nat.div_le_div_right (c := 64) hi
        omega
      have htrail : firstLead + halfCount / 64 ≤ firstTrail + i % 64 := by
        simp only [firstLead, firstTrail, halfCount]
        omega
      simp [pointChars, hrank, hofNat _ (Or.inl hlead), hofNat _ (Or.inl htrail)]

theorem isHalfFree_append : isHalfFree (s ++ t) = (isHalfFree s && isHalfFree t) := by
  simp [isHalfFree]

theorem isHalfFree_ofList : isHalfFree (String.ofList cs) = cs.all isFree := by
  simp [isHalfFree]

end Text

/-- **A text without halves can be written.** -/
theorem Utf8.exists_encode? {text : String} (h : Text.isHalfFree text = true) :
    ∃ bytes, encode? text = some bytes := by
  have hnone : (Text.points text.toList).any Text.isHalf = false :=
    List.any_eq_false.mpr fun n hn => by simp [Text.isHalf_points h n hn]
  simp [encode?, Text.toString?, hnone]

/-! ## Numbers and times -/

namespace Text

theorem isFree_digitChar (d : Nat) : isFree (Nat.digitChar d) = true := by
  by_cases hd : d < 16
  · revert d
    decide
  · have hstar : Nat.digitChar d = '*' := by
      unfold Nat.digitChar
      repeat rw [if_neg (by omega)]
    rw [hstar]
    decide

theorem all_toDigits (base n : Nat) : (Nat.toDigits base n).all isFree = true := by
  have hcore : ∀ fuel n digits, digits.all isFree = true →
      (Nat.toDigitsCore base fuel n digits).all isFree = true := by
    intro fuel
    induction fuel with
    | zero => exact fun _ _ hdigits => hdigits
    | succ fuel ih =>
        intro n digits hdigits
        have hmore : (Nat.digitChar (n % base) :: digits).all isFree = true := by
          rw [List.all_cons, isFree_digitChar, hdigits]
          rfl
        unfold Nat.toDigitsCore
        dsimp only
        split
        · exact hmore
        · exact ih _ _ hmore
  exact hcore (n + 1) n [] rfl

theorem isHalfFree_nat (n : Nat) : isHalfFree (toString n) = true := by
  have hdigits : (toString n).toList = Nat.toDigits 10 n := by simp [toString, Nat.repr]
  rw [isHalfFree, hdigits]
  exact all_toDigits 10 n

theorem isHalfFree_int (n : Int) : isHalfFree (toString n) = true := by
  rw [Int.toString_eq_repr, Int.repr_eq_if]
  split
  · exact isHalfFree_nat _
  · rw [isHalfFree_append]
    exact Bool.and_eq_true_iff.mpr ⟨by decide, isHalfFree_nat _⟩

end Text

namespace Decimal

open Text

theorem isHalfFree_exponentText (e : Int) : isHalfFree (exponentText e) = true := by
  unfold exponentText
  dsimp only
  rw [isHalfFree_append]
  refine Bool.and_eq_true_iff.mpr ⟨by split <;> decide, ?_⟩
  split
  · rw [isHalfFree_append, isHalfFree_nat]
    decide
  · exact isHalfFree_nat _

theorem isHalfFree_positive (style : Style) {d : Digits} (hd : d.digits.all isFree = true) :
    isHalfFree (style.positive d) = true := by
  have hzeros : ∀ count, (List.replicate count '0').all isFree = true := by
    intro count
    simp only [List.all_replicate]
    split <;> decide
  have htake : ∀ count, (d.digits.take count).all isFree = true := fun count =>
    List.all_eq_true.mpr fun c hc => List.all_eq_true.mp hd c (List.mem_of_mem_take hc)
  have hdrop : ∀ count, (d.digits.drop count).all isFree = true := fun count =>
    List.all_eq_true.mpr fun c hc => List.all_eq_true.mp hd c (List.mem_of_mem_drop hc)
  have hpoint : isHalfFree "." = true := by decide
  have hfront : isHalfFree "0." = true := by decide
  have hback : isHalfFree ".0" = true := by decide
  unfold Style.positive
  dsimp only
  split
  · split
    · simp only [isHalfFree_append, isHalfFree_ofList, List.all_append, hfront, hzeros, hd,
        Bool.and_self]
    · split
      · simp only [isHalfFree_append, isHalfFree_ofList, List.all_append, hback, hzeros, hd,
          Bool.and_self]
      · simp only [isHalfFree_append, isHalfFree_ofList, hpoint, htake, hdrop, Bool.and_self]
  · simp only [isHalfFree_append, isHalfFree_ofList, isHalfFree_exponentText, htake, Bool.and_true,
      Bool.true_and]
    split
    · rfl
    · simp only [isHalfFree_append, isHalfFree_ofList, hpoint, hdrop, Bool.and_self]

theorem all_shortest (m : Nat) (q : Int) : (shortest m q).digits.all isFree = true := by
  refine List.all_eq_true.mpr fun c hc => ?_
  have hdigit := (List.dropWhile_sublist _).subset (List.mem_reverse.mp hc)
  exact List.all_eq_true.mp (all_toDigits 10 _) c (List.mem_reverse.mp hdigit)

/-- A double is written in plain characters. -/
theorem isHalfFree_text {style : Style} (hnan : isHalfFree style.nan = true)
    (hinfinity : isHalfFree style.infinity = true) (f : Float) :
    isHalfFree (style.text f) = true := by
  unfold Style.text
  split
  · exact hnan
  · split
    · rw [isHalfFree_append, hinfinity]
      decide
    · exact hinfinity
  · rw [isHalfFree_append]
    refine Bool.and_eq_true_iff.mpr ⟨by split <;> decide, ?_⟩
    split
    · decide
    · exact isHalfFree_positive style (all_shortest _ _)

end Decimal

namespace Moment

open Text

theorem isHalfFree_padded (width : Nat) (n : Int) : isHalfFree (padded width n) = true := by
  unfold padded
  dsimp only
  rw [isHalfFree_append, isHalfFree_ofList, isHalfFree_nat, List.all_replicate]
  split <;> decide

/-- The lines above a program keep no half as long as the comment mark keeps none. -/
theorem isHalfFree_header {comment : Value} {m : Moment} {text : String}
    (hmark : isHalfFree comment.text = true) (hheader : m.header comment = .ok text) :
    isHalfFree text = true := by
  obtain ⟨time, htime, hheader⟩ := bind_eq_ok hheader
  obtain ⟨u, _, htime⟩ := bind_eq_ok htime
  have hmarks : ["-", "T", ":", ".", "Z", "\n\n", " Generated on: ",
      " Generated Code from Node Graph\n"].all isHalfFree = true := by decide +kernel
  simp only [List.all_cons, List.all_nil, Bool.and_true, Bool.and_eq_true] at hmarks
  rw [← Except.ok.inj hheader, ← Except.ok.inj htime]
  simp only [isHalfFree_append, isHalfFree_padded, hmark, hmarks, Bool.and_self]

end Moment

/-! ## Values -/

namespace Text

theorem isFree_of_isPrintable {c : Char} (hc : isPrintable c = true) : isFree c = true := by
  have hlast : (0xe01f0, 0x10ffff) ∈ unprintableRanges := by decide +kernel
  by_cases hlow : c.toNat < 0xe01f0
  · simp only [isFree, Bool.or_eq_true, decide_eq_true_eq]
    simp only [firstLead]
    omega
  · have hvalid : c.toNat.isValidChar := c.valid
    have hplain : ¬ c.toNat < 0x7f := by omega
    simp only [isPrintable, hplain, if_false, Bool.not_eq_true', List.any_eq_false] at hc
    have hbeyond := hc _ hlast
    simp only [Nat.isValidChar] at hvalid
    simp only [Bool.and_eq_true, decide_eq_true_eq] at hbeyond
    omega

theorem all_escapePoint (n : Nat) : (escapePoint n).all isFree = true := by
  have hhex : ∀ width, (hexPadded width n).all isFree = true := by
    intro width
    unfold hexPadded
    dsimp only
    rw [List.all_append, all_toDigits, List.all_replicate]
    split <;> decide
  have hmarks : isFree '\\' = true ∧ isFree 'x' = true ∧ isFree 'u' = true ∧ isFree 'U' = true := by
    decide
  unfold escapePoint
  repeat' split
  all_goals simp only [List.all_cons, hhex, hmarks, Bool.and_self]

/-- A quoted text keeps no half, since halves are escaped. -/
theorem isHalfFree_quoted (s : String) : isHalfFree (quoted s) = true := by
  have hpoint : ∀ quote, isFree quote = true → ∀ n, (quotePoint quote n).all isFree = true := by
    intro quote hquote n
    unfold quotePoint
    dsimp only
    split
    · rename_i hmark
      rw [Bool.or_eq_true, decide_eq_true_eq, decide_eq_true_eq] at hmark
      rcases hmark with hmark | hmark
      · rw [hmark, List.all_cons, List.all_cons, hquote]
        decide
      · rw [hmark]
        decide
    · repeat' split
      · decide
      · decide
      · decide
      · rename_i hprintable
        rw [List.all_cons, isFree_of_isPrintable hprintable]
        rfl
      · exact all_escapePoint n
  have hquoted : ∀ quote, isFree quote = true → isHalfFree (String.ofList
      (quote :: ((points s.toList).flatMap (quotePoint quote) ++ [quote]))) = true := by
    intro quote hquote
    rw [isHalfFree_ofList, List.all_cons, List.all_append, List.all_flatMap, List.all_cons, hquote]
    simpa using fun n _ => List.all_eq_true.mp (hpoint quote hquote n)
  unfold quoted
  dsimp only
  split <;> exact hquoted _ (by decide)

end Text

namespace Value

open Text

mutual

/-- Do all texts in the value, field names included, pass a test? -/
def allTexts (ok : String → Bool) : Value → Bool
  | .str s => ok s
  | .list items => allTextsInItems ok items
  | .obj fields => allTextsInFields ok fields
  | _ => true

/-- Do all texts in these items pass a test? -/
def allTextsInItems (ok : String → Bool) : List Value → Bool
  | [] => true
  | v :: rest => allTexts ok v && allTextsInItems ok rest

/-- Do all texts in these fields pass a test? -/
def allTextsInFields (ok : String → Bool) : List (String × Value) → Bool
  | [] => true
  | (name, v) :: rest => ok name && allTexts ok v && allTextsInFields ok rest

end

theorem isHalfFree_intercalate {separator : String} {texts : List String}
    (hseparator : isHalfFree separator = true) (htexts : ∀ t ∈ texts, isHalfFree t = true) :
    isHalfFree (separator.intercalate texts) = true := by
  rw [isHalfFree, String.toList_intercalate]
  refine Template.all_intercalate hseparator fun cs hcs => ?_
  obtain ⟨t, ht, rfl⟩ := List.mem_map.mp hcs
  exact htexts t ht

mutual

/-- What a message shows of a value keeps no half. -/
theorem isHalfFree_display : ∀ v : Value, isHalfFree v.display = true
  | .null => by decide
  | .bool b => by cases b <;> decide
  | .int n => isHalfFree_int n
  | .float f => Decimal.isHalfFree_text (by decide) (by decide) f
  | .nan _ => Decimal.isHalfFree_text (by decide) (by decide) _
  | .str s => isHalfFree_quoted s
  | .list items => by
      rw [display, isHalfFree_append, isHalfFree_append,
        isHalfFree_intercalate (by decide) (isHalfFree_displayItems items)]
      decide
  | .obj fields => by
      rw [display, isHalfFree_append, isHalfFree_append,
        isHalfFree_intercalate (by decide) (isHalfFree_displayFields fields)]
      decide

theorem isHalfFree_displayItems : ∀ (items : List Value), ∀ t ∈ displayItems items,
    isHalfFree t = true
  | [] => by simp [displayItems]
  | v :: rest => by
      intro t ht
      rcases List.mem_cons.mp ht with rfl | ht
      · exact isHalfFree_display v
      · exact isHalfFree_displayItems rest t ht

theorem isHalfFree_displayFields : ∀ (fields : List (String × Value)), ∀ t ∈ displayFields fields,
    isHalfFree t = true
  | [] => by simp [displayFields]
  | (name, v) :: rest => by
      intro t ht
      rcases List.mem_cons.mp ht with rfl | ht
      · rw [isHalfFree_append, isHalfFree_append, isHalfFree_quoted, isHalfFree_display v]
        decide
      · exact isHalfFree_displayFields rest t ht

end

/-- Inside running text only a text can bring a half. -/
theorem isHalfFree_text {v : Value} (hv : v.allTexts isHalfFree = true) :
    isHalfFree v.text = true := by
  cases v with
  | str s =>
      rw [allTexts] at hv
      exact hv
  | _ => exact isHalfFree_display _

end Value

namespace Json

open Text

theorem all_hex4 (n : Nat) : (hex4 n).all isFree = true := by
  unfold hex4
  dsimp only
  rw [List.all_append, all_toDigits, List.all_replicate]
  split <;> decide

/-- A text in a document keeps the halves that it has, and no others. -/
theorem isHalfFree_writeString {s : String} (hs : isHalfFree s = true) :
    isHalfFree (writeString false s) = true := by
  have hpoint : ∀ n ∈ points s.toList, (writePoint false n).all isFree = true := by
    intro n hn
    unfold writePoint
    split
    any_goals decide
    split
    · rename_i hcontrol
      rw [Bool.false_and, Bool.or_false, decide_eq_true_eq] at hcontrol
      rw [escapeCode, if_pos (by omega), List.all_cons, List.all_cons, all_hex4]
      decide
    · exact all_pointChars (isHalf_points hs n hn)
  rw [writeString, isHalfFree_ofList, List.all_cons, List.all_append, List.all_flatMap,
    List.all_eq_true.mpr hpoint]
  decide

mutual

theorem isHalfFree_compact : ∀ {v : Value}, v.allTexts isHalfFree = true →
    isHalfFree (compact v) = true
  | .null, _ => by decide
  | .bool b, _ => by cases b <;> decide
  | .int n, _ => isHalfFree_int n
  | .float f, _ => Decimal.isHalfFree_text (by decide) (by decide) f
  | .nan _, _ => Decimal.isHalfFree_text (by decide) (by decide) _
  | .str s, hv => isHalfFree_writeString (by rwa [Value.allTexts] at hv)
  | .list items, hv => by
      have hitems := isHalfFree_compactItems items (by rwa [Value.allTexts] at hv)
      rw [compact, isHalfFree_append, isHalfFree_append,
        Value.isHalfFree_intercalate (by decide) hitems]
      decide
  | .obj fields, hv => by
      have hfields := isHalfFree_compactFields fields (by rwa [Value.allTexts] at hv)
      rw [compact, isHalfFree_append, isHalfFree_append,
        Value.isHalfFree_intercalate (by decide) hfields]
      decide

theorem isHalfFree_compactItems : ∀ items : List Value,
    Value.allTextsInItems isHalfFree items = true →
    ∀ t ∈ compactItems items, isHalfFree t = true
  | [], _ => by simp [compactItems]
  | v :: rest, hitems => by
      rw [Value.allTextsInItems, Bool.and_eq_true] at hitems
      intro t ht
      rcases List.mem_cons.mp ht with rfl | ht
      · exact isHalfFree_compact hitems.1
      · exact isHalfFree_compactItems rest hitems.2 t ht

theorem isHalfFree_compactFields : ∀ fields : List (String × Value),
    Value.allTextsInFields isHalfFree fields = true →
    ∀ t ∈ compactFields fields, isHalfFree t = true
  | [], _ => by simp [compactFields]
  | (name, v) :: rest, hfields => by
      rw [Value.allTextsInFields, Bool.and_eq_true, Bool.and_eq_true] at hfields
      intro t ht
      rcases List.mem_cons.mp ht with rfl | ht
      · rw [isHalfFree_append, isHalfFree_append, isHalfFree_writeString hfields.1.1,
          isHalfFree_compact hfields.1.2]
        decide
      · exact isHalfFree_compactFields rest hfields.2 t ht

end

end Json

/-- **A value in a program** keeps no half that its texts do not have. -/
theorem Template.isHalfFree_renderValue {v : Value} (hv : v.allTexts Text.isHalfFree = true) :
    Text.isHalfFree (renderValue v) = true := by
  unfold renderValue
  split
  · exact Json.isHalfFree_compact hv
  · exact Json.isHalfFree_compact hv
  · split <;> decide
  · split
    · exact Text.isHalfFree_int _
    · exact Value.isHalfFree_text hv
  · exact Value.isHalfFree_text hv

end NodeWeave
