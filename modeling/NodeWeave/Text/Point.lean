/-!
# Code points

A text is a string of characters.  A JSON text can also name one half of a
surrogate pair without the other: a code point that is no character, which texts
carry along until they are written.

The last 128 characters of the code table are set aside for this, 64 leads and
64 trails.  A half is kept as a lead and a trail, and so is each of the 128
characters itself where a text has it; every other character is kept as it is.
A lead never stands without a trail behind it, nor a trail without a lead before
it, so texts are joined, compared and searched as they are kept.  Only where
code points are counted, ordered or spelled out does `points` matter, and
`points_ofPoints` says that it gives back what was kept.
-/

namespace NodeWeave.Text

/-- How many code points there are. -/
def pointCount : Nat := 0x110000

/-- The first of the halves of surrogate pairs. -/
def firstHalf : Nat := 0xd800

/-- How many halves there are. -/
def halfCount : Nat := 2048

/-- The first lead; all characters from here on are set aside. -/
def firstLead : Nat := 0x10ff80

/-- The first trail. -/
def firstTrail : Nat := 0x10ffc0

/-- Is the code point one half of a surrogate pair? -/
def isHalf (n : Nat) : Bool :=
  firstHalf ≤ n && n < firstHalf + halfCount

/-- The place of a code point among those that are kept as two characters: the
halves, and after them the characters that are set aside. -/
def rank? (n : Nat) : Option Nat :=
  if isHalf n then some (n - firstHalf)
  else if firstLead ≤ n then some (n - firstLead + halfCount)
  else none

/-- The code point at a place among those that are kept as two characters. -/
def ofRank (i : Nat) : Nat :=
  if i < halfCount then i + firstHalf else i - halfCount + firstLead

/-- The characters that keep a code point. -/
def pointChars (n : Nat) : List Char :=
  match rank? n with
  | some i => [Char.ofNat (firstLead + i / 64), Char.ofNat (firstTrail + i % 64)]
  | none => [Char.ofNat n]

/-- The characters that keep some code points. -/
def ofPoints (ns : List Nat) : List Char :=
  ns.flatMap pointChars

/-- Is the character a lead? -/
def isLead (c : Char) : Bool :=
  firstLead ≤ c.toNat && c.toNat < firstTrail

/-- Reads the code points that some characters keep; `done` holds those before,
the last one first. -/
def pointsFrom (done : List Nat) : List Char → List Nat
  | [] => done.reverse
  | [c] => (c.toNat :: done).reverse
  | c :: d :: rest =>
    if isLead c then
      pointsFrom (ofRank ((c.toNat - firstLead) * 64 + (d.toNat - firstTrail)) :: done) rest
    else pointsFrom (c.toNat :: done) (d :: rest)

/-- The code points that some characters keep. -/
def points (cs : List Char) : List Nat :=
  pointsFrom [] cs

theorem toNat_ofNat {n : Nat} (h : n.isValidChar) : (Char.ofNat n).toNat = n := by
  rw [Char.ofNat, dif_pos h]
  rfl

theorem ofRank_of_rank? {n i : Nat} (h : rank? n = some i) : ofRank i = n := by
  simp only [rank?, isHalf, firstHalf, halfCount, firstLead] at h
  simp only [ofRank, firstHalf, halfCount, firstLead]
  grind

theorem rank?_lt {n i : Nat} (below : n < pointCount) (h : rank? n = some i) : i < 2176 := by
  simp only [rank?, isHalf, firstHalf, halfCount, firstLead] at h
  simp only [pointCount] at below
  grind

/-- A code point is read from the characters that keep it. -/
theorem pointsFrom_pointChars_append {n : Nat} (below : n < pointCount) (done : List Nat)
    (rest : List Char) :
    pointsFrom done (pointChars n ++ rest) = pointsFrom (n :: done) rest := by
  cases h : rank? n with
  | some i =>
    have high := rank?_lt below h
    have lead : (Char.ofNat (firstLead + i / 64)).toNat = firstLead + i / 64 := by
      apply toNat_ofNat
      simp only [Nat.isValidChar, firstLead]
      omega
    have trail : (Char.ofNat (firstTrail + i % 64)).toNat = firstTrail + i % 64 := by
      apply toNat_ofNat
      simp only [Nat.isValidChar, firstTrail]
      omega
    have opens : isLead (Char.ofNat (firstLead + i / 64)) = true := by
      simp only [isLead, lead, Bool.and_eq_true, decide_eq_true_eq]
      simp only [firstLead, firstTrail]
      omega
    have whole : i / 64 * 64 + i % 64 = i := by omega
    simp [pointChars, h, pointsFrom, opens, lead, trail, whole, ofRank_of_rank? h]
  | none =>
    have low : n < firstLead ∧ isHalf n = false := by
      simp only [rank?] at h
      grind
    have code : (Char.ofNat n).toNat = n := by
      apply toNat_ofNat
      simp only [isHalf, firstHalf, halfCount, firstLead] at low
      simp only [Nat.isValidChar]
      grind
    have notLead : isLead (Char.ofNat n) = false := by
      simp only [isLead, code]
      grind
    cases rest with
    | nil => simp [pointChars, h, pointsFrom, code]
    | cons d rest => simp [pointChars, h, pointsFrom, code, notLead]

theorem pointsFrom_ofPoints {ns : List Nat} (below : ∀ n ∈ ns, n < pointCount)
    (done : List Nat) : pointsFrom done (ofPoints ns) = done.reverse ++ ns := by
  induction ns generalizing done with
  | nil => simp [ofPoints, pointsFrom]
  | cons n ns ih =>
    rw [ofPoints, List.flatMap_cons, pointsFrom_pointChars_append (below n List.mem_cons_self)]
    have rest := ih (fun m h => below m (List.mem_cons_of_mem n h)) (n :: done)
    simpa [ofPoints] using rest

/-- The code points of a text are those that it keeps. -/
theorem points_ofPoints {ns : List Nat} (below : ∀ n ∈ ns, n < pointCount) :
    points (ofPoints ns) = ns := by
  simpa [points] using pointsFrom_ofPoints below []

/-- A string as a text. -/
def ofString (s : String) : String :=
  String.ofList (ofPoints (s.toList.map Char.toNat))

/-- The string that a text is, unless it holds a half. -/
def toString? (text : String) : Option String :=
  let ns := points text.toList
  if ns.any isHalf then none else some (String.ofList (ns.map Char.ofNat))

/-- Are all code points of a text characters? -/
def isWhole (text : String) : Bool :=
  !(points text.toList).any isHalf

/-- The texts of one code point each of which a text is made. -/
def pieces (text : String) : List String :=
  (points text.toList).map fun n => String.ofList (pointChars n)

/-- The parts of a text between the places where a character stands. -/
def split (mark : Char) (text : String) : List String :=
  (text.toList.splitOn mark).map String.ofList

/-- How many bytes a code point takes in UTF-8. -/
def pointSize (n : Nat) : Nat :=
  if n < 0x80 then 1 else if n < 0x800 then 2 else if n < 0x10000 then 3 else 4

/-- How many bytes a text takes in UTF-8. -/
def byteSize (text : String) : Nat :=
  (points text.toList).foldl (fun size n => size + pointSize n) 0

/-- Does the first list come before the second, or is it the same?  The first
elements that differ decide, and a list comes after its own beginnings. -/
def pointsLe : List Nat → List Nat → Bool
  | [], _ => true
  | _ :: _, [] => false
  | m :: ms, n :: ns => m < n || (m == n && pointsLe ms ns)

/-- Does the first text come before the second, or is it the same? -/
def le (s t : String) : Bool :=
  pointsLe (points s.toList) (points t.toList)

end NodeWeave.Text
