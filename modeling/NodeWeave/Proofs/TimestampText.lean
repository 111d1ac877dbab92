import NodeWeave.Proofs.Calendar

/-!
# The text of a timestamp

A timestamp is a row of parts of fixed widths, filled up with zeros in front, with a mark
behind each (`written`).  So the text can be read back (`readParts_written`), and texts are
ordered as the parts are (`parts_lt_of_written`): numbers with the same number of digits
compare like their digits.

Together with the calendar this makes a timestamp denote the instant that it was given, to
the millisecond, whatever offset the moment was written with
(`timestamp_denotes_instant`).
-/

namespace NodeWeave.Moment

variable {width : Nat} {n : Int} {layout : List (Nat × Char)} {ps qs : List Int} {m : Moment}

/-! ## Digits -/

/-- The first digit counts most. -/
theorem ofDigitChars_cons_zero (c : Char) (digits : List Char) :
    Nat.ofDigitChars 10 (c :: digits) 0 =
      10 ^ digits.length * (c.toNat - '0'.toNat) + Nat.ofDigitChars 10 digits 0 := by
  rw [Nat.ofDigitChars_cons, Nat.ofDigitChars_eq_ofDigitChars_zero, Nat.mul_zero, Nat.zero_add]

theorem ofDigitChars_lt {digits : List Char} (hdigits : ∀ c ∈ digits, c.isDigit = true) :
    Nat.ofDigitChars 10 digits 0 < 10 ^ digits.length := by
  induction digits with
  | nil => simp
  | cons c rest ih =>
      have hrest := ih fun d hd => hdigits d (List.mem_cons_of_mem c hd)
      have hc : c.toNat ≤ '9'.toNat := (Char.isDigit_iff_toNat.mp (hdigits c List.mem_cons_self)).2
      have hdigit : c.toNat - '0'.toNat ≤ 9 := Nat.sub_le_sub_right hc '0'.toNat
      have hmul := Nat.mul_le_mul_left (10 ^ rest.length) hdigit
      rw [ofDigitChars_cons_zero, List.length_cons, Nat.pow_succ]
      omega

/-- **Digits of the same number compare like numbers.**  What stands behind them counts only
if they are the same. -/
theorem digits_lt {ds es s t : List Char} (hlength : ds.length = es.length)
    (hds : ∀ c ∈ ds, c.isDigit = true) (hes : ∀ c ∈ es, c.isDigit = true)
    (hlt : ds ++ s < es ++ t) :
    Nat.ofDigitChars 10 ds 0 < Nat.ofDigitChars 10 es 0 ∨ ds = es ∧ s < t := by
  induction ds generalizing es with
  | nil =>
      cases List.length_eq_zero_iff.mp hlength.symm
      exact Or.inr ⟨rfl, hlt⟩
  | cons c ds ih =>
      cases es with
      | nil => cases hlength
      | cons d es =>
          have hsame : ds.length = es.length := Nat.succ.inj hlength
          have hds' := fun x hx => hds x (List.mem_cons_of_mem c hx)
          have hes' := fun x hx => hes x (List.mem_cons_of_mem d hx)
          rw [ofDigitChars_cons_zero, ofDigitChars_cons_zero, hsame]
          rw [List.cons_append, List.cons_append, List.cons_lt_cons_iff] at hlt
          rcases hlt with hcd | ⟨rfl, hlt⟩
          · -- the digits behind a smaller one cannot make up for it
            have hbehind := ofDigitChars_lt hds'
            have hc : '0'.toNat ≤ c.toNat := (Char.isDigit_iff_toNat.mp (hds c List.mem_cons_self)).1
            have hdigit : c.toNat - '0'.toNat + 1 ≤ d.toNat - '0'.toNat := by
              have hless : c.toNat < d.toNat := hcd
              omega
            have hmul := Nat.mul_le_mul_left (10 ^ es.length) hdigit
            rw [hsame] at hbehind
            rw [Nat.mul_add, Nat.mul_one] at hmul
            exact Or.inl (by omega)
          · rcases ih hsame hds' hes' hlt with hless | ⟨rfl, hst⟩
            · exact Or.inl (by omega)
            · exact Or.inr ⟨rfl, hst⟩

/-- **A number of at most so many digits** is written with just as many. -/
theorem padded_spec (hwidth : 0 < width) (hlow : 0 ≤ n) (hhigh : n < 10 ^ width) :
    (padded width n).toList.length = width ∧ (∀ c ∈ (padded width n).toList, c.isDigit = true) ∧
      (Nat.ofDigitChars 10 (padded width n).toList 0 : Int) = n := by
  have htext : (padded width n).toList =
      List.replicate (width - (Nat.toDigits 10 n.toNat).length) '0' ++ Nat.toDigits 10 n.toNat := by
    have hdigits : (toString n.toNat).toList = Nat.toDigits 10 n.toNat := Nat.toList_repr
    have hlength : (toString n.toNat).length = (Nat.toDigits 10 n.toNat).length := by
      rw [← hdigits, String.length_toList]
    simp only [padded, String.toList_append, String.toList_ofList, hdigits, hlength]
  have hfits : (Nat.toDigits 10 n.toNat).length ≤ width := by
    rw [Nat.length_toDigits_le_iff (by decide) hwidth]
    have hcast : ((10 ^ width : Nat) : Int) = 10 ^ width := by simp
    omega
  rw [htext]
  refine ⟨?_, ?_, ?_⟩
  · rw [List.length_append, List.length_replicate]
    omega
  · intro c hc
    rcases List.mem_append.mp hc with hzero | hdigit
    · rw [(List.mem_replicate.mp hzero).2]
      rfl
    · exact Nat.isDigit_of_mem_toDigits (by decide) (by decide) hdigit
  · rw [Nat.ofDigitChars_append, Nat.ofDigitChars_replicate_zero, Nat.mul_zero,
      Nat.ofDigitChars_ten_toDigits]
    omega

/-! ## Parts of fixed widths -/

/-- The widths of the parts of a timestamp, and the mark behind each. -/
def stampLayout : List (Nat × Char) :=
  [(4, '-'), (2, '-'), (2, 'T'), (2, ':'), (2, ':'), (2, '.'), (3, 'Z')]

/-- Parts with their widths and marks. -/
def written : List (Nat × Char) → List Int → List Char
  | (width, mark) :: layout, n :: parts => (padded width n).toList ++ mark :: written layout parts
  | _, _ => []

/-- There are as many parts as the layout has, and none is too wide. -/
def Fits : List (Nat × Char) → List Int → Prop
  | [], [] => True
  | (width, _) :: layout, n :: parts => 0 < width ∧ 0 ≤ n ∧ n < 10 ^ width ∧ Fits layout parts
  | _, _ => False

/-- Reads parts of fixed widths with the marks behind them, up to the end of the text. -/
def readParts : List (Nat × Char) → List Char → Option (List Int)
  | [], text => if text.isEmpty then some [] else none
  | (width, mark) :: layout, text =>
    match text.drop width with
    | [] => none
    | c :: rest =>
      if (text.take width).all Char.isDigit && c == mark then
        (readParts layout rest).map ((Nat.ofDigitChars 10 (text.take width) 0 : Int) :: ·)
      else none

/-- **Parts can be read as they are written.** -/
theorem readParts_written (hfits : Fits layout ps) :
    readParts layout (written layout ps) = some ps := by
  induction layout generalizing ps with
  | nil =>
      cases ps with
      | nil => rfl
      | cons n ps => exact hfits.elim
  | cons field layout ih =>
      obtain ⟨width, mark⟩ := field
      cases ps with
      | nil => exact hfits.elim
      | cons n ps =>
          obtain ⟨hwidth, hlow, hhigh, hrest⟩ := hfits
          obtain ⟨hlength, hdigits, hvalue⟩ := padded_spec hwidth hlow hhigh
          have htake : (written ((width, mark) :: layout) (n :: ps)).take width =
              (padded width n).toList := List.take_left' hlength
          have hdrop : (written ((width, mark) :: layout) (n :: ps)).drop width =
              mark :: written layout ps := List.drop_left' hlength
          have hall : (padded width n).toList.all Char.isDigit = true := List.all_eq_true.mpr hdigits
          simp only [readParts, htake, hdrop, hall, hvalue, ih hrest, beq_self_eq_true, Bool.and_self,
            if_true, Option.map_some]

/-- **Texts are ordered as their parts are.** -/
theorem parts_lt_of_written (hps : Fits layout ps) (hqs : Fits layout qs)
    (hlt : written layout ps < written layout qs) : ps < qs := by
  induction layout generalizing ps qs with
  | nil => exact absurd hlt (by simp [written])
  | cons field layout ih =>
      obtain ⟨width, mark⟩ := field
      cases ps with
      | nil => exact hps.elim
      | cons n ps =>
          cases qs with
          | nil => exact hqs.elim
          | cons k qs =>
              obtain ⟨hwidth, hnlow, hnhigh, hps⟩ := hps
              obtain ⟨_, hklow, hkhigh, hqs⟩ := hqs
              obtain ⟨hnlength, hndigits, hnvalue⟩ := padded_spec hwidth hnlow hnhigh
              obtain ⟨hklength, hkdigits, hkvalue⟩ := padded_spec hwidth hklow hkhigh
              rw [List.cons_lt_cons_iff]
              rcases digits_lt (hnlength.trans hklength.symm) hndigits hkdigits hlt with
                hless | ⟨hsame, hrest⟩
              · exact Or.inl (by omega)
              · rw [hsame] at hnvalue
                rw [List.cons_lt_cons_self] at hrest
                exact Or.inr ⟨hnvalue.symm.trans hkvalue, ih hps hqs hrest⟩

/-! ## Timestamps -/

/-- **Reads a timestamp** as a date and a time of day in universal time. -/
def readTimestamp (text : String) : Option Moment :=
  match readParts stampLayout text.toList with
  | some [year, month, day, hour, minute, second, millisecond] =>
    let m : Moment :=
      { year, month, day, hour, minute, second, microsecond := millisecond * 1000, offset := none }
    if m.check.isNone then some m else none
  | _ => none

theorem Valid.fits (hm : m.Valid) : Fits stampLayout m.parts := by
  have hlength := (daysInMonth_bounds m.year m.month).2
  obtain ⟨hyear, hmonth, hday, hhour, hminute, hsecond, hmicrosecond⟩ := hm
  simp only [stampLayout, parts, Fits, and_true]
  omega

/-- **What a timestamp is:** the parts of the moment in universal time, which there are for
the instants of the years 1 to 9999. -/
theorem timestamp_eq_ok {s : String} :
    m.timestamp = .ok s ↔
      (0 ≤ m.instant ∧ m.instant < daysBeforeYear 10000 * daySpan) ∧
        s = String.ofList (written stampLayout (ofInstant m.instant).parts) := by
  have htext (u : Moment) :
      padded 4 u.year ++ "-" ++ padded 2 u.month ++ "-" ++ padded 2 u.day ++ "T" ++
        padded 2 u.hour ++ ":" ++ padded 2 u.minute ++ ":" ++ padded 2 u.second ++ "." ++
        padded 3 (u.microsecond / 1000) ++ "Z" = String.ofList (written stampLayout u.parts) := by
    rw [← String.toList_inj, String.toList_ofList]
    simp [stampLayout, parts, written]
  unfold timestamp toUniversal
  dsimp only
  split
  · rename_i hout
    simp only [Bool.or_eq_true, decide_eq_true_eq] at hout
    constructor
    · intro h
      cases h
    · intro h
      omega
  · rename_i hin
    simp only [Bool.or_eq_true, decide_eq_true_eq, not_or, Int.not_lt, Int.not_le] at hin
    simp only [bind, Except.bind, pure, Except.pure, htext, Except.ok.injEq]
    exact ⟨fun h => ⟨hin, h.symm⟩, fun h => h.2.symm⟩

/-- The moment at the start of its millisecond. -/
def toMillisecond (m : Moment) : Moment :=
  { m with microsecond := m.microsecond / 1000 * 1000 }

theorem Valid.toMillisecond (hm : m.Valid) : m.toMillisecond.Valid := by
  have hmicrosecond : 0 ≤ m.toMillisecond.microsecond ∧ m.toMillisecond.microsecond ≤ 999999 := by
    have hbounds := hm.microsecond
    simp only [Moment.toMillisecond]
    omega
  exact { hm with microsecond := hmicrosecond }

/-- Without an offset the start of the millisecond is the instant rounded down. -/
theorem instant_toMillisecond (hoffset : m.offset = none) :
    m.toMillisecond.instant = m.instant / 1000 * 1000 := by
  simp only [instant, toMillisecond, hoffset, Option.getD_none, daySpan, minuteSpan]
  omega

/-- **A timestamp is read as the moment in universal time**, at the start of its millisecond. -/
theorem readTimestamp_written (hm : m.Valid) (hoffset : m.offset = none) :
    readTimestamp (String.ofList (written stampLayout m.parts)) = some m.toMillisecond := by
  have hcheck : m.toMillisecond.check = none := check_eq_none.mpr hm.toMillisecond
  unfold readTimestamp
  rw [String.toList_ofList, readParts_written hm.fits]
  obtain ⟨year, month, day, hour, minute, second, microsecond, offset⟩ := m
  cases hoffset
  exact if_pos (Option.isNone_iff_eq_none.mpr hcheck)

/-- **Timestamps are ordered as instants are**, to the millisecond. -/
theorem timestamp_le {a b : Moment} {s t : String} (hs : a.timestamp = .ok s)
    (ht : b.timestamp = .ok t) (hle : a.instant ≤ b.instant) : s ≤ t := by
  obtain ⟨⟨halow, hahigh⟩, rfl⟩ := timestamp_eq_ok.mp hs
  obtain ⟨⟨hblow, hbhigh⟩, rfl⟩ := timestamp_eq_ok.mp ht
  have ha := valid_ofInstant halow hahigh
  have hb := valid_ofInstant hblow hbhigh
  intro hlt
  rw [String.lt_iff, String.toList_ofList, String.toList_ofList] at hlt
  have hless := millisecond_lt hb ha rfl rfl (parts_lt_of_written hb.fits ha.fits hlt)
  rw [instant_ofInstant, instant_ofInstant] at hless
  omega

/-- The calendar ends with the year 9999. -/
theorem daysBeforeYear_last : daysBeforeYear 10000 = daysOfYears 9999 :=
  daysBeforeYear_eq (show (1 : Int) ≤ 10000 by decide)

/-- **A timestamp denotes its instant.**  A valid moment has one just when its instant lies in
the years 1 to 9999.  Read as a date and a time in universal time it is the instant rounded
down to the millisecond.  So it depends on the instant alone, not on the offset, and a moment
that is not later has a timestamp that is not greater. -/
theorem timestamp_denotes_instant {a b : Moment} (ha : a.check = none) (hb : b.check = none) :
    ((∃ s, a.timestamp = .ok s) ↔ 0 ≤ a.elapsed ∧ a.elapsed < daysOfYears 9999 * daySpan) ∧
      (∀ s, a.timestamp = .ok s →
        ∃ u, readTimestamp s = some u ∧ u.check = none ∧ u.offset = none ∧
          u.elapsed = a.elapsed / 1000 * 1000) ∧
      ∀ s t, a.timestamp = .ok s → b.timestamp = .ok t →
        (a.elapsed = b.elapsed → s = t) ∧ (a.elapsed ≤ b.elapsed → s ≤ t) := by
  have hacount := instant_eq_elapsed (check_eq_none.mp ha).year.1
  have hbcount := instant_eq_elapsed (check_eq_none.mp hb).year.1
  rw [← hacount, ← hbcount, ← daysBeforeYear_last]
  refine ⟨⟨?_, ?_⟩, ?_, ?_⟩
  · rintro ⟨s, hs⟩
    exact (timestamp_eq_ok.mp hs).1
  · intro hrange
    exact ⟨_, timestamp_eq_ok.mpr ⟨hrange, rfl⟩⟩
  · intro s hs
    obtain ⟨⟨hlow, hhigh⟩, rfl⟩ := timestamp_eq_ok.mp hs
    have hvalid := valid_ofInstant hlow hhigh
    refine ⟨_, readTimestamp_written hvalid rfl, check_eq_none.mpr hvalid.toMillisecond, rfl, ?_⟩
    rw [← instant_eq_elapsed hvalid.toMillisecond.year.1, instant_toMillisecond rfl, instant_ofInstant]
  · intro s t hs ht
    refine ⟨fun hsame => ?_, fun hle => timestamp_le hs ht hle⟩
    rw [(timestamp_eq_ok.mp hs).2, (timestamp_eq_ok.mp ht).2, hsame]

/-- The last minutes of the 28th of February of a leap year, 45 minutes behind universal time. -/
def leapEve : Moment :=
  { year := 2024, month := 2, day := 28, hour := 23, minute := 30, second := 0, microsecond := 1999
    offset := some (-45 * minuteSpan) }

/-- The same instant on a clock that is 14 hours ahead. -/
def leapDay : Moment :=
  { year := 2024, month := 2, day := 29, hour := 14, minute := 15, second := 0, microsecond := 1999
    offset := some (840 * minuteSpan) }

/-- The timestamp of the one is that of the other, over the end of a day. -/
theorem timestamp_denotes_instant_leap :
    leapEve.check = none ∧ leapDay.check = none ∧ leapEve.elapsed = leapDay.elapsed ∧
      leapEve.timestamp = .ok "2024-02-29T00:15:00.001Z" ∧
      leapDay.timestamp = .ok "2024-02-29T00:15:00.001Z" ∧
      ∃ u, readTimestamp "2024-02-29T00:15:00.001Z" = some u ∧
        u.elapsed = leapEve.elapsed / 1000 * 1000 := by
  have heve : leapEve.check = none := by decide
  have hday : leapDay.check = none := by decide
  have hsame : leapEve.elapsed = leapDay.elapsed := by
    rw [← instant_eq_elapsed (by decide), ← instant_eq_elapsed (by decide)]
    decide
  have hs : leapEve.timestamp = .ok "2024-02-29T00:15:00.001Z" :=
    timestamp_eq_ok.mpr ⟨by decide, by decide +kernel⟩
  obtain ⟨hrange, hread, horder⟩ := timestamp_denotes_instant heve hday
  obtain ⟨u, hu, _, _, helapsed⟩ := hread _ hs
  -- the other one has a timestamp, since its instant is in range too
  obtain ⟨t, ht⟩ := (timestamp_denotes_instant hday heve).1.mpr (hsame ▸ hrange.mp ⟨_, hs⟩)
  cases (horder _ t hs ht).1 hsame
  exact ⟨heve, hday, hsame, hs, ht, u, hu, helapsed⟩

end NodeWeave.Moment
