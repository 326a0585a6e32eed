import QuotePress.Calendar.Timestamp
import QuotePress.Proofs.Calendar.Days
import QuotePress.Proofs.Text.Runs

/-! # Dates and points in time are read back

Every part of a date or a point in time is written without blanks and with as many digits as its
reader takes. So a text is read part by part, whatever follows. -/
namespace QuotePress

theorem ok_bind {ε α β : Type} (a : α) (f : α → Except ε β) :
    ((Except.ok a : Except ε α) >>= f) = f a := rfl

theorem Text.trimStart_cons {c : Char} (h : Text.isBlankChar c = false) (rest : List Char) :
    Text.trimStart (c :: rest) = c :: rest := by
  rw [Text.trimStart, List.dropWhile_cons_of_neg (by simp [h])]

theorem Text.isBlankChar_digit {c : Char} (h : c.isDigit = true) :
    Text.isBlankChar c = false := by
  simp only [Char.isDigit, Bool.and_eq_true, decide_eq_true_eq] at h
  have hlow : 48 ≤ c.toNat := h.1
  have hhigh : c.toNat ≤ 57 := h.2
  simp only [isBlankChar, inRanges, blankRanges, List.any_cons, List.any_nil, Bool.or_false,
    Bool.or_eq_false_iff, Bool.and_eq_false_iff, decide_eq_false_iff_not]
  omega

namespace CalendarReader

variable {n : Nat} {rest : List Char}

/-- Digits are taken up to the width of a number, or up to where something else follows. -/
theorem number_digits (width : Nat) (rest : List Char) {ds : List Char}
    (hds : ∀ c ∈ ds, c.isDigit = true) (hsome : ds ≠ []) (hwidth : ds.length ≤ width)
    (hend : ∀ c, (rest.take (width - ds.length)).head? = some c → c.isDigit = false)
    (hsize : Decimal.ofDigits ds < UInt64.size / 2) :
    number width (ds ++ rest) = .ok (Decimal.ofDigits ds, rest) := by
  have hrun : ((ds ++ rest).take width).takeWhile Char.isDigit = ds := by
    rw [List.take_append, List.take_of_length_le hwidth]
    exact (span_exact hds hend).1
  rw [number, hrun]
  dsimp only
  rw [if_neg (by simp [hsome]), if_neg (by simp [hsome]), List.drop_left]
  exact if_pos hsize

theorem number_padded {width : Nat} (hwidth : 0 < width) (h : n < 10 ^ width)
    (hsize : n < UInt64.size / 2) :
    number width (Date.padded width n ++ rest) = .ok (n, rest) := by
  have hlength := Date.length_padded hwidth h
  have hnumber := number_digits width rest (Date.isDigit_padded width n)
    (Date.padded_ne_nil width n) hlength.le (by simp [hlength])
    (by rwa [Date.ofDigits_padded])
  rwa [Date.ofDigits_padded] at hnumber

theorem trimStart_padded (width n : Nat) (rest : List Char) :
    Text.trimStart (Date.padded width n ++ rest) = Date.padded width n ++ rest := by
  obtain ⟨c, tail, hdigits⟩ := List.exists_cons_of_ne_nil (Date.padded_ne_nil width n)
  have hdigit := Date.isDigit_padded width n c (by rw [hdigits]; exact List.mem_cons_self)
  rw [hdigits, List.cons_append, Text.trimStart_cons (Text.isBlankChar_digit hdigit)]

theorem twoDigits_padded {low high : Nat} (hlow : low ≤ n) (hhigh : n ≤ high) (h : n < 100) :
    twoDigits low high (Date.padded 2 n ++ rest) = .ok (n, rest) := by
  have hsize : n < UInt64.size / 2 := lt_trans h (by decide)
  rw [twoDigits, trimStart_padded, number_padded (by decide) h hsize]
  exact if_pos ⟨hlow, hhigh⟩

theorem separator_cons {c : Char} (h : Text.isBlankChar c = false) :
    separator c (c :: rest) = .ok ((), rest) := by
  rw [separator, Text.trimStart_cons h]
  exact if_pos rfl

/-- A year with a sign may have any number of digits, so something else must follow it. -/
theorem year_signed {y : Int} (hlow : Int32.minValue.toInt ≤ y)
    (hhigh : y ≤ Int32.maxValue.toInt) (hend : ∀ c, rest.head? = some c → c.isDigit = false) :
    year ((if y < 0 then '-' else '+') :: Date.padded 4 y.natAbs ++ rest) = .ok (y, rest) := by
  have hmin : Int32.minValue.toInt = -2147483648 := by decide
  have hmax : Int32.maxValue.toInt = 2147483647 := by decide
  have hsize : y.natAbs < UInt64.size / 2 := by
    rw [show UInt64.size / 2 = 9223372036854775808 by decide]
    omega
  have hnumber := number_digits ((Date.padded 4 y.natAbs).length + rest.length + 1) rest
    (Date.isDigit_padded 4 y.natAbs) (Date.padded_ne_nil 4 y.natAbs) (by omega) (by
      intro c hc
      refine hend c ?_
      rw [List.head?_take] at hc
      split at hc
      · cases hc
      · exact hc)
    (by rwa [Date.ofDigits_padded])
  rw [Date.ofDigits_padded] at hnumber
  have hsign : Text.isBlankChar (if y < 0 then '-' else '+') = false := by
    split <;> decide
  have hcount : ((if y < 0 then '-' else '+') :: (Date.padded 4 y.natAbs ++ rest)).length =
      (Date.padded 4 y.natAbs).length + rest.length + 1 := by
    rw [List.length_cons, List.length_append]
  have hsigned : (if y < 0 then '-' else '+') = '-' ∨ (if y < 0 then '-' else '+') = '+' := by
    split <;> decide
  have hvalue : (if (if y < 0 then '-' else '+') = '-' then -(y.natAbs : Int) else y.natAbs) =
      y := by
    by_cases hnegative : y < 0
    · rw [if_pos hnegative, if_pos rfl]
      omega
    · rw [if_neg hnegative, if_neg (by decide)]
      omega
  rw [List.cons_append, year, Text.trimStart_cons hsign]
  simp only [List.head?_cons, Option.some.injEq, hsigned, ↓reduceIte, hcount, List.drop_one,
    List.tail_cons, hnumber, ok_bind, hvalue]
  exact if_pos ⟨hlow, hhigh⟩

theorem year_yearText {y : Int} (hlow : Int32.minValue.toInt ≤ y)
    (hhigh : y ≤ Int32.maxValue.toInt) (hend : ∀ c, rest.head? = some c → c.isDigit = false) :
    year (Date.yearText y ++ rest) = .ok (y, rest) := by
  rw [Date.yearText]
  split
  · rename_i hfour
    obtain ⟨c, tail, hdigits⟩ := List.exists_cons_of_ne_nil (Date.padded_ne_nil 4 y.toNat)
    have hdigit := Date.isDigit_padded 4 y.toNat c (by rw [hdigits]; exact List.mem_cons_self)
    have hminus : (Date.padded 4 y.toNat ++ rest).head? ≠ some '-' := by
      rw [hdigits]
      rintro ⟨⟩
      exact absurd hdigit (by decide)
    have hplus : (Date.padded 4 y.toNat ++ rest).head? ≠ some '+' := by
      rw [hdigits]
      rintro ⟨⟩
      exact absurd hdigit (by decide)
    have hsize : y.toNat < 10 ^ 4 := by omega
    have hnumber : number 4 (Date.padded 4 y.toNat ++ rest) = .ok (y.toNat, rest) :=
      number_padded (by decide) hsize (lt_trans hsize (by decide))
    rw [year, trimStart_padded]
    simp only [hminus, hplus, or_self, ↓reduceIte]
    rw [hnumber]
    change (if _ ∧ (y.toNat : Int) ≤ _ then _ else _) = _
    rw [Int.toNat_of_nonneg hfour.1]
    exact if_pos ⟨hlow, hhigh⟩
  · exact year_signed hlow hhigh hend

theorem yearMonthDay_isoText (d : Date) (rest : List Char) :
    yearMonthDay (d.isoText ++ rest) = .ok ((d.year, d.month, d.day), rest) := by
  have hyear := d.year_mem
  have hmonth := d.month_mem
  have hday := d.day_mem
  have hmonthEnd := Date.daysInMonth_le_31 d.year d.month
  rw [yearMonthDay, Date.isoText]
  simp only [List.append_assoc, List.cons_append]
  rw [year_yearText (le_trans (by decide) hyear.1) (le_trans hyear.2 (by decide))
    (by rintro _ ⟨⟩; decide), ok_bind, separator_cons (by decide), ok_bind,
    twoDigits_padded hmonth.1 hmonth.2 (by omega), ok_bind, separator_cons (by decide), ok_bind,
    twoDigits_padded hday.1 (by omega) (by omega)]
  rfl

end CalendarReader

/-- The text of a date is read as the date. -/
theorem Date.read_isoText (d : Date) : Date.read (String.ofList d.isoText) = .ok d := by
  have h := CalendarReader.yearMonthDay_isoText d []
  rw [List.append_nil] at h
  have hdate : Date.of? d.year d.month d.day = some d := dif_pos d.valid
  have hend : (Text.trimStart []).isEmpty = true := rfl
  rw [Date.read, String.toList_ofList, h, ok_bind]
  simp only [hend, ↓reduceIte, hdate]
  rfl

namespace Timestamp

/-- The bounds of the parts of a point in time. A leap second is the last of its minute. -/
structure Legal (t : Timestamp) : Prop where
  second : t.secondOfDay < 86400
  nanosecond : t.nanosecond < 2000000000
  leap : 1000000000 ≤ t.nanosecond → t.secondOfDay % 60 = 59

/-- A clock that counts nanoseconds never shows a leap second. -/
theorem legal_ofEpoch? {n : Int} {t : Timestamp} (h : ofEpoch? n = some t) : t.Legal := by
  obtain ⟨date, -, rfl⟩ := Option.map_eq_some_iff.1 h
  refine ⟨?_, ?_, ?_⟩
  all_goals dsimp only; omega

theorem fraction_padded {n : Nat} (h : n < 1000000000) {rest : List Char}
    (hend : ∀ c, rest.head? = some c → c.isDigit = false) :
    fraction ('.' :: (Date.padded 9 n ++ rest)) = .ok (n, rest) := by
  have hsize : n < UInt64.size / 2 := lt_trans h (by decide)
  have hplaces : (Date.padded 9 n ++ rest).length - rest.length = 9 := by
    rw [List.length_append, Date.length_padded (by decide) h, Nat.add_sub_cancel]
  have hrest : rest.dropWhile Char.isDigit = rest := by
    cases rest with
    | nil => rfl
    | cons c rest => exact List.dropWhile_cons_of_neg (by simp [hend c rfl])
  rw [fraction, CalendarReader.number_padded (by decide) h hsize, ok_bind]
  dsimp only
  rw [hplaces, hrest, show tenTo (9 - 9) = 1 by decide, Nat.mul_one]
  rfl

/-- The time of day is read back; the longer second before a leap second is written as the leap
second. -/
theorem clock_text {t : Timestamp} (h : t.Legal) {rest : List Char}
    (hend : ∀ c, rest.head? = some c → c.isDigit = false) :
    clock (Date.padded 2 (t.secondOfDay / 3600) ++ ':' ::
      (Date.padded 2 (t.secondOfDay / 60 % 60) ++ ':' ::
      (Date.padded 2 (t.secondOfDay % 60 + t.nanosecond / 1000000000) ++ '.' ::
      (Date.padded 9 (t.nanosecond % 1000000000) ++ rest)))) =
      .ok (⟨t.secondOfDay, t.nanosecond⟩, rest) := by
  obtain ⟨hsecond, hnanosecond, hleap⟩ := h
  have hnanos : t.nanosecond % 1000000000 < 1000000000 := Nat.mod_lt _ (by decide)
  have hseconds : t.secondOfDay % 60 + t.nanosecond / 1000000000 ≤ 60 := by omega
  have hhour (rest : List Char) : CalendarReader.twoDigits 0 23
      (Date.padded 2 (t.secondOfDay / 3600) ++ rest) = .ok (t.secondOfDay / 3600, rest) :=
    CalendarReader.twoDigits_padded (Nat.zero_le _) (by omega) (by omega)
  have hminute (rest : List Char) : CalendarReader.twoDigits 0 59
      (Date.padded 2 (t.secondOfDay / 60 % 60) ++ rest) = .ok (t.secondOfDay / 60 % 60, rest) :=
    CalendarReader.twoDigits_padded (Nat.zero_le _) (by omega) (by omega)
  have hcolon (rest : List Char) : CalendarReader.separator ':' (':' :: rest) = .ok ((), rest) :=
    CalendarReader.separator_cons (by decide)
  simp only [clock, hhour, hminute, hcolon, ok_bind,
    CalendarReader.twoDigits_padded (Nat.zero_le _) hseconds (by omega),
    fraction_padded hnanos hend]
  split
  · rename_i hsixty
    refine congrArg Except.ok (Prod.ext (congrArg₂ Clock.mk ?_ ?_) rfl)
    · omega
    · omega
  · refine congrArg Except.ok (Prod.ext (congrArg₂ Clock.mk ?_ ?_) rfl)
    · omega
    · omega

/-- The text of a point in time is read as the point in time. -/
theorem read_text {t : Timestamp} (h : t.Legal) : read t.text = .ok t := by
  have hday : ((t.secondOfDay : Int) - 0) / 86400 = 0 := by
    have := h.second
    omega
  have hsecond : (((t.secondOfDay : Int) - 0) % 86400).toNat = t.secondOfDay := by
    have := h.second
    omega
  have hsame : t.date.addDays? 0 = some t.date := by
    rw [Date.addDays?, Int.add_zero, Date.ofDayNumber?_toDayNumber]
  rw [read, text, String.toList_ofList]
  simp only [List.append_assoc, List.cons_append]
  rw [CalendarReader.yearMonthDay_isoText, ok_bind]
  dsimp only
  rw [show divider ('T' :: _) = .ok ((), _) from rfl, ok_bind,
    clock_text h (by rintro _ ⟨⟩; decide), ok_bind]
  dsimp only
  rw [show offset (Text.trimStart ['Z']) = .ok (0, []) from rfl, ok_bind]
  dsimp only
  rw [Date.of?, dif_pos t.date.valid]
  dsimp only
  rw [hday, hsame]
  dsimp only
  rw [hsecond]
  rfl

end Timestamp

end QuotePress
