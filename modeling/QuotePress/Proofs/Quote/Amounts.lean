import QuotePress.Proofs.Decimal.Arithmetic
import QuotePress.Proofs.Text.Runs
import QuotePress.Quote.Amount

/-! # Cents of amounts, and cents that are read off a printed amount

The cents of an amount are a hundred times the amount, but for two roundings: of the product, and of
the double to a whole number. A printed amount shows its cents. -/
namespace QuotePress.Amount

open Binary64

def worth (amount : Float) : ℚ :=
  value (ofFloat amount)

def fits (amount : Float) : Bool :=
  let exact := ofFloat (amount * 100)
  exact.isFinite && minInt ≤ exact.nearest && exact.nearest ≤ maxInt

theorem worth_zero : worth 0 = 0 := by
  have hbits : ofFloat 0 = .finite false 0 (-1074) := by decide +kernel
  simp [worth, hbits, value, signed]

theorem value_hundred : value (ofFloat 100) = (100 : Nat) := by
  have hbits : ofFloat 100 = .finite false 7036874417766400 (-46) := by decide +kernel
  rw [hbits]
  norm_num [value, signed]

section Cents

variable {amount : Float}

theorem isFinite_of_fits (h : fits amount = true) : (ofFloat (amount * 100)).isFinite = true := by
  simp only [fits, Bool.and_eq_true] at h
  exact h.1.1

theorem cents_of_fits (h : fits amount = true) :
    cents amount = (ofFloat (amount * 100)).nearest := by
  have hfinite := isFinite_of_fits h
  simp only [fits, Bool.and_eq_true, decide_eq_true_eq] at h
  rw [cents, round_eq hfinite, clamp, min_eq_right h.2, max_eq_right h.1.2]

/-- An amount that fits loses half a cent at most when it is rounded to cents. -/
theorem cents_within_half (h : fits amount = true) :
    |(cents amount : ℚ) - value (ofFloat (amount * 100))| ≤ 1 / 2 := by
  rw [cents_of_fits h]
  exact nearest_within_half _

theorem hundredfold_near (h : fits amount = true) :
    Near (value (ofFloat (amount * 100))) (worth amount * 100) :=
  value_mul_whole_near value_hundred (isFinite_of_fits h)

theorem cents_near (h : fits amount = true) :
    |(cents amount : ℚ) - worth amount * 100| ≤ 1 / 2 + |worth amount * 100| / 2 ^ 53 :=
  calc |(cents amount : ℚ) - worth amount * 100|
      ≤ |(cents amount : ℚ) - value (ofFloat (amount * 100))| +
          |value (ofFloat (amount * 100)) - worth amount * 100| := abs_sub_le ..
    _ ≤ 1 / 2 + |worth amount * 100| / 2 ^ 53 :=
        add_le_add (cents_within_half h) (hundredfold_near h)

end Cents

/-- The cents that a printed amount shows: its digits from the last blank on, below zero if
something else than the symbol stands in front. -/
def shown (symbol text : String) : Int :=
  let reversed := text.toList.reverse
  let number := (reversed.takeWhile (· ≠ ' ')).reverse
  let front := (reversed.dropWhile (· ≠ ' ')).tail.reverse
  signed (front ≠ symbol.toList) (Decimal.ofDigits (number.filter Char.isDigit))

theorem filter_groupThousands {digits : List Char} (h : ∀ c ∈ digits, c.isDigit = true) :
    (groupThousands digits).filter Char.isDigit = digits := by
  fun_induction groupThousands digits with
  | case1 => rfl
  | case2 d rest hgroup ih =>
    have hd : d.isDigit = true := h d List.mem_cons_self
    have hcomma : ¬ (',' : Char).isDigit = true := by decide
    rw [List.filter_cons_of_pos hd, List.filter_cons_of_neg hcomma,
      ih fun c hc => h c (List.mem_cons_of_mem d hc)]
  | case3 d rest hgroup ih =>
    rw [List.filter_cons_of_pos (h d List.mem_cons_self),
      ih fun c hc => h c (List.mem_cons_of_mem d hc)]

theorem mem_groupThousands {c : Char} {digits : List Char} (h : c ∈ groupThousands digits) :
    c = ',' ∨ c ∈ digits := by
  fun_induction groupThousands digits with
  | case1 => exact Or.inr h
  | case2 d rest hgroup ih =>
    rcases List.mem_cons.1 h with rfl | h
    · exact Or.inr List.mem_cons_self
    · rcases List.mem_cons.1 h with rfl | h
      · exact Or.inl rfl
      · exact (ih h).imp_right (List.mem_cons_of_mem d)
  | case3 d rest hgroup ih =>
    rcases List.mem_cons.1 h with rfl | h
    · exact Or.inr List.mem_cons_self
    · exact (ih h).imp_right (List.mem_cons_of_mem d)

def numberText (magnitude : Nat) : List Char :=
  groupThousands (Nat.toDigits 10 (magnitude / 100)) ++ '.' :: Date.padded 2 (magnitude % 100)

theorem numberText_no_blank {magnitude : Nat} {c : Char} (h : c ∈ numberText magnitude) :
    c ≠ ' ' := by
  have hdigit (hc : c.isDigit = true) : c ≠ ' ' := by
    rintro rfl
    cases hc
  rcases List.mem_append.1 h with h | h
  · rcases mem_groupThousands h with rfl | h
    · decide
    · exact hdigit (Decimal.isDigit_toDigits _ c h)
  · rcases List.mem_cons.1 h with rfl | h
    · decide
    · exact hdigit (Date.isDigit_padded 2 _ c h)

theorem ofDigits_digits (magnitude : Nat) :
    Decimal.ofDigits (Nat.toDigits 10 (magnitude / 100) ++ Date.padded 2 (magnitude % 100)) =
      magnitude := by
  have htwo : (Date.padded 2 (magnitude % 100)).length = 2 :=
    Date.length_padded two_pos (Nat.mod_lt _ (by decide))
  rw [Decimal.ofDigits_eq, Nat.ofDigitChars_append, Nat.ofDigitChars_eq_ofDigitChars_zero, htwo,
    ← Decimal.ofDigits_eq, ← Decimal.ofDigits_eq, Decimal.ofDigits_toDigits, Date.ofDigits_padded]
  exact Nat.div_add_mod magnitude 100

theorem ofDigits_numberText (magnitude : Nat) :
    Decimal.ofDigits ((numberText magnitude).filter Char.isDigit) = magnitude := by
  have hpoint : ¬ ('.' : Char).isDigit = true := by decide
  have hdecimals : (Date.padded 2 (magnitude % 100)).filter Char.isDigit =
      Date.padded 2 (magnitude % 100) := List.filter_eq_self.2 (Date.isDigit_padded 2 _)
  rw [numberText, List.filter_append, filter_groupThousands (Decimal.isDigit_toDigits _),
    List.filter_cons_of_neg hpoint, hdecimals]
  exact ofDigits_digits magnitude

theorem toList_centsText (symbol : String) (c : Int) : (centsText symbol c).toList =
    ((if c < 0 then ['-'] else []) ++ symbol.toList) ++ ' ' :: numberText c.natAbs := by
  rw [centsText, numberText]
  by_cases h : c < 0
  · simp [h]
  · simp [h]

theorem signed_natAbs (c : Int) : signed (c < 0) c.natAbs = c := by
  by_cases h : c < 0
  · rw [signed, if_pos (decide_eq_true h)]
    omega
  · rw [signed, if_neg (mt of_decide_eq_true h)]
    omega

/-- A printed amount shows the cents that it was printed from, whatever the symbol. -/
theorem shown_centsText (symbol : String) (c : Int) : shown symbol (centsText symbol c) = c := by
  obtain ⟨hnumber, hfront⟩ := @span_exact (· ≠ ' ') (numberText c.natAbs).reverse
    (' ' :: ((if c < 0 then ['-'] else []) ++ symbol.toList).reverse)
    (fun d hd => decide_eq_true (numberText_no_blank (List.mem_reverse.1 hd)))
    (by rintro d ⟨⟩; decide)
  have hreversed : (centsText symbol c).toList.reverse = (numberText c.natAbs).reverse ++
      ' ' :: ((if c < 0 then ['-'] else []) ++ symbol.toList).reverse := by
    rw [toList_centsText]
    simp
  have hsign : decide ((if c < 0 then ['-'] else []) ++ symbol.toList ≠ symbol.toList) =
      decide (c < 0) := by
    by_cases h : c < 0
    · simp [h]
    · simp [h]
  rw [shown, hreversed, hnumber, hfront, List.tail_cons, List.reverse_reverse, List.reverse_reverse,
    ofDigits_numberText, hsign, signed_natAbs]

end QuotePress.Amount
