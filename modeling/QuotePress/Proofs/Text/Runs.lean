import QuotePress.Calendar.Date
import QuotePress.Decimal.Literal
import Mathlib.Algebra.Group.Nat.Defs
import Mathlib.Data.List.Induction

/-! # Runs of characters of one class

A run ends where a character of another class follows. Numbers are written as runs of digits, which
give the number again; other runs of digits have zeros in front. -/
namespace QuotePress

theorem span_exact {p : Char → Bool} {body rest : List Char} (hbody : ∀ c ∈ body, p c = true)
    (hrest : ∀ c, rest.head? = some c → p c = false) :
    (body ++ rest).takeWhile p = body ∧ (body ++ rest).dropWhile p = rest := by
  rw [List.takeWhile_append_of_pos hbody, List.dropWhile_append_of_pos hbody]
  cases rest with
  | nil => simp
  | cons c rest => simp [hrest c rfl]

namespace Decimal

theorem ofDigits_eq (ds : List Char) : ofDigits ds = Nat.ofDigitChars 10 ds 0 :=
  Nat.ofDigitChars_eq_foldl.symm

theorem ofDigits_toDigits (n : Nat) : ofDigits (Nat.toDigits 10 n) = n := by
  rw [ofDigits_eq, Nat.ofDigitChars_ten_toDigits]

theorem isDigit_toDigits (n : Nat) : ∀ c ∈ Nat.toDigits 10 n, c.isDigit = true :=
  fun _ h => Nat.isDigit_of_mem_toDigits (by decide) (by decide) h

theorem toDigits_zero_head {n : Nat} {rest : List Char}
    (h : Nat.toDigits 10 n = '0' :: rest) : rest = [] := by
  induction n using Nat.strongRecOn generalizing rest with
  | ind n ih =>
    by_cases hsmall : n < 10
    · rw [Nat.toDigits_of_lt_base hsmall] at h
      exact (List.cons.inj h).2.symm
    · rw [Nat.toDigits_of_base_le (by decide) (by omega)] at h
      cases hfront : Nat.toDigits 10 (n / 10) with
      | nil => exact absurd hfront Nat.toDigits_ne_nil
      | cons c front =>
        rw [hfront] at h
        obtain ⟨rfl, -⟩ := List.cons.inj h
        -- The digits in front would be those of zero, but they are of a tenth of `n`.
        cases ih (n / 10) (by omega) hfront
        have hzero := congrArg ofDigits hfront
        rw [ofDigits_toDigits] at hzero
        have : n / 10 = 0 := hzero
        omega

theorem ofDigits_zeros (zeros n : Nat) :
    ofDigits (List.replicate zeros '0' ++ Nat.toDigits 10 n) = n := by
  rw [ofDigits_eq, Nat.ofDigitChars_append, Nat.ofDigitChars_replicate_zero, Nat.mul_zero,
    Nat.ofDigitChars_ten_toDigits]

theorem isDigit_zeros (zeros n : Nat) :
    ∀ c ∈ List.replicate zeros '0' ++ Nat.toDigits 10 n, c.isDigit = true := by
  intro c hc
  rcases List.mem_append.1 hc with hc | hc
  · rw [List.eq_of_mem_replicate hc]
    rfl
  · exact isDigit_toDigits n c hc

theorem ofDigits_concat (ds : List Char) (d : Char) :
    ofDigits (ds ++ [d]) = 10 * ofDigits ds + (d.toNat - '0'.toNat) := by
  rw [ofDigits, List.foldl_append]
  rfl

theorem digitChar_of_isDigit {d : Char} (h : d.isDigit = true) :
    d.toNat - '0'.toNat < 10 ∧ Nat.digitChar (d.toNat - '0'.toNat) = d := by
  have hwritten : ∀ n < 10, Nat.digitChar n = Char.ofNat (n + '0'.toNat) := by decide
  obtain ⟨hlow, hhigh⟩ : '0'.toNat ≤ d.toNat ∧ d.toNat ≤ '9'.toNat := by
    simpa [Char.isDigit, UInt32.le_iff_toNat_le] using h
  have hsmall : d.toNat - '0'.toNat < 10 :=
    Nat.sub_lt_left_of_lt_add hlow (Nat.lt_succ_of_le hhigh)
  rw [hwritten _ hsmall, Nat.sub_add_cancel hlow, Char.ofNat_toNat]
  exact ⟨hsmall, rfl⟩

/-- Every run of digits is that of its number, behind zeros. -/
theorem exists_zeros {ds : List Char} (hne : ds ≠ []) (hdigits : ∀ d ∈ ds, d.isDigit = true) :
    ∃ zeros, ds = List.replicate zeros '0' ++ Nat.toDigits 10 (ofDigits ds) := by
  induction ds using List.reverseRecOn with
  | nil => exact absurd rfl hne
  | append_singleton ds d ih =>
    obtain ⟨hsmall, hd⟩ := digitChar_of_isDigit (hdigits d (by simp))
    rw [ofDigits_concat]
    by_cases hfirst : ds = []
    · subst hfirst
      refine ⟨0, ?_⟩
      rw [show ofDigits [] = 0 from rfl, Nat.mul_zero, Nat.zero_add,
        Nat.toDigits_of_lt_base hsmall, hd]
      rfl
    · obtain ⟨zeros, hzeros⟩ := ih hfirst fun c hc => hdigits c (List.mem_append_left _ hc)
      by_cases hzero : ofDigits ds = 0
      · refine ⟨zeros + 1, ?_⟩
        rw [hzero] at hzeros
        rw [hzero, Nat.mul_zero, Nat.zero_add, Nat.toDigits_of_lt_base hsmall, hd, hzeros,
          List.replicate_succ']
        rfl
      · refine ⟨zeros, ?_⟩
        rw [Nat.toDigits_of_base_le (by decide) (by omega), Nat.mul_add_mod, Nat.mod_eq_of_lt hsmall,
          hd, Nat.mul_add_div (by decide), Nat.div_eq_of_lt hsmall, Nat.add_zero,
          ← List.append_assoc, ← hzeros]

end Decimal

namespace Date

theorem isDigit_padded (width n : Nat) : ∀ c ∈ padded width n, c.isDigit = true :=
  Decimal.isDigit_zeros _ n

theorem ofDigits_padded (width n : Nat) : Decimal.ofDigits (padded width n) = n :=
  Decimal.ofDigits_zeros _ n

theorem length_padded {width n : Nat} (hwidth : 0 < width) (h : n < 10 ^ width) :
    (padded width n).length = width := by
  have hlength := (Nat.length_toDigits_le_iff (by decide) hwidth).2 h
  rw [padded, List.length_append, List.length_replicate]
  omega

theorem padded_ne_nil (width n : Nat) : padded width n ≠ [] :=
  List.append_ne_nil_of_right_ne_nil _ Nat.toDigits_ne_nil

end Date

end QuotePress
