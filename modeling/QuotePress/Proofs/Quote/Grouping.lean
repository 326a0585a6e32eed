import QuotePress.Proofs.Quote.Amounts

/-! # Printed amounts in groups of digits

The digits before the point stand in groups of three, counted from the point. The groups and the two
digits behind the point are those of the cents, so that amounts print alike only if their cents are
the same. -/
namespace QuotePress.Amount

open Binary64

/-- The groups of a whole number: one to three digits in front, three in every other group, and no
zero in front of other digits. -/
structure IsGrouped (first : List Char) (others : List (List Char)) : Prop where
  digits : ∀ c ∈ first ++ others.flatten, c.isDigit = true
  first_length : 1 ≤ first.length ∧ first.length ≤ 3
  other_length : ∀ group ∈ others, group.length = 3
  leading : first.head? = some '0' → first = ['0'] ∧ others = []

def written (first : List Char) (others : List (List Char)) : List Char :=
  first ++ others.flatMap (',' :: ·)

theorem length_flatten_threes {groups : List (List Char)} (h : ∀ group ∈ groups, group.length = 3) :
    groups.flatten.length = 3 * groups.length := by
  induction groups with
  | nil => rfl
  | cons group rest ih =>
    rw [List.flatten_cons, List.length_append, h group List.mem_cons_self, List.length_cons,
      ih fun other hother => h other (List.mem_cons_of_mem group hother)]
    omega

/-- Commas are put between groups that are counted from the right. A digit in front of a full group
is a group of its own, and any other digit joins the first group. -/
theorem groupThousands_eq {digits : List Char} (h : digits ≠ []) :
    ∃ first others, digits = first ++ others.flatten ∧ groupThousands digits = written first others ∧
      (1 ≤ first.length ∧ first.length ≤ 3) ∧ ∀ group ∈ others, group.length = 3 := by
  fun_induction groupThousands digits with
  | case1 => exact absurd rfl h
  | case2 d rest hgroup ih =>
    obtain ⟨hthrees, hrest⟩ := hgroup
    obtain ⟨first, others, hsplit, hwritten, hfirst, hothers⟩ := ih hrest
    have hlength := congrArg List.length hsplit
    rw [List.length_append, length_flatten_threes hothers] at hlength
    refine ⟨[d], first :: others, ?_, ?_, ⟨Nat.le_refl 1, Nat.le_add_left 1 2⟩, ?_⟩
    · rw [List.flatten_cons, ← hsplit]
      rfl
    · rw [hwritten]
      rfl
    · intro group hgroup
      rcases List.mem_cons.1 hgroup with rfl | hgroup
      · omega
      · exact hothers group hgroup
  | case3 d rest hgroup ih =>
    by_cases hrest : rest = []
    · subst hrest
      exact ⟨[d], [], rfl, rfl, ⟨Nat.le_refl 1, Nat.le_add_left 1 2⟩, List.forall_mem_nil _⟩
    · obtain ⟨first, others, hsplit, hwritten, hfirst, hothers⟩ := ih hrest
      have hlength := congrArg List.length hsplit
      rw [List.length_append, length_flatten_threes hothers] at hlength
      have hopen : rest.length % 3 ≠ 0 := fun hthrees => hgroup ⟨hthrees, hrest⟩
      refine ⟨d :: first, others, ?_, ?_, ?_, hothers⟩
      · rw [hsplit]
        rfl
      · rw [hwritten]
        rfl
      · rw [List.length_cons]
        omega

theorem groupThousands_toDigits (n : Nat) : ∃ first others, IsGrouped first others ∧
    Nat.toDigits 10 n = first ++ others.flatten ∧
      groupThousands (Nat.toDigits 10 n) = written first others := by
  obtain ⟨first, others, hsplit, hwritten, hfirst, hothers⟩ :=
    groupThousands_eq (Nat.toDigits_ne_nil (b := 10) (n := n))
  refine ⟨first, others, ⟨?_, hfirst, hothers, ?_⟩, hsplit, hwritten⟩
  · rw [← hsplit]
    exact Decimal.isDigit_toDigits n
  · intro hzero
    obtain ⟨rest, rfl⟩ := List.head?_eq_some_iff.1 hzero
    obtain ⟨rfl, hflatten⟩ := List.append_eq_nil_iff.1 (Decimal.toDigits_zero_head hsplit)
    refine ⟨rfl, List.eq_nil_iff_forall_not_mem.2 fun group hgroup => ?_⟩
    have hempty := List.flatten_eq_nil_iff.1 hflatten group hgroup
    have hlength := hothers group hgroup
    rw [hempty] at hlength
    cases hlength

/-- Amounts that fit are printed as the whole cents that are nearest to them: a minus sign for those
below zero, the symbol, a blank, groups of digits, a point and two digits. The digits are those of
the cents, and so the cents tell amounts apart in print. -/
theorem text_grouped (symbol : String) {amount : Float} (h : fits amount = true) :
    let n := (ofFloat (amount * 100)).nearest
    (∃ first others decimals, IsGrouped first others ∧
      decimals.length = 2 ∧ (∀ c ∈ decimals, c.isDigit = true) ∧
      (text symbol amount).toList = (if n < 0 then ['-'] else []) ++ symbol.toList ++
        ' ' :: (written first others ++ '.' :: decimals) ∧
      Decimal.ofDigits (first ++ others.flatten ++ decimals) = n.natAbs) ∧
    ∀ other, fits other = true →
      (text symbol amount = text symbol other ↔ n = (ofFloat (other * 100)).nearest) := by
  intro n
  have htext : text symbol amount = centsText symbol n := by
    rw [text, cents_of_fits h]
  constructor
  · obtain ⟨first, others, hgrouped, hsplit, hwritten⟩ :=
      groupThousands_toDigits (n.natAbs / 100)
    refine ⟨first, others, Date.padded 2 (n.natAbs % 100), hgrouped,
      Date.length_padded two_pos (Nat.mod_lt _ (by decide)), Date.isDigit_padded 2 _, ?_, ?_⟩
    · rw [htext, toList_centsText, numberText, hwritten]
    · rw [← hsplit]
      exact ofDigits_digits n.natAbs
  · intro other hother
    rw [htext, text, cents_of_fits hother]
    constructor
    · intro hsame
      rw [← shown_centsText symbol n, hsame, shown_centsText]
    · intro hsame
      rw [hsame]

/-- The least cents that there are, and an amount of four groups. -/
theorem text_grouped_least :
    fits (-92233720368547758.08) = true ∧ fits 1234567890.5 = true ∧
      (ofFloat (-92233720368547758.08 * 100)).nearest = minInt ∧
      text "R$" (-92233720368547758.08) = "-R$ 92,233,720,368,547,758.08" ∧
      text "R$" (-92233720368547758.08) ≠ text "R$" 1234567890.5 := by
  have hleast : fits (-92233720368547758.08) = true := by decide +kernel
  have hother : fits 1234567890.5 = true := by decide +kernel
  refine ⟨hleast, hother, by decide +kernel, by decide +kernel, ?_⟩
  intro hsame
  have hcents := ((text_grouped "R$" hleast).2 1234567890.5 hother).1 hsame
  revert hcents
  decide +kernel

end QuotePress.Amount
