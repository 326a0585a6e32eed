import QuotePress.Proofs.Decimal.Limit
import QuotePress.Proofs.Quote.Totals

/-! # Quotes whose numbers are too large to be printed

The rules of a quote bound each field by itself, but what is printed are products and sums, in whole
numbers of 64 bits. A quote that breaks no rule prints its numbers as they are exactly when its total,
the unit prices that are shown, and its quantities are within that. -/
namespace QuotePress

open Binary64

namespace Amount

def countable (quantity : Float) : Bool :=
  let exact := ofFloat quantity
  exact.isFinite && (!exact.isWhole || (minInt ≤ exact.wholePart && exact.wholePart ≤ maxInt))

theorem quantityText_of_countable {quantity : Float} (h : countable quantity = true)
    (hwhole : (ofFloat quantity).isWhole = true) :
    ∃ n : Int, quantityText quantity = toString n ∧ n = value (ofFloat quantity) := by
  simp only [countable, hwhole, Bool.not_true, Bool.false_or, Bool.and_eq_true,
    decide_eq_true_eq] at h
  obtain ⟨hfinite, hlow, hhigh⟩ := h
  refine ⟨(ofFloat quantity).wholePart, ?_, wholePart_of_isWhole hwhole⟩
  rw [quantityText, if_pos hwhole, truncate_eq hfinite, clamp, min_eq_right hhigh, max_eq_right hlow]

theorem isBelowZero_hundred : (ofFloat 100).isBelowZero = false := by
  decide +kernel

theorem fits_iff_lt {amount : Float} (h : (ofFloat amount).isBelowZero = false) :
    fits amount = true ↔ amount * 100 < limit := by
  have hproduct := isBelowZero_mul h isBelowZero_hundred
  rw [lt_limit_iff hproduct, fits]
  simp only [Bool.and_eq_true, decide_eq_true_eq, and_assoc]
  exact and_congr_right fun hfinite => nearest_within_iff hproduct hfinite

theorem countable_iff_lt {quantity : Float} (h : (ofFloat quantity).isBelowZero = false) :
    countable quantity = true ↔ quantity < limit := by
  rw [lt_limit_iff h, countable]
  simp only [Bool.and_eq_true, Bool.or_eq_true, Bool.not_eq_true', decide_eq_true_eq]
  refine and_congr_right fun hfinite => ?_
  rw [← wholePart_within_iff h hfinite]
  cases (ofFloat quantity).isWhole <;> simp

theorem fits_of_le {amount larger : Float} (h : (ofFloat amount).isBelowZero = false)
    (hlarger : (ofFloat larger).isBelowZero = false) (hfinite : (ofFloat amount).isFinite = true)
    (hle : worth amount ≤ worth larger) (hfits : fits larger = true) : fits amount = true := by
  rw [fits_iff_lt hlarger, lt_limit_iff (isBelowZero_mul hlarger isBelowZero_hundred)] at hfits
  rw [fits_iff_lt h, lt_limit_iff (isBelowZero_mul h isBelowZero_hundred)]
  obtain ⟨hproduct, hless⟩ :=
    value_mul_whole_mono h hlarger isBelowZero_hundred value_hundred hfinite hfits.1 hle
  exact ⟨hproduct, hless.trans_lt hfits.2⟩

end Amount

theorem Violation.check_eq_nil_iff {kept : Bool} {field message : String} :
    Violation.check kept field message = [] ↔ kept = true := by
  cases kept <;> simp [Violation.check]

namespace LineItem

def showsUnitPrice (item : LineItem) : Bool :=
  item.pricing.suffix?.isSome && item.showUnitPrice

structure Upward (item : LineItem) : Prop where
  quantity : (ofFloat item.quantity).isBelowZero = false
  unitPrice : (ofFloat item.unitPrice).isBelowZero = false
  measure : (ofFloat item.measure).isBelowZero = false

section Rules

variable {item : LineItem}

theorem isBelowZero_of_hasLength {x : Option Float} (h : hasLength x = true) :
    (ofFloat (x.getD 0)).isBelowZero = false := by
  cases x with
  | none => cases h
  | some x =>
    exact isBelowZero_of_pos (of_decide_eq_true (Bool.and_eq_true_iff.1 h).2)

theorem upward_of_violations {path : String} (h : item.violations path = []) : item.Upward := by
  simp only [violations, List.append_eq_nil_iff, Violation.check_eq_nil_iff] at h
  obtain ⟨⟨⟨⟨-, hquantity⟩, hprice⟩, hwidth⟩, hheight⟩ := h
  refine ⟨?_, ?_, ?_⟩
  · exact isBelowZero_of_pos (of_decide_eq_true (Bool.and_eq_true_iff.1 hquantity).2)
  · exact isBelowZero_of_nonneg (of_decide_eq_true (Bool.and_eq_true_iff.1 hprice).2)
  · have hone : (ofFloat 1).isBelowZero = false := by decide +kernel
    rw [measure]
    cases hpricing : item.pricing with
    | unit => exact hone
    | fixed => exact hone
    | linearMetre =>
      rw [hpricing] at hwidth
      exact isBelowZero_of_hasLength hwidth
    | squareMetre =>
      rw [hpricing] at hwidth hheight
      exact isBelowZero_mul (isBelowZero_of_hasLength hwidth) (isBelowZero_of_hasLength hheight)

theorem Upward.subtotal (h : item.Upward) : (ofFloat item.subtotal).isBelowZero = false := by
  have hproduct := isBelowZero_mul (isBelowZero_mul h.measure h.quantity) h.unitPrice
  rw [LineItem.subtotal]
  cases item.pricing with
  | fixed => exact h.unitPrice
  | unit => exact hproduct
  | linearMetre => exact hproduct
  | squareMetre => exact hproduct

end Rules

section Sums

variable (items : List LineItem) {first : Float} (hfirst : (ofFloat first).isBelowZero = false)
  (hitems : ∀ item ∈ items, item.Upward)

include hfirst hitems

theorem isBelowZero_foldl :
    (ofFloat (items.foldl (fun sum item => sum + item.subtotal) first)).isBelowZero = false := by
  induction items generalizing first with
  | nil => exact hfirst
  | cons item rest ih =>
    exact ih (isBelowZero_add hfirst (hitems item List.mem_cons_self).subtotal)
      fun other hother => hitems other (List.mem_cons_of_mem item hother)

/-- A running sum of lines that are not below zero only grows. -/
theorem le_foldl
    (h : (ofFloat (items.foldl (fun sum item => sum + item.subtotal) first)).isFinite = true) :
    let last := items.foldl (fun sum item => sum + item.subtotal) first
    Amount.worth first ≤ Amount.worth last ∧
      ∀ item ∈ items, (ofFloat item.subtotal).isFinite = true ∧ item.worth ≤ Amount.worth last := by
  induction items generalizing first with
  | nil => exact ⟨le_rfl, nofun⟩
  | cons item rest ih =>
    have hitem := (hitems item List.mem_cons_self).subtotal
    have hadded : (ofFloat (first + item.subtotal)).isFinite = true := isFinite_first rest h
    obtain ⟨hfinite, hline⟩ := isFinite_of_add hadded
    obtain ⟨hlast, hrest⟩ := ih (isBelowZero_add hfirst hitem)
      (fun other hother => hitems other (List.mem_cons_of_mem item hother)) h
    have hgrown : Amount.worth first ≤ Amount.worth (first + item.subtotal) :=
      le_value_add hfirst hitem hfirst hfinite hadded
        (le_add_of_nonneg_right (value_nonneg hitem))
    have hcovered : item.worth ≤ Amount.worth (first + item.subtotal) :=
      le_value_add hfirst hitem hitem hline hadded (le_add_of_nonneg_left (value_nonneg hfirst))
    refine ⟨hgrown.trans hlast, ?_⟩
    intro other hother
    rcases List.mem_cons.1 hother with rfl | hother
    · exact ⟨hline, hcovered.trans hlast⟩
    · exact hrest other hother

end Sums

end LineItem

namespace QuoteDocument

/-- The lines and the total are finite, and no number of 64 bits that is printed is clamped. -/
structure PrintsRealNumbers (d : QuoteDocument) : Prop where
  subtotal_finite : ∀ item ∈ d.quote.items, (ofFloat item.subtotal).isFinite = true
  total_finite : (ofFloat d.quote.total).isFinite = true
  subtotal_fits : ∀ item ∈ d.quote.items, Amount.fits item.subtotal = true
  total_fits : Amount.fits d.quote.total = true
  unitPrice_fits : ∀ item ∈ d.quote.items, item.showsUnitPrice = true →
    Amount.fits item.unitPrice = true
  quantity_countable : ∀ item ∈ d.quote.items, Amount.countable item.quantity = true

structure WithinLimits (d : QuoteDocument) : Prop where
  total_lt : d.quote.total * 100 < limit
  unitPrice_lt : ∀ item ∈ d.quote.items, item.showsUnitPrice = true →
    item.unitPrice * 100 < limit
  quantity_lt : ∀ item ∈ d.quote.items, item.quantity < limit

section Rules

variable {d : QuoteDocument}

theorem upward_of_itemViolations {index : Nat} {items : List LineItem}
    (h : itemViolations index items = []) : ∀ item ∈ items, item.Upward := by
  induction items generalizing index with
  | nil => nofun
  | cons item rest ih =>
    obtain ⟨hitem, hrest⟩ := List.append_eq_nil_iff.1 h
    intro other hother
    rcases List.mem_cons.1 hother with rfl | hother
    · exact LineItem.upward_of_violations hitem
    · exact ih hrest other hother

theorem upward_of_violations (h : d.violations = []) : ∀ item ∈ d.quote.items, item.Upward :=
  upward_of_itemViolations (List.append_eq_nil_iff.1 h).2

/-- A quote that breaks no rule prints its numbers as they are exactly within the limits: no line is
larger than the total. -/
theorem printsRealNumbers_iff (h : d.violations = []) : d.PrintsRealNumbers ↔ d.WithinLimits := by
  have hitems := upward_of_violations h
  have hzero : (ofFloat 0).isBelowZero = false := by decide +kernel
  have htotal : (ofFloat d.quote.total).isBelowZero = false :=
    LineItem.isBelowZero_foldl d.quote.items hzero hitems
  constructor
  · intro hreal
    refine ⟨(Amount.fits_iff_lt htotal).1 hreal.total_fits, ?_, ?_⟩
    · intro item hitem hshown
      exact (Amount.fits_iff_lt (hitems item hitem).unitPrice).1
        (hreal.unitPrice_fits item hitem hshown)
    · intro item hitem
      exact (Amount.countable_iff_lt (hitems item hitem).quantity).1
        (hreal.quantity_countable item hitem)
  · intro hlimits
    have htotalFits := (Amount.fits_iff_lt htotal).2 hlimits.total_lt
    have hfinite := (isFinite_of_mul (Amount.isFinite_of_fits htotalFits)).1
    obtain ⟨-, hlines⟩ := LineItem.le_foldl d.quote.items hzero hitems hfinite
    refine ⟨fun item hitem => (hlines item hitem).1, hfinite, ?_, htotalFits, ?_, ?_⟩
    · intro item hitem
      obtain ⟨hline, hle⟩ := hlines item hitem
      exact Amount.fits_of_le (hitems item hitem).subtotal htotal hline hle htotalFits
    · intro item hitem hshown
      exact (Amount.fits_iff_lt (hitems item hitem).unitPrice).2
        (hlimits.unitPrice_lt item hitem hshown)
    · intro item hitem
      exact (Amount.countable_iff_lt (hitems item hitem).quantity).2
        (hlimits.quantity_lt item hitem)

end Rules

/-- The next larger price would not be printed as it is. -/
theorem printsRealNumbers_iff_largest :
    let tower : LineItem := ⟨"Tower", .unit, 1, none, none, 92233720368547744, true⟩
    let quote := { Quote.blank with number := "7", items := [tower] }
    let d : QuoteDocument := ⟨{ name := "A" }, { name := "B" }, quote⟩
    d.violations = [] ∧ d.PrintsRealNumbers := by
  intro tower quote d
  have hvalid : d.violations = [] := by decide +kernel
  refine ⟨hvalid, (printsRealNumbers_iff hvalid).2 ⟨?_, ?_, ?_⟩⟩
  · decide +kernel
  · decide +kernel
  · decide +kernel

/-- A price of `1e17` breaks no rule, and less than it is printed. -/
theorem printed_total_clamped :
    let tower : LineItem := ⟨"Tower", .fixed, 1, none, none, 1e17, false⟩
    let quote := { Quote.blank with number := "7", items := [tower] }
    let d : QuoteDocument := ⟨{ name := "A" }, { name := "B" }, quote⟩
    d.violations = [] ∧ ¬ d.PrintsRealNumbers ∧
      (d.toContext "R$").value? "total" = some (.text "R$ 92,233,720,368,547,758.07") := by
  intro tower quote d
  refine ⟨by decide +kernel, ?_, ?_⟩
  · intro hreal
    exact absurd hreal.total_fits (by decide +kernel)
  · decide +kernel

end QuoteDocument

end QuotePress
