import QuotePress.Proofs.Quote.Amounts
import QuotePress.Proofs.Quote.Bindings
import Mathlib.Algebra.Order.BigOperators.Group.List
import Mathlib.Algebra.BigOperators.Ring.List

/-! # The printed total against the printed lines

Every line is rounded to cents when it is printed, while the total is added up from lines that are
not rounded, and is rounded once. -/
namespace QuotePress

open Binary64

namespace LineItem

def worth (item : LineItem) : ℚ :=
  Amount.worth item.subtotal

def cents (item : LineItem) : Int :=
  Amount.cents item.subtotal

/-- What a line gains in print, in cents. -/
def rounding (item : LineItem) : ℚ :=
  item.cents - item.worth * 100

theorem abs_rounding_le {item : LineItem} (h : Amount.fits item.subtotal = true) :
    |item.rounding| ≤ 1 / 2 + |item.worth| * 100 / 2 ^ 53 := by
  have hhundred : |item.worth * 100| = |item.worth| * 100 := by
    rw [abs_mul, Nat.abs_ofNat]
  rw [← hhundred]
  exact Amount.cents_near h

def weight (items : List LineItem) : ℚ :=
  (items.map fun item => |item.worth|).sum

section Sums

variable {items : List LineItem}

theorem weight_nonneg : 0 ≤ weight items := by
  apply List.sum_nonneg
  intro q hq
  obtain ⟨item, -, rfl⟩ := List.mem_map.1 hq
  exact abs_nonneg item.worth

theorem weight_cons (item : LineItem) : weight (item :: items) = |item.worth| + weight items :=
  List.sum_cons

theorem isFinite_first (items : List LineItem) {first : Float}
    (h : (ofFloat (items.foldl (fun sum item => sum + item.subtotal) first)).isFinite = true) :
    (ofFloat first).isFinite = true := by
  induction items generalizing first with
  | nil => exact h
  | cons item rest ih => exact (isFinite_of_add (ih h)).1

/-- Each of the additions is off by a part of what has been added up so far. -/
theorem foldl_near (items : List LineItem) {first : Float}
    (h : (ofFloat (items.foldl (fun sum item => sum + item.subtotal) first)).isFinite = true) :
    |Amount.worth (items.foldl (fun sum item => sum + item.subtotal) first) -
        (Amount.worth first + (items.map worth).sum)| ≤
      growth items.length * (|Amount.worth first| + weight items) := by
  induction items generalizing first with
  | nil => simp [growth]
  | cons item rest ih =>
    have hadded : (ofFloat (first + item.subtotal)).isFinite = true := isFinite_first rest h
    obtain ⟨hfirst, hitem⟩ := isFinite_of_add hadded
    have hnear : Near (Amount.worth (first + item.subtotal)) (Amount.worth first + item.worth) :=
      value_add_near hfirst hitem hadded
    rw [List.foldl_cons, List.map_cons, List.sum_cons, List.length_cons, weight_cons]
    have hrest := ih h
    generalize rest.foldl _ (first + item.subtotal) = last at hrest ⊢
    have hsplit : Amount.worth last - (Amount.worth first + (item.worth + (rest.map worth).sum)) =
        (Amount.worth last - (Amount.worth (first + item.subtotal) + (rest.map worth).sum)) +
          (Amount.worth (first + item.subtotal) - (Amount.worth first + item.worth)) := by
      ring
    rw [hsplit]
    exact add_near weight_nonneg hrest hnear (abs_add_le ..)

theorem abs_sum_le : |(items.map worth).sum| ≤ weight items := by
  have h := List.le_sum_of_subadditive abs abs_zero.le abs_add_le (items.map worth)
  rw [List.map_map] at h
  exact h

theorem sum_cents : ((items.map cents).sum : ℚ) =
    (items.map worth).sum * 100 + (items.map rounding).sum := by
  induction items with
  | nil => simp
  | cons item rest ih =>
    simp only [List.map_cons, List.sum_cons, Int.cast_add, ih, rounding]
    ring

theorem abs_sum_rounding_le (h : ∀ item ∈ items, Amount.fits item.subtotal = true) :
    |(items.map rounding).sum| ≤ items.length / 2 + weight items * 100 / 2 ^ 53 := by
  induction items with
  | nil => simp [weight]
  | cons item rest ih =>
    have hitem := abs_rounding_le (h item List.mem_cons_self)
    have hrest := ih fun other hother => h other (List.mem_cons_of_mem item hother)
    have htriangle := abs_add_le item.rounding (rest.map rounding).sum
    rw [List.map_cons, List.sum_cons, List.length_cons, weight_cons, Nat.cast_succ]
    linarith

end Sums

end LineItem

namespace Quote

variable (q : Quote)

def worth : ℚ :=
  (q.items.map LineItem.worth).sum

def lineCents : Int :=
  (q.items.map LineItem.cents).sum

def rounding : ℚ :=
  (q.items.map LineItem.rounding).sum

def weight : ℚ :=
  LineItem.weight q.items

/-- The cents by which the total can be off when the lines are added up and converted to cents. -/
def drift : ℚ :=
  growth (q.items.length + 1) * (q.weight * 100)

variable {q}

theorem worth_total_near (h : (ofFloat q.total).isFinite = true) :
    |Amount.worth q.total - q.worth| ≤ growth q.items.length * q.weight := by
  have hsum := LineItem.foldl_near q.items h
  rwa [Amount.worth_zero, zero_add, abs_zero, zero_add] at hsum

/-- The total in cents, before it is rounded, is off by all the additions and one multiplication. -/
theorem hundredfold_total_near (h : Amount.fits q.total = true) :
    |value (ofFloat (q.total * 100)) - q.worth * 100| ≤ q.drift := by
  have hsum := worth_total_near (isFinite_of_mul (Amount.isFinite_of_fits h)).1
  have hproduct := Amount.hundredfold_near h
  have hlines : |q.worth| ≤ q.weight := LineItem.abs_sum_le
  have htotal : |Amount.worth q.total| ≤ growth q.items.length * q.weight + q.weight :=
    calc |Amount.worth q.total| = |(Amount.worth q.total - q.worth) + q.worth| := by
          rw [sub_add_cancel]
      _ ≤ |Amount.worth q.total - q.worth| + |q.worth| := abs_add_le ..
      _ ≤ growth q.items.length * q.weight + q.weight := add_le_add hsum hlines
  have hscaled : |Amount.worth q.total * 100 - q.worth * 100| ≤
      growth q.items.length * q.weight * 100 := by
    rw [← sub_mul, abs_mul, Nat.abs_ofNat]
    linarith
  rw [Near, abs_mul, Nat.abs_ofNat] at hproduct
  calc |value (ofFloat (q.total * 100)) - q.worth * 100|
      ≤ |value (ofFloat (q.total * 100)) - Amount.worth q.total * 100| +
          |Amount.worth q.total * 100 - q.worth * 100| := abs_sub_le ..
    _ ≤ (growth q.items.length * q.weight + q.weight) * 100 / 2 ^ 53 +
          growth q.items.length * q.weight * 100 := by linarith
    _ = q.drift := by
        rw [drift, growth_succ]
        ring

/-- The cents of the total against those of the lines. -/
theorem total_cents_near (h : Amount.fits q.total = true) :
    |((Amount.cents q.total - q.lineCents : Int) : ℚ) + q.rounding| ≤ 1 / 2 + q.drift := by
  have hlines : (q.lineCents : ℚ) = q.worth * 100 + q.rounding := LineItem.sum_cents
  have hsplit : ((Amount.cents q.total - q.lineCents : Int) : ℚ) + q.rounding =
      (Amount.cents q.total - value (ofFloat (q.total * 100))) +
        (value (ofFloat (q.total * 100)) - q.worth * 100) := by
    rw [Int.cast_sub, hlines]
    ring
  rw [hsplit]
  exact (abs_add_le ..).trans
    (add_le_add (Amount.cents_within_half h) (hundredfold_total_near h))

end Quote

section Print

def shownCents (symbol : String) : Value → Option Int
  | .text t => some (Amount.shown symbol t)
  | .number _ => none
  | .boolean _ => none
  | .null => none

def shownTotal (symbol : String) (c : Context) : Option Int :=
  (c.value? "total").bind (shownCents symbol)

def shownLines (symbol : String) (c : Context) : Option (List Int) :=
  (c.list? QuoteDocument.itemsName).bind fun records =>
    records.mapM fun record => (record.get? "subtotal").bind (shownCents symbol)

variable (d : QuoteDocument) (symbol : String)

theorem shownCents_text (amount : Float) :
    shownCents symbol (.text (Amount.text symbol amount)) = some (Amount.cents amount) :=
  congrArg some (Amount.shown_centsText symbol _)

theorem shownTotal_toContext :
    shownTotal symbol (d.toContext symbol) = some (Amount.cents d.quote.total) := by
  have hfield : ("total", .text (Amount.text symbol d.quote.total)) ∈ d.fields symbol := by
    simp [QuoteDocument.fields]
  rw [shownTotal, d.value?_toContext symbol hfield]
  exact shownCents_text symbol _

theorem mapM_itemRecords (index : Nat) (items : List LineItem) :
    (QuoteDocument.itemRecords symbol index items).mapM
        (fun record => (record.get? "subtotal").bind (shownCents symbol)) =
      some (items.map LineItem.cents) := by
  induction items generalizing index with
  | nil => rfl
  | cons item rest ih =>
    rw [QuoteDocument.itemRecords, List.mapM_cons, LineItem.get?_subtotal, Option.bind_some,
      shownCents_text, ih]
    rfl

theorem shownLines_toContext :
    shownLines symbol (d.toContext symbol) = some (d.quote.items.map LineItem.cents) := by
  rw [shownLines, d.list?_toContext]
  exact mapM_itemRecords symbol 1 d.quote.items

/-- The printed total is the sum of the printed lines if what the lines gain in print is less than
half a cent in all, and it is not if that is more than half a cent, but for what the additions can
be off by. Whatever the lines gain, it is half a cent for each of them at most. -/
theorem printed_total_near
    (hlines : ∀ item ∈ d.quote.items, Amount.fits item.subtotal = true)
    (htotal : Amount.fits d.quote.total = true) :
    ∃ total lines, shownTotal symbol (d.toContext symbol) = some total ∧
      shownLines symbol (d.toContext symbol) = some lines ∧
      (|d.quote.rounding| + d.quote.drift < 1 / 2 → total = lines.sum) ∧
      (1 / 2 + d.quote.drift < |d.quote.rounding| → total ≠ lines.sum) ∧
      |((total - lines.sum : Int) : ℚ)| ≤ (d.quote.items.length + 1) / 2 + d.quote.drift +
        d.quote.weight * 100 / 2 ^ 53 := by
  have hnear := Quote.total_cents_near htotal
  have hrounding : |d.quote.rounding| ≤ d.quote.items.length / 2 + d.quote.weight * 100 / 2 ^ 53 :=
    LineItem.abs_sum_rounding_le hlines
  refine ⟨_, _, shownTotal_toContext d symbol, shownLines_toContext d symbol, ?_⟩
  change (_ → Amount.cents d.quote.total = d.quote.lineCents) ∧
    (_ → Amount.cents d.quote.total ≠ d.quote.lineCents) ∧
      |((Amount.cents d.quote.total - d.quote.lineCents : Int) : ℚ)| ≤ _
  generalize Amount.cents d.quote.total = total at *
  generalize d.quote.lineCents = lines at *
  have htriangle : |((total - lines : Int) : ℚ)| ≤ 1 / 2 + d.quote.drift + |d.quote.rounding| :=
    calc |((total - lines : Int) : ℚ)|
        = |((total - lines : Int) + d.quote.rounding) - d.quote.rounding| := by
          rw [add_sub_cancel_right]
      _ ≤ |(total - lines : Int) + d.quote.rounding| + |d.quote.rounding| := abs_sub ..
      _ ≤ 1 / 2 + d.quote.drift + |d.quote.rounding| := add_le_add hnear le_rfl
  refine ⟨?_, ?_, ?_⟩
  · intro hsmall
    have hone : |((total - lines : Int) : ℚ)| < 1 := by linarith
    exact Int.sub_eq_zero.1 (Int.abs_lt_one_iff.1 (by exact_mod_cast hone))
  · intro hlarge heq
    rw [heq, sub_self, Int.cast_zero, zero_add] at hnear
    exact absurd hnear (not_le.2 hlarge)
  · linarith

end Print

/-- A quote of two lines that come to whole cents, though neither is a double. -/
theorem printed_total_near_whole :
    let glass : LineItem := ⟨"Glass", .unit, 3, none, none, 19.99, false⟩
    let fitting : LineItem := ⟨"Fitting", .fixed, 1, none, none, 0.1, false⟩
    let quote := { Quote.blank with number := "7", items := [glass, fitting] }
    let d : QuoteDocument := ⟨{ name := "A" }, { name := "B" }, quote⟩
    d.violations = [] ∧ (∀ item ∈ d.quote.items, Amount.fits item.subtotal = true) ∧
      Amount.fits d.quote.total = true ∧ d.quote.rounding ≠ 0 ∧
      ∃ total lines, shownTotal "R$" (d.toContext "R$") = some total ∧
        shownLines "R$" (d.toContext "R$") = some lines ∧ total = lines.sum := by
  intro glass fitting quote d
  have hlines : ∀ item ∈ d.quote.items, Amount.fits item.subtotal = true := by decide +kernel
  have htotal : Amount.fits d.quote.total = true := by decide +kernel
  have hsmall : |d.quote.rounding| + d.quote.drift < 1 / 2 := by decide +kernel
  obtain ⟨total, lines, hshown, hlist, hequal, -⟩ := printed_total_near d "R$" hlines htotal
  refine ⟨by decide +kernel, hlines, htotal, by decide +kernel, ?_⟩
  exact ⟨total, lines, hshown, hlist, hequal hsmall⟩

/-- Two panes of a quarter of a square metre at `R$ 10.02` come to 2.505 each: every line gains half
a cent in print, and the total gains none. -/
theorem printed_total_below_lines :
    let pane : LineItem := ⟨"Glass", .squareMetre, 1, some 0.5, some 0.5, 10.02, false⟩
    let quote := { Quote.blank with number := "7", items := [pane, pane] }
    let d : QuoteDocument := ⟨{ name := "A" }, { name := "B" }, quote⟩
    d.violations = [] ∧ (∀ item ∈ d.quote.items, Amount.fits item.subtotal = true) ∧
      Amount.fits d.quote.total = true ∧
      shownTotal "R$" (d.toContext "R$") = some 501 ∧
      shownLines "R$" (d.toContext "R$") = some [251, 251] ∧
      (501 : Int) ≠ [251, 251].sum := by
  intro pane quote d
  refine ⟨by decide +kernel, by decide +kernel, by decide +kernel, ?_, ?_, by decide⟩
  · rw [shownTotal_toContext]
    decide +kernel
  · rw [shownLines_toContext]
    decide +kernel

end QuotePress
