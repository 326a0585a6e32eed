import QuotePress.Proofs.Decimal.Order
import QuotePress.Proofs.Text.Runs
import QuotePress.Quote.Codec
import Mathlib.Data.List.Nodup

/-! # The rules of a quote, and which of them are reported

The rules of a quote stand in one order, and each of them has a path. A quote is refused exactly if it
breaks a rule. The report then has the paths of the broken rules, each once and in their order. -/
namespace QuotePress

namespace Binary64

def IsPositive (b : Binary64) : Prop :=
  b.isFinite = true ∧ 0 < value b

def IsNonNegative (b : Binary64) : Prop :=
  b.isFinite = true ∧ 0 ≤ value b

end Binary64

theorem LineItem.isPositive_iff {x : Float} :
    isPositive x = true ↔ (Binary64.ofFloat x).IsPositive := by
  rw [isPositive, Bool.and_eq_true, decide_eq_true_eq]
  exact and_congr_right Binary64.pos_iff_value_pos

theorem LineItem.isNonNegative_iff {x : Float} :
    isNonNegative x = true ↔ (Binary64.ofFloat x).IsNonNegative := by
  rw [isNonNegative, Bool.and_eq_true, decide_eq_true_eq]
  exact and_congr_right Binary64.nonneg_iff_value_nonneg

theorem LineItem.hasLength_iff {length : Option Float} : hasLength length = true ↔
    ∃ x, length = some x ∧ (Binary64.ofFloat x).IsPositive := by
  cases length with
  | none => simp [hasLength]
  | some x => simp [hasLength, isPositive_iff]

inductive LineRule where
  | productName
  | quantity
  | unitPrice
  | width
  | height
  deriving DecidableEq

namespace LineRule

def inOrder : List LineRule := [.productName, .quantity, .unitPrice, .width, .height]

def ending : LineRule → String
  | .productName => ".productName"
  | .quantity => ".quantity"
  | .unitPrice => ".unitPrice"
  | .width => ".width"
  | .height => ".height"

def Kept (item : LineItem) : LineRule → Prop
  | .productName => Text.isBlank item.productName = false
  | .quantity => (Binary64.ofFloat item.quantity).IsPositive
  | .unitPrice => (Binary64.ofFloat item.unitPrice).IsNonNegative
  | .width => item.pricing = .squareMetre ∨ item.pricing = .linearMetre →
    ∃ width, item.width = some width ∧ (Binary64.ofFloat width).IsPositive
  | .height => item.pricing = .squareMetre →
    ∃ height, item.height = some height ∧ (Binary64.ofFloat height).IsPositive

theorem mem_inOrder (rule : LineRule) : rule ∈ inOrder := by
  cases rule <;> decide

theorem ending_injective : Function.Injective ending := by
  intro first second h
  revert h
  cases first <;> cases second <;> decide

end LineRule

inductive QuoteRule where
  | companyName
  | logoAddress
  | logoType
  | logoData
  | clientName
  | number
  | line (position : Nat) (rule : LineRule)
  deriving DecidableEq

namespace QuoteRule

def general : List QuoteRule :=
  [.companyName, .logoAddress, .logoType, .logoData, .clientName, .number]

def ofLine (position : Nat) : List QuoteRule :=
  LineRule.inOrder.map (.line position)

/-- The rules for a quote of so many lines, in the order in which they are reported. -/
def inOrder (lines : Nat) : List QuoteRule :=
  general ++ (List.range lines).flatMap ofLine

def linePath (position : Nat) : String :=
  "quote.items[" ++ toString position ++ "]"

def path : QuoteRule → String
  | .companyName => "company.name"
  | .logoAddress => "company.logo.url"
  | .logoType => "company.logo.mimeType"
  | .logoData => "company.logo.data"
  | .clientName => "client.name"
  | .number => "quote.number"
  | .line position rule => linePath position ++ rule.ending

/-- A rule for a line that is not there is kept. -/
def Kept (d : QuoteDocument) : QuoteRule → Prop
  | .companyName => Text.isBlank d.company.name = false
  | .logoAddress => ∀ address, d.company.logo = some (.hosted address) →
    Text.isBlank address = false
  | .logoType => ∀ mimeType data, d.company.logo = some (.embedded mimeType data) →
    ∃ subtype, mimeType = "image/" ++ subtype
  | .logoData => ∀ mimeType data, d.company.logo = some (.embedded mimeType data) →
    ∃ bytes, Text.Base64.decode? data.toList = some bytes
  | .clientName => Text.isBlank d.client.name = false
  | .number => Text.isBlank d.quote.number = false
  | .line position rule => ∀ item, d.quote.items[position]? = some item → rule.Kept item

theorem general_or_line (rule : QuoteRule) :
    rule ∈ general ∨ ∃ position lineRule, rule = .line position lineRule := by
  cases rule with
  | line position rule => exact Or.inr ⟨position, rule, rfl⟩
  | _ => exact Or.inl (by decide)

theorem mem_inOrder {d : QuoteDocument} {rule : QuoteRule} (h : ¬ rule.Kept d) :
    rule ∈ inOrder d.quote.items.length := by
  rw [inOrder, List.mem_append]
  obtain hgeneral | ⟨position, lineRule, rfl⟩ := rule.general_or_line
  · exact Or.inl hgeneral
  · right
    by_cases hposition : position < d.quote.items.length
    · refine List.mem_flatMap.2 ⟨position, List.mem_range.2 hposition, ?_⟩
      exact List.mem_map_of_mem lineRule.mem_inOrder
    · exfalso
      apply h
      intro item hitem
      rw [List.getElem?_eq_none (Nat.le_of_not_lt hposition)] at hitem
      cases hitem

/-! ## Every rule has a path of its own -/

theorem toList_path_line (position : Nat) (rule : LineRule) :
    (path (.line position rule)).toList =
      "quote.items[".toList ++ (Nat.toDigits 10 position ++ ']' :: rule.ending.toList) := by
  have hdigits : (toString position).toList = Nat.toDigits 10 position := Nat.toList_repr
  simp only [path, linePath, String.toList_append, hdigits, List.append_assoc]
  rfl

/-- The path of a line ends its number with a bracket, which is no digit. -/
theorem line_injective {first second : Nat} {firstRule secondRule : LineRule}
    (h : path (.line first firstRule) = path (.line second secondRule)) :
    first = second ∧ firstRule = secondRule := by
  have htexts := congrArg String.toList h
  rw [toList_path_line, toList_path_line, List.append_cancel_left_eq] at htexts
  have hbracket (rest : List Char) (c : Char) (hc : (']' :: rest).head? = some c) :
      c.isDigit = false := by
    cases hc
    rfl
  have hcut (position : Nat) (rest : List Char) :=
    span_exact (Decimal.isDigit_toDigits position) (hbracket rest)
  have hdigits := congrArg (List.takeWhile Char.isDigit) htexts
  have hrest := congrArg (List.dropWhile Char.isDigit) htexts
  rw [(hcut ..).1, (hcut ..).1] at hdigits
  rw [(hcut ..).2, (hcut ..).2] at hrest
  constructor
  · rw [← Decimal.ofDigits_toDigits first, hdigits, Decimal.ofDigits_toDigits]
  · apply LineRule.ending_injective
    apply String.toList_injective
    simpa using hrest

theorem general_path_ne_line {rule : QuoteRule} (h : rule ∈ general) (position : Nat)
    (lineRule : LineRule) : rule.path ≠ path (.line position lineRule) := by
  have hline : (path (.line position lineRule)).toList.take 12 = "quote.items[".toList := by
    rw [toList_path_line]
    rfl
  have hgeneral : ∀ rule ∈ general, rule.path.toList.take 12 ≠ "quote.items[".toList := by
    decide +kernel
  intro heq
  rw [← heq] at hline
  exact hgeneral rule h hline

theorem path_injective : Function.Injective path := by
  intro first second h
  obtain hfirst | ⟨firstAt, firstRule, rfl⟩ := first.general_or_line
  · obtain hsecond | ⟨secondAt, secondRule, rfl⟩ := second.general_or_line
    · have hpaths : (general.map path).Nodup := by decide +kernel
      exact List.inj_on_of_nodup_map hpaths hfirst hsecond h
    · exact absurd h (general_path_ne_line hfirst secondAt secondRule)
  · obtain hsecond | ⟨secondAt, secondRule, rfl⟩ := second.general_or_line
    · exact absurd h.symm (general_path_ne_line hsecond firstAt firstRule)
    · obtain ⟨rfl, rfl⟩ := line_injective h
      rfl

theorem nodup_inOrder (lines : Nat) : (inOrder lines).Nodup := by
  rw [inOrder, List.nodup_append', List.nodup_flatMap]
  refine ⟨by decide, ⟨?_, ?_⟩, ?_⟩
  · intro position _
    exact List.Nodup.map (fun first second h => by cases h; rfl) (by decide)
  · refine List.nodup_range.imp ?_
    intro first second hne rule hfirst hsecond
    obtain ⟨_, -, rfl⟩ := List.mem_map.1 hfirst
    obtain ⟨_, -, heq⟩ := List.mem_map.1 hsecond
    cases heq
    exact hne rfl
  · intro rule hgeneral hline
    obtain ⟨position, -, hline⟩ := List.mem_flatMap.1 hline
    obtain ⟨_, -, rfl⟩ := List.mem_map.1 hline
    revert hgeneral
    simp [general]

end QuoteRule

/-! ## Checks report the rules that are broken -/

/-- Going through rules in their order, a violation is reported of each one that is broken. -/
inductive Reports (d : QuoteDocument) : List QuoteRule → List Violation → Prop where
  | nil : Reports d [] []
  | kept {rule : QuoteRule} {rules : List QuoteRule} {violations : List Violation}
      (hkept : rule.Kept d) (h : Reports d rules violations) : Reports d (rule :: rules) violations
  | broken {rule : QuoteRule} {violation : Violation} {rules : List QuoteRule}
      {violations : List Violation} (hbroken : ¬ rule.Kept d) (hpath : violation.field = rule.path)
      (h : Reports d rules violations) : Reports d (rule :: rules) (violation :: violations)

namespace Reports

variable {d : QuoteDocument} {rules more : List QuoteRule} {violations further : List Violation}

theorem append (h : Reports d rules violations) (hmore : Reports d more further) :
    Reports d (rules ++ more) (violations ++ further) := by
  induction h with
  | nil => exact hmore
  | kept hkept _ ih => exact ih.kept hkept
  | broken hbroken hpath _ ih => exact ih.broken hbroken hpath

theorem sublist (h : Reports d rules violations) :
    (violations.map Violation.field).Sublist (rules.map QuoteRule.path) := by
  induction h with
  | nil => exact .slnil
  | kept _ _ ih => exact ih.cons _
  | broken _ hpath _ ih =>
    rw [List.map_cons, List.map_cons, hpath]
    exact ih.cons_cons _

theorem mem_iff (h : Reports d rules violations) {path : String} :
    path ∈ violations.map Violation.field ↔ ∃ rule ∈ rules, rule.path = path ∧ ¬ rule.Kept d := by
  induction h with
  | nil => simp
  | kept hkept _ ih =>
    rw [ih]
    simp [hkept]
  | broken hbroken hpath _ ih =>
    rw [List.map_cons, List.mem_cons, ih, hpath]
    simp [hbroken, eq_comm]

theorem check {rule : QuoteRule} {kept : Bool} {field message : String} (hfield : field = rule.path)
    (h : kept = true ↔ rule.Kept d) : Reports d [rule] (Violation.check kept field message) := by
  cases kept with
  | true => exact nil.kept (h.1 rfl)
  | false => exact nil.broken (fun hkept => Bool.false_ne_true (h.2 hkept)) hfield

theorem checked {rule : QuoteRule} {kept : Bool} {field message : String}
    (hfield : field = rule.path) (hcheck : kept = true ↔ rule.Kept d)
    (h : Reports d rules violations) :
    Reports d (rule :: rules) (Violation.check kept field message ++ violations) :=
  (check hfield hcheck).append h

end Reports

section Checks

variable {d : QuoteDocument}

theorem isPrefixOf_iff_append {front text : String} :
    front.toList.isPrefixOf text.toList = true ↔ ∃ rest, text = front ++ rest := by
  rw [List.isPrefixOf_iff_prefix]
  constructor
  · rintro ⟨rest, hrest⟩
    refine ⟨String.ofList rest, String.toList_injective ?_⟩
    rw [String.toList_append, String.toList_ofList, hrest]
  · rintro ⟨rest, rfl⟩
    rw [String.toList_append]
    exact List.prefix_append _ _

theorem reports_logo : Reports d [.logoAddress, .logoType, .logoData]
    ((d.company.logo.map Logo.violations).getD []) := by
  cases hlogo : d.company.logo with
  | none =>
    refine .kept ?_ (.kept ?_ (.kept ?_ .nil))
    · simp [QuoteRule.Kept, hlogo]
    · simp [QuoteRule.Kept, hlogo]
    · simp [QuoteRule.Kept, hlogo]
  | some logo =>
    cases logo with
    | hosted address =>
      rw [Option.map_some, Option.getD_some, Logo.violations, ← List.append_nil (Violation.check ..)]
      refine .checked rfl ?_ (.kept ?_ (.kept ?_ .nil))
      · simp [QuoteRule.Kept, hlogo]
      · simp [QuoteRule.Kept, hlogo]
      · simp [QuoteRule.Kept, hlogo]
    | embedded mimeType data =>
      refine .kept ?_ (.checked rfl ?_ (.check rfl ?_))
      · simp [QuoteRule.Kept, hlogo]
      · rw [isPrefixOf_iff_append]
        simp [QuoteRule.Kept, hlogo]
      · simp [QuoteRule.Kept, hlogo, Option.isSome_iff_exists]

theorem reports_line {position : Nat} {item : LineItem}
    (hitem : d.quote.items[position]? = some item) :
    Reports d (QuoteRule.ofLine position) (item.violations (QuoteRule.linePath position)) := by
  have hline (rule : LineRule) : (QuoteRule.line position rule).Kept d ↔ rule.Kept item := by
    simp [QuoteRule.Kept, hitem]
  simp only [LineItem.violations, List.append_assoc]
  refine .checked rfl ?_ (.checked rfl ?_ (.checked rfl ?_ (.checked rfl ?_ (.check rfl ?_))))
  · rw [hline, Bool.not_eq_true', LineRule.Kept]
  · rw [hline, LineItem.isPositive_iff, LineRule.Kept]
  · rw [hline, LineItem.isNonNegative_iff, LineRule.Kept]
  · rw [hline, LineRule.Kept, ← LineItem.hasLength_iff]
    cases item.pricing <;> simp [Pricing.needsWidth]
  · rw [hline, LineRule.Kept, ← LineItem.hasLength_iff]
    cases item.pricing <;> simp [Pricing.needsHeight]

theorem reports_lines {position : Nat} {items : List LineItem}
    (h : d.quote.items.drop position = items) :
    Reports d ((List.range' position items.length).flatMap QuoteRule.ofLine)
      (QuoteDocument.itemViolations position items) := by
  induction items generalizing position with
  | nil => exact .nil
  | cons item rest ih =>
    have hitem : d.quote.items[position]? = some item := by
      rw [← List.head?_drop, h]
      rfl
    have hrest : d.quote.items.drop (position + 1) = rest := by
      rw [← List.tail_drop, h]
      rfl
    exact (reports_line hitem).append (ih hrest)

theorem reports_violations (d : QuoteDocument) :
    Reports d (QuoteRule.inOrder d.quote.items.length) d.violations := by
  have hlines : Reports d ((List.range d.quote.items.length).flatMap QuoteRule.ofLine)
      (QuoteDocument.itemViolations 0 d.quote.items) := by
    rw [List.range_eq_range']
    exact reports_lines List.drop_zero
  simp only [QuoteDocument.violations, Company.violations, Client.violations, List.append_assoc]
  refine .checked rfl ?_ (reports_logo.append (.checked rfl ?_ (.checked rfl ?_ hlines)))
  · rw [Bool.not_eq_true', QuoteRule.Kept]
  · rw [Bool.not_eq_true', QuoteRule.Kept]
  · rw [Bool.not_eq_true', QuoteRule.Kept]

/-- The paths reported are those of the broken rules. -/
theorem mem_paths_iff (d : QuoteDocument) (rule : QuoteRule) :
    rule.path ∈ d.violations.map Violation.field ↔ ¬ rule.Kept d := by
  rw [(reports_violations d).mem_iff]
  constructor
  · rintro ⟨other, -, hpath, hbroken⟩
    rwa [← QuoteRule.path_injective hpath]
  · intro hbroken
    exact ⟨rule, QuoteRule.mem_inOrder hbroken, rfl, hbroken⟩

end Checks

namespace QuoteDocument

variable {d : QuoteDocument}

theorem violations_eq_nil_iff : d.violations = [] ↔ ∀ rule : QuoteRule, rule.Kept d := by
  rw [← List.map_eq_nil_iff, List.eq_nil_iff_forall_not_mem]
  constructor
  · intro h rule
    by_contra hbroken
    exact h rule.path ((mem_paths_iff d rule).2 hbroken)
  · intro h path hpath
    obtain ⟨rule, -, -, hbroken⟩ := (reports_violations d).mem_iff.1 hpath
    exact hbroken (h rule)

/-- A quote is refused exactly if it breaks a rule. The report has the paths of the rules it breaks and
no others, each once, in the order of the rules. -/
theorem validate_reports (d : QuoteDocument) :
    (d.validate = .ok () ↔ ∀ rule : QuoteRule, rule.Kept d) ∧
      ((∃ rule : QuoteRule, ¬ rule.Kept d) →
        ∃ violations, d.validate = .error (.invalid violations) ∧
          (violations.map Violation.field).Nodup ∧
          (violations.map Violation.field).Sublist
            ((QuoteRule.inOrder d.quote.items.length).map QuoteRule.path) ∧
          ∀ rule : QuoteRule, rule.path ∈ violations.map Violation.field ↔ ¬ rule.Kept d) := by
  rw [← violations_eq_nil_iff]
  constructor
  · rw [validate, ← List.isEmpty_iff]
    cases d.violations.isEmpty with
    | true => exact iff_of_true rfl rfl
    | false => exact iff_of_false nofun Bool.false_ne_true
  · rintro ⟨rule, hbroken⟩
    have hsome : d.violations.isEmpty = false := by
      rw [List.isEmpty_eq_false_iff, ne_eq, violations_eq_nil_iff]
      intro hkept
      exact hbroken (hkept rule)
    have hsublist := (reports_violations d).sublist
    have hnodup : ((QuoteRule.inOrder d.quote.items.length).map QuoteRule.path).Nodup :=
      (QuoteRule.nodup_inOrder _).map QuoteRule.path_injective
    refine ⟨d.violations, ?_, hnodup.sublist hsublist, hsublist, mem_paths_iff d⟩
    rw [validate, hsome]
    rfl

/-- A quantity that is no number is reported, a price of negative zero is not. -/
theorem validate_reports_notANumber :
    let line : LineItem := ⟨"Glass", .squareMetre, 0 / 0, some (1 / 0), some 2, -0, false⟩
    let quote := { Quote.blank with number := " ", items := [LineItem.blank, line] }
    let d : QuoteDocument := ⟨{ name := "A" }, { name := "B" }, quote⟩
    ∃ violations, d.validate = .error (.invalid violations) ∧
      "quote.items[1].quantity" ∈ violations.map Violation.field ∧
      "quote.items[1].unitPrice" ∉ violations.map Violation.field := by
  intro line quote d
  have hquantity : ¬ (QuoteRule.line 1 .quantity).Kept d := by
    intro hkept
    have hfinite := (hkept line rfl).1
    revert hfinite
    decide +kernel
  have hprice : (QuoteRule.line 1 .unitPrice).Kept d := by
    rintro _ ⟨⟩
    rw [LineRule.Kept, ← LineItem.isNonNegative_iff]
    decide +kernel
  obtain ⟨violations, hreport, -, -, hpaths⟩ := (validate_reports d).2 ⟨_, hquantity⟩
  refine ⟨violations, hreport, (hpaths (.line 1 .quantity)).2 hquantity, ?_⟩
  intro hreported
  exact (hpaths (.line 1 .unitPrice)).1 hreported hprice

end QuoteDocument

end QuotePress
