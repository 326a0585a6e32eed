import QuotePress.Decimal.Literal
import QuotePress.Json.Quoted

/-! # Numbers

Whole numbers within 64 bits are kept whole, others become the nearest double. -/
namespace QuotePress.Json

inductive Number where
  | integer (n : Int)
  | real (x : Float)
  deriving DecidableEq

def Number.toFloat : Number → Float
  | .integer n => Float.ofInt n
  | .real x => x

/-- A step of reading a number: the digits found and what follows, or the faults of a reader that
wants the value and of one that skips it. Only the former tells an end from a wrong character. -/
inductive NumberScan (α : Type) where
  | found (a : α) (rest : List Char)
  | broken (strict skipped : Fault)

def NumberScan.noDigit {α : Type} (rest : List Char) : NumberScan α :=
  .broken (if rest.isEmpty then .ended else .malformed) .malformed

def scanDigits (cs : List Char) : NumberScan (List Char) :=
  if (cs.takeWhile Char.isDigit).isEmpty then .noDigit cs
  else .found (cs.takeWhile Char.isDigit) (cs.dropWhile Char.isDigit)

/-- The digits before the point; a zero stands alone. -/
def scanWhole (cs : List Char) : NumberScan (List Char) :=
  match cs with
  | '0' :: d :: _ => if d.isDigit then .broken .malformed .malformed else scanDigits cs
  | _ => scanDigits cs

def scanFraction : List Char → NumberScan (List Char)
  | '.' :: rest => scanDigits rest
  | cs => .found [] cs

def scanPower : List Char → NumberScan (Option Int)
  | c :: rest =>
    if c = 'e' ∨ c = 'E' then
      let negative := rest.head? = some '-'
      let unsigned := if negative ∨ rest.head? = some '+' then rest.drop 1 else rest
      match scanDigits unsigned with
      | .found ds after =>
        let n : Int := Decimal.ofDigits ds
        .found (some (if negative then -n else n)) after
      | .broken strict skipped => .broken strict skipped
    else .found none (c :: rest)
  | [] => .found none []

def scanNumber (cs : List Char) : NumberScan Decimal.Literal :=
  let negative := cs.head? = some '-'
  match scanWhole (if negative then cs.drop 1 else cs) with
  | .broken strict skipped => .broken strict skipped
  | .found whole rest =>
    match scanFraction rest with
    | .broken strict skipped => .broken strict skipped
    | .found fraction rest =>
      match scanPower rest with
      | .broken strict skipped => .broken strict skipped
      | .found power rest => .found ⟨negative, whole, fraction, power⟩ rest

/-- The number of a literal. Whole literals that fit in 64 bits stay whole, except that minus zero
is a double; a literal beyond every double is refused. -/
def Number.ofLiteral (l : Decimal.Literal) : Except Fault Number :=
  if l.isWhole ∧ l.negative = false ∧ l.wholeValue < UInt64.size then .ok (.integer l.wholeValue)
  else if l.isWhole ∧ l.negative = true ∧ 0 < l.wholeValue ∧ l.wholeValue ≤ UInt64.size / 2 then
    .ok (.integer (-l.wholeValue))
  else if (Binary64.ofFloat l.toFloat).isFinite then .ok (.real l.toFloat)
  else .error .malformed

theorem length_scanDigits {cs ds rest : List Char} (h : scanDigits cs = .found ds rest) :
    rest.length < cs.length := by
  rw [scanDigits] at h
  split at h
  · cases h
  · rename_i hne
    cases h
    have hlen := congrArg List.length (@List.takeWhile_append_dropWhile _ Char.isDigit cs)
    simp only [List.length_append] at hlen
    have : 0 < (cs.takeWhile Char.isDigit).length :=
      List.length_pos_iff.2 (by simpa using hne)
    omega

theorem length_scanWhole {cs ds rest : List Char} (h : scanWhole cs = .found ds rest) :
    rest.length < cs.length := by
  rw [scanWhole.eq_def] at h
  split at h
  · split at h
    · cases h
    · exact length_scanDigits h
  · exact length_scanDigits h

theorem length_scanFraction {cs ds rest : List Char} (h : scanFraction cs = .found ds rest) :
    rest.length ≤ cs.length := by
  rw [scanFraction.eq_def] at h
  split at h
  · have := length_scanDigits h
    simp only [List.length_cons]
    omega
  · cases h
    exact Nat.le_refl _

theorem length_scanPower {cs rest : List Char} {power : Option Int}
    (h : scanPower cs = .found power rest) : rest.length ≤ cs.length := by
  rw [scanPower.eq_def] at h
  split at h
  · rename_i c tail
    split at h
    · dsimp only at h
      split at h
      · rename_i ds after hd
        have hlt := length_scanDigits hd
        cases h
        simp only [List.length_cons]
        split at hlt
        · simp only [List.length_drop] at hlt
          omega
        · omega
      · cases h
    · cases h
      exact Nat.le_refl _
  · cases h
    exact Nat.le_refl _

theorem length_scanNumber {cs rest : List Char} {l : Decimal.Literal}
    (h : scanNumber cs = .found l rest) : rest.length < cs.length := by
  rw [scanNumber] at h
  split at h
  · cases h
  · rename_i hw
    have h1 := length_scanWhole hw
    split at h
    · cases h
    · rename_i hf
      have h2 := length_scanFraction hf
      split at h
      · cases h
      · rename_i hp
        have h3 := length_scanPower hp
        cases h
        split at h1
        · simp only [List.length_drop] at h1
          omega
        · omega

end QuotePress.Json
