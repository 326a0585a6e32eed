import QuotePress.Text.Bytes

/-! # Quoted texts

A reader that wants a quoted text joins surrogate pairs and refuses half of one; a reader that skips
it only asks for four digits after `\u`. -/
namespace QuotePress.Json

/-- The two ways in which a text is not JSON. -/
inductive Fault where
  /-- More was needed, and the text was over. -/
  | ended
  /-- Something stands where it cannot stand. -/
  | malformed
  deriving DecidableEq, Repr

def hexValue? (c : Char) : Option Nat :=
  if '0' ≤ c ∧ c ≤ '9' then some (c.toNat - '0'.toNat)
  else if 'a' ≤ c ∧ c ≤ 'f' then some (c.toNat - 'a'.toNat + 10)
  else if 'A' ≤ c ∧ c ≤ 'F' then some (c.toNat - 'A'.toNat + 10)
  else none

def hexUnit? (a b c d : Char) : Option Nat := do
  return (((← hexValue? a) * 16 + (← hexValue? b)) * 16 + (← hexValue? c)) * 16 + (← hexValue? d)

/-- The four digits after `\u`, and what follows them. They are sought in the next four bytes, so a
text with fewer bytes left has ended. -/
def takeUnit : List Char → Except Fault (Nat × List Char)
  | a :: b :: c :: d :: rest =>
    match hexUnit? a b c d with
    | some n => .ok (n, rest)
    | none => .error .malformed
  | short => .error (if Text.byteCount short < 4 then .ended else .malformed)

def simpleEscape? (c : Char) : Option Char :=
  if c = '"' ∨ c = '\\' ∨ c = '/' then some c
  else if c = 'b' then some '\x08'
  else if c = 'f' then some '\x0c'
  else if c = 'n' then some '\n'
  else if c = 'r' then some '\r'
  else if c = 't' then some '\t'
  else none

def isHighHalf (n : Nat) : Bool :=
  0xD800 ≤ n && n ≤ 0xDBFF

def isLowHalf (n : Nat) : Bool :=
  0xDC00 ≤ n && n ≤ 0xDFFF

def ofPair (high low : Nat) : Char :=
  Char.ofNat (0x10000 + (high - 0xD800) * 0x400 + (low - 0xDC00))

def takeLowHalf : List Char → Except Fault (Nat × List Char)
  | [] => .error .ended
  | ['\\'] => .error .ended
  | '\\' :: 'u' :: rest =>
    match takeUnit rest with
    | .error f => .error f
    | .ok (n, after) => if isLowHalf n then .ok (n, after) else .error .malformed
  | _ => .error .malformed

/-- The character that starts with the unit `n`, and what follows it. Half a surrogate pair is no
character. -/
def takeCharFrom (n : Nat) (rest : List Char) : Except Fault (Char × List Char) :=
  if isLowHalf n then .error .malformed
  else if isHighHalf n then
    match takeLowHalf rest with
    | .error f => .error f
    | .ok (low, after) => .ok (ofPair n low, after)
  else .ok (Char.ofNat n, rest)

/-- The character of an escape, after its backslash, and what follows it. -/
def takeEscape : List Char → Except Fault (Char × List Char)
  | [] => .error .ended
  | 'u' :: rest =>
    match takeUnit rest with
    | .error f => .error f
    | .ok (n, after) => takeCharFrom n after
  | c :: rest =>
    match simpleEscape? c with
    | some e => .ok (e, rest)
    | none => .error .malformed

/-- What follows an escape, after its backslash, for a reader that skips it. -/
def skipEscape : List Char → Except Fault (List Char)
  | [] => .error .ended
  | 'u' :: rest =>
    match takeUnit rest with
    | .error f => .error f
    | .ok (_, after) => .ok after
  | c :: rest => if (simpleEscape? c).isSome then .ok rest else .error .malformed

theorem length_takeUnit {cs rest : List Char} {n : Nat} (h : takeUnit cs = .ok (n, rest)) :
    rest.length < cs.length := by
  rw [takeUnit.eq_def] at h
  split at h
  · split at h
    · cases h
      simp only [List.length_cons]
      omega
    · cases h
  · cases h

theorem length_takeLowHalf {cs rest : List Char} {n : Nat}
    (h : takeLowHalf cs = .ok (n, rest)) : rest.length < cs.length := by
  rw [takeLowHalf.eq_def] at h
  split at h
  · cases h
  · cases h
  · split at h
    · cases h
    · rename_i hu
      have := length_takeUnit hu
      split at h
      · cases h
        simp only [List.length_cons]
        omega
      · cases h
  · cases h

theorem length_takeCharFrom {n : Nat} {cs rest : List Char} {c : Char}
    (h : takeCharFrom n cs = .ok (c, rest)) : rest.length ≤ cs.length := by
  rw [takeCharFrom] at h
  split at h
  · cases h
  · split at h
    · split at h
      · cases h
      · rename_i hl
        have := length_takeLowHalf hl
        obtain ⟨-, rfl⟩ := Prod.mk.inj (Except.ok.inj h)
        omega
    · obtain ⟨-, rfl⟩ := Prod.mk.inj (Except.ok.inj h)
      exact Nat.le_refl _

theorem length_takeEscape {cs rest : List Char} {c : Char}
    (h : takeEscape cs = .ok (c, rest)) : rest.length < cs.length := by
  rw [takeEscape.eq_def] at h
  split at h
  · cases h
  · split at h
    · cases h
    · rename_i hu
      have := length_takeUnit hu
      have := length_takeCharFrom h
      simp only [List.length_cons]
      omega
  · split at h
    · cases h
      simp
    · cases h

theorem length_skipEscape {cs rest : List Char} (h : skipEscape cs = .ok rest) :
    rest.length < cs.length := by
  rw [skipEscape.eq_def] at h
  split at h
  · cases h
  · split at h
    · cases h
    · rename_i hu
      have := length_takeUnit hu
      cases h
      simp only [List.length_cons]
      omega
  · split at h
    · cases h
      simp
    · cases h

/-- The value of a quoted text, after its opening quote. -/
def stringValue : List Char → Except Fault (List Char)
  | [] => .error .ended
  | c :: rest =>
    if c = '"' then .ok []
    else if c = '\\' then
      match h : takeEscape rest with
      | .error f => .error f
      | .ok (e, after) =>
        have := length_takeEscape h
        (stringValue after).map (e :: ·)
    else if c.toNat < 32 then .error .malformed
    else (stringValue rest).map (c :: ·)
termination_by cs => cs.length

def skipString : List Char → Except Fault (List Char)
  | [] => .error .ended
  | c :: rest =>
    if c = '"' then .ok rest
    else if c = '\\' then
      match h : skipEscape rest with
      | .error f => .error f
      | .ok after =>
        have := length_skipEscape h
        skipString after
    else if c.toNat < 32 then .error .malformed
    else skipString rest
termination_by cs => cs.length

theorem length_skipString {cs rest : List Char} (h : skipString cs = .ok rest) :
    rest.length < cs.length := by
  fun_induction skipString cs with
  | case1 => cases h
  | case2 => cases h; simp
  | case3 => cases h
  | case4 =>
    rename_i ih
    have := ih h
    simp only [List.length_cons]
    omega
  | case5 => cases h
  | case6 =>
    rename_i ih
    have := ih h
    simp only [List.length_cons]
    omega

end QuotePress.Json
