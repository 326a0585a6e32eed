/-! # Base64

Three bytes become four characters of the standard alphabet; one or two last bytes are filled up
with equals signs. Decoding accepts nothing else: no blanks, no missing padding, and no bits set
that carry no byte. -/
namespace QuotePress.Text.Base64

def charOf (n : Nat) : Char :=
  if n < 26 then Char.ofNat ('A'.toNat + n)
  else if n < 52 then Char.ofNat ('a'.toNat + (n - 26))
  else if n < 62 then Char.ofNat ('0'.toNat + (n - 52))
  else if n = 62 then '+' else '/'

def valueOf? (c : Char) : Option Nat :=
  if 'A' ≤ c ∧ c ≤ 'Z' then some (c.toNat - 'A'.toNat)
  else if 'a' ≤ c ∧ c ≤ 'z' then some (c.toNat - 'a'.toNat + 26)
  else if '0' ≤ c ∧ c ≤ '9' then some (c.toNat - '0'.toNat + 52)
  else if c = '+' then some 62
  else if c = '/' then some 63
  else none

def encode : List UInt8 → List Char
  | [] => []
  | [a] =>
    let n := a.toNat * 16
    [charOf (n / 64), charOf (n % 64), '=', '=']
  | [a, b] =>
    let n := (a.toNat * 256 + b.toNat) * 4
    [charOf (n / 4096), charOf (n / 64 % 64), charOf (n % 64), '=']
  | a :: b :: c :: rest =>
    let n := (a.toNat * 256 + b.toNat) * 256 + c.toNat
    charOf (n / 262144) :: charOf (n / 4096 % 64) :: charOf (n / 64 % 64) :: charOf (n % 64) ::
      encode rest

/-- The bytes of a last group of four characters, which may be padded. -/
def decodeLast (a b c d : Char) : Option (List UInt8) := do
  let p ← valueOf? a
  let q ← valueOf? b
  if c = '=' ∧ d = '=' then
    if q % 16 = 0 then return [UInt8.ofNat (p * 4 + q / 16)] else none
  else
    let r ← valueOf? c
    if d = '=' then
      if r % 4 = 0 then
        return [UInt8.ofNat (p * 4 + q / 16), UInt8.ofNat (q % 16 * 16 + r / 4)]
      else none
    else
      let s ← valueOf? d
      return [UInt8.ofNat (p * 4 + q / 16), UInt8.ofNat (q % 16 * 16 + r / 4),
        UInt8.ofNat (r % 4 * 64 + s)]

def decodeGroup (a b c d : Char) : Option (List UInt8) :=
  if d = '=' then none else decodeLast a b c d

/-- The bytes of a text, if it is the text of bytes. -/
def decode? : List Char → Option (List UInt8)
  | [] => some []
  | [a, b, c, d] => decodeLast a b c d
  | a :: b :: c :: d :: rest => do
    let bytes ← decodeGroup a b c d
    return bytes ++ (← decode? rest)
  | _ => none

end QuotePress.Text.Base64
