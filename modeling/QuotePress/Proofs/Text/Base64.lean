import QuotePress.Text.Base64
import Mathlib.Data.Fin.Basic
import Mathlib.Data.List.Basic
import Mathlib.Data.Nat.Digits.Defs
import Mathlib.Tactic.Ring

/-! # What a base64 text spells

A text spells bytes if its characters, read to the base of sixty-four, are the number that the bytes
are to the base of 256, with two zero bits behind it for every equals sign that fills the text up to
fours. Every sequence of bytes is spelled by one text, which is the one that encoding gives, and
decoding accepts the texts that spell something and no others. -/
namespace QuotePress.Text.Base64

def alphabet : List Char :=
  "ABCDEFGHIJKLMNOPQRSTUVWXYZabcdefghijklmnopqrstuvwxyz0123456789+/".toList

theorem length_alphabet : alphabet.length = 64 := by decide

def charAt (value : Fin 64) : Char :=
  alphabet.get (value.cast length_alphabet.symm)

def number (base : Nat) (digits : List Nat) : Nat :=
  Nat.ofDigits base digits.reverse

/-- The text has characters of these values and so many equals signs behind them, and the values are
the number of the bytes. -/
structure Spelling (values : List (Fin 64)) (fill : Nat) (text : List Char)
    (bytes : List UInt8) : Prop where
  text_eq : text = values.map charAt ++ List.replicate fill '='
  fill_le : fill ≤ 2
  fours : 4 ∣ values.length + fill
  bits_eq : 6 * values.length = 8 * bytes.length + 2 * fill
  number_eq : number 64 (values.map Fin.val) = number 256 (bytes.map UInt8.toNat) * 4 ^ fill

def Spells (text : List Char) (bytes : List UInt8) : Prop :=
  ∃ values fill, Spelling values fill text bytes

theorem number_nil (base : Nat) : number base [] = 0 := rfl

theorem number_cons (base digit : Nat) (digits : List Nat) :
    number base (digit :: digits) = digit * base ^ digits.length + number base digits := by
  rw [number, List.reverse_cons, Nat.ofDigits_append, Nat.ofDigits_singleton, List.length_reverse,
    number, Nat.mul_comm, Nat.add_comm]

/-- Digits of one base are told apart by their number and by how many they are. -/
theorem number_injective {base : Nat} (hbase : 1 < base) {digits others : List Nat}
    (hlength : digits.length = others.length) (hdigits : ∀ digit ∈ digits, digit < base)
    (hothers : ∀ digit ∈ others, digit < base) (h : number base digits = number base others) :
    digits = others := by
  apply List.reverse_inj.1
  apply Nat.ofDigits_inj_of_len_eq hbase _ _ _ h
  · rw [List.length_reverse, List.length_reverse, hlength]
  · intro digit hmem
    exact hdigits digit (List.mem_reverse.1 hmem)
  · intro digit hmem
    exact hothers digit (List.mem_reverse.1 hmem)

section

variable {text other : List Char} {bytes others : List UInt8}

/-! ## Every sequence of bytes has one text -/

theorem Spells.unique (h : Spells text bytes) (hother : Spells other bytes) : text = other := by
  obtain ⟨values, fill, h⟩ := h
  obtain ⟨values', fill', h'⟩ := hother
  have hbits := h.bits_eq
  have hbits' := h'.bits_eq
  have hfill : fill = fill' := by
    have := h.fill_le
    have := h'.fill_le
    have := h.fours
    have := h'.fours
    omega
  subst fill'
  have hsmall (values : List (Fin 64)) : ∀ digit ∈ values.map Fin.val, digit < 64 := by
    intro digit hmem
    obtain ⟨value, -, rfl⟩ := List.mem_map.1 hmem
    exact value.isLt
  have hvalues : values.map Fin.val = values'.map Fin.val := by
    apply number_injective (by decide) _ (hsmall _) (hsmall _)
    · rw [h.number_eq, h'.number_eq]
    · rw [List.length_map, List.length_map]
      omega
  rw [h.text_eq, h'.text_eq, List.map_injective_iff.2 Fin.val_injective hvalues]

theorem Spells.mem_alphabet (h : Spells text bytes) {c : Char} (hc : c ∈ text) :
    c ∈ alphabet ∨ c = '=' := by
  obtain ⟨values, fill, h⟩ := h
  rw [h.text_eq, List.mem_append, List.mem_map] at hc
  rcases hc with ⟨value, -, rfl⟩ | hc
  · exact Or.inl (List.get_mem _ _)
  · exact Or.inr (List.eq_of_mem_replicate hc)

theorem Spells.group (h : Spells text bytes) {p q r s : Fin 64} {a b c : UInt8}
    (hvalue : ((p.val * 64 + q.val) * 64 + r.val) * 64 + s.val =
      (a.toNat * 256 + b.toNat) * 256 + c.toNat) :
    Spells (charAt p :: charAt q :: charAt r :: charAt s :: text) (a :: b :: c :: bytes) := by
  obtain ⟨values, fill, h⟩ := h
  have hbits := h.bits_eq
  have hfours := h.fours
  have hpower : 64 ^ values.length = 256 ^ bytes.length * 4 ^ fill := by
    calc 64 ^ values.length = 2 ^ (6 * values.length) := by rw [Nat.pow_mul]
      _ = 2 ^ (8 * bytes.length) * 2 ^ (2 * fill) := by rw [hbits, Nat.pow_add]
      _ = 256 ^ bytes.length * 4 ^ fill := by rw [Nat.pow_mul, Nat.pow_mul]
  refine ⟨p :: q :: r :: s :: values, fill, ?_, h.fill_le, ?_, ?_, ?_⟩
  · rw [h.text_eq]
    rfl
  · simp only [List.length_cons]
    omega
  · simp only [List.length_cons]
    omega
  · simp only [List.map_cons, number_cons, List.length_cons, List.length_map, h.number_eq,
      Nat.pow_succ, hpower]
    calc _ = (((p.val * 64 + q.val) * 64 + r.val) * 64 + s.val) *
          (256 ^ bytes.length * 4 ^ fill) +
            number 256 (bytes.map UInt8.toNat) * 4 ^ fill := by ring
      _ = _ := by rw [hvalue]; ring

theorem spells_nil : Spells [] [] := ⟨[], 0, rfl, by decide, by decide, rfl, rfl⟩

/-- Two characters spell one byte, with four bits that carry nothing. -/
theorem spells_one {p q : Fin 64} {a : UInt8} (hvalue : p.val * 64 + q.val = a.toNat * 16) :
    Spells [charAt p, charAt q, '=', '='] [a] := by
  refine ⟨[p, q], 2, rfl, by decide, ⟨1, rfl⟩, rfl, ?_⟩
  simpa [number_cons, number_nil] using hvalue

theorem spells_two {p q r : Fin 64} {a b : UInt8}
    (hvalue : (p.val * 64 + q.val) * 64 + r.val = (a.toNat * 256 + b.toNat) * 4) :
    Spells [charAt p, charAt q, charAt r, '='] [a, b] := by
  refine ⟨[p, q, r], 1, rfl, by decide, ⟨1, rfl⟩, rfl, ?_⟩
  simp only [List.map_cons, List.map_nil, number_cons, number_nil, List.length_cons,
    List.length_nil]
  omega

end

/-! ## Encoding gives the text of bytes -/

theorem charOf_val (value : Fin 64) : charOf value.val = charAt value := by
  revert value
  decide +kernel

theorem charOf_eq {n : Nat} (h : n < 64) : charOf n = charAt ⟨n, h⟩ := charOf_val ⟨n, h⟩

theorem encode_one (a : UInt8) : ∃ p q : Fin 64, p.val * 64 + q.val = a.toNat * 16 ∧
    encode [a] = [charAt p, charAt q, '=', '='] := by
  have ha := a.toNat_lt
  refine ⟨⟨a.toNat * 16 / 64, by omega⟩, ⟨a.toNat * 16 % 64, by omega⟩, ?_, ?_⟩
  · exact Nat.div_add_mod' _ 64
  · simp only [encode, ← charOf_val]

theorem encode_two (a b : UInt8) : ∃ p q r : Fin 64,
    (p.val * 64 + q.val) * 64 + r.val = (a.toNat * 256 + b.toNat) * 4 ∧
      encode [a, b] = [charAt p, charAt q, charAt r, '='] := by
  have ha := a.toNat_lt
  have hb := b.toNat_lt
  generalize hn : (a.toNat * 256 + b.toNat) * 4 = n
  refine ⟨⟨n / 4096, by omega⟩, ⟨n / 64 % 64, by omega⟩, ⟨n % 64, by omega⟩, ?_, ?_⟩
  · dsimp only
    omega
  · simp only [encode, ← charOf_val, hn]

theorem encode_group (a b c : UInt8) (rest : List UInt8) : ∃ p q r s : Fin 64,
    ((p.val * 64 + q.val) * 64 + r.val) * 64 + s.val =
      (a.toNat * 256 + b.toNat) * 256 + c.toNat ∧
        encode (a :: b :: c :: rest) =
          charAt p :: charAt q :: charAt r :: charAt s :: encode rest := by
  have ha := a.toNat_lt
  have hb := b.toNat_lt
  have hc := c.toNat_lt
  generalize hn : (a.toNat * 256 + b.toNat) * 256 + c.toNat = n
  refine ⟨⟨n / 262144, by omega⟩, ⟨n / 4096 % 64, by omega⟩, ⟨n / 64 % 64, by omega⟩,
    ⟨n % 64, by omega⟩, ?_, ?_⟩
  · dsimp only
    omega
  · simp only [encode, ← charOf_val, hn]

/-- Along the groups of three bytes. -/
theorem encode_spells (bytes : List UInt8) : Spells (encode bytes) bytes := by
  induction bytes using encode.induct with
  | case1 => exact spells_nil
  | case2 a =>
    obtain ⟨p, q, hvalue, hencode⟩ := encode_one a
    rw [hencode]
    exact spells_one hvalue
  | case3 a b =>
    obtain ⟨p, q, r, hvalue, hencode⟩ := encode_two a b
    rw [hencode]
    exact spells_two hvalue
  | case4 a b c rest ih =>
    obtain ⟨p, q, r, s, hvalue, hencode⟩ := encode_group a b c rest
    rw [hencode]
    exact ih.group hvalue

/-! ## Decoding accepts what spells something -/

theorem valueOf?_charAt (value : Fin 64) : valueOf? (charAt value) = some value.val := by
  revert value
  decide +kernel

/-- Only the characters of the alphabet have values. -/
theorem eq_charAt_of_valueOf? {c : Char} {n : Nat} (h : valueOf? c = some n) :
    ∃ value : Fin 64, value.val = n ∧ c = charAt value := by
  suffices hchar : n < 64 ∧ charOf n = c by
    exact ⟨⟨n, hchar.1⟩, rfl, by rw [← charOf_eq hchar.1, hchar.2]⟩
  have hback {first place : Nat} (hplace : first + place = c.toNat) :
      Char.ofNat (first + place) = c := by
    rw [hplace, Char.ofNat_toNat]
  rw [valueOf?] at h
  split_ifs at h with hupper hlower hdigit hplus hslash
  · have hrange : 65 ≤ c.toNat ∧ c.toNat ≤ 90 := hupper
    have hn : c.toNat - 65 = n := Option.some.inj h
    refine ⟨by omega, ?_⟩
    rw [charOf, if_pos (by omega)]
    exact hback (show 65 + _ = _ by omega)
  · have hrange : 97 ≤ c.toNat ∧ c.toNat ≤ 122 := hlower
    have hn : c.toNat - 97 + 26 = n := Option.some.inj h
    refine ⟨by omega, ?_⟩
    rw [charOf, if_neg (by omega), if_pos (by omega)]
    exact hback (show 97 + _ = _ by omega)
  · have hrange : 48 ≤ c.toNat ∧ c.toNat ≤ 57 := hdigit
    have hn : c.toNat - 48 + 52 = n := Option.some.inj h
    refine ⟨by omega, ?_⟩
    rw [charOf, if_neg (by omega), if_neg (by omega), if_pos (by omega)]
    exact hback (show 48 + _ = _ by omega)
  · cases h
    exact ⟨by decide, hplus.symm⟩
  · cases h
    exact ⟨by decide, hslash.symm⟩

section

variable {a b c d : Char} {text : List Char} {front bytes : List UInt8}

/-- A group that is not filled up is accepted only if it spells three bytes. -/
theorem spells_of_unfilled (hd : d ≠ '=') (h : decodeLast a b c d = some front)
    (hrest : Spells text bytes) : Spells (a :: b :: c :: d :: text) (front ++ bytes) := by
  simp only [decodeLast, Option.bind_eq_bind, hd, and_false, if_false,
    Option.bind_eq_some_iff] at h
  obtain ⟨_, hp, _, hq, _, hr, _, hs, h⟩ := h
  obtain ⟨p, rfl, rfl⟩ := eq_charAt_of_valueOf? hp
  obtain ⟨q, rfl, rfl⟩ := eq_charAt_of_valueOf? hq
  obtain ⟨r, rfl, rfl⟩ := eq_charAt_of_valueOf? hr
  obtain ⟨s, rfl, rfl⟩ := eq_charAt_of_valueOf? hs
  cases h
  apply hrest.group
  rw [UInt8.toNat_ofNat', UInt8.toNat_ofNat', UInt8.toNat_ofNat']
  omega

theorem spells_of_decodeLast (h : decodeLast a b c d = some bytes) :
    Spells [a, b, c, d] bytes := by
  by_cases hd : d = '='
  · subst hd
    simp only [decodeLast, Option.bind_eq_bind, Option.bind_eq_some_iff] at h
    obtain ⟨_, hp, _, hq, h⟩ := h
    obtain ⟨p, rfl, rfl⟩ := eq_charAt_of_valueOf? hp
    obtain ⟨q, rfl, rfl⟩ := eq_charAt_of_valueOf? hq
    by_cases hc : c = '='
    · subst hc
      simp only [and_self, if_true, Option.ite_none_right_eq_some] at h
      obtain ⟨hzero, h⟩ := h
      cases h
      apply spells_one
      rw [UInt8.toNat_ofNat']
      omega
    · simp only [hc, false_and, if_false, if_true, Option.bind_eq_some_iff,
        Option.ite_none_right_eq_some] at h
      obtain ⟨_, hr, hzero, h⟩ := h
      obtain ⟨r, rfl, rfl⟩ := eq_charAt_of_valueOf? hr
      cases h
      apply spells_two
      rw [UInt8.toNat_ofNat', UInt8.toNat_ofNat']
      omega
  · have hgroup := spells_of_unfilled hd h spells_nil
    rwa [List.append_nil] at hgroup

theorem spells_of_decode? (h : decode? text = some bytes) : Spells text bytes := by
  fun_induction decode? text generalizing bytes with
  | case1 =>
    cases h
    exact spells_nil
  | case2 a b c d => exact spells_of_decodeLast h
  | case3 a b c d rest hrest ih =>
    obtain ⟨front, hfront, h⟩ := Option.bind_eq_some_iff.1 h
    obtain ⟨last, hlast, h⟩ := Option.bind_eq_some_iff.1 h
    cases h
    rw [decodeGroup, Option.ite_none_left_eq_some] at hfront
    exact spells_of_unfilled hfront.1 hfront.2 (ih hlast)
  | case4 => cases h

theorem charAt_ne_fill (value : Fin 64) : charAt value ≠ '=' := by
  intro hfill
  have hvalue := valueOf?_charAt value
  rw [hfill] at hvalue
  cases hvalue

theorem decodeLast_one {p q : Fin 64} {a : UInt8} (hvalue : p.val * 64 + q.val = a.toNat * 16) :
    decodeLast (charAt p) (charAt q) '=' '=' = some [a] := by
  have ha : p.val * 4 + q.val / 16 = a.toNat := by omega
  have hzero : q.val % 16 = 0 := by omega
  simp only [decodeLast, Option.bind_eq_bind, valueOf?_charAt, Option.bind_some, and_self, if_true,
    hzero, ha, UInt8.ofNat_toNat, Option.pure_def]

theorem decodeLast_two {p q r : Fin 64} {a b : UInt8}
    (hvalue : (p.val * 64 + q.val) * 64 + r.val = (a.toNat * 256 + b.toNat) * 4) :
    decodeLast (charAt p) (charAt q) (charAt r) '=' = some [a, b] := by
  have hb := b.toNat_lt
  have ha : p.val * 4 + q.val / 16 = a.toNat := by omega
  have hb : q.val % 16 * 16 + r.val / 4 = b.toNat := by omega
  have hzero : r.val % 4 = 0 := by omega
  simp only [decodeLast, Option.bind_eq_bind, valueOf?_charAt, Option.bind_some, charAt_ne_fill,
    false_and, if_false, if_true, hzero, ha, hb, UInt8.ofNat_toNat, Option.pure_def]

theorem decodeLast_group {p q r s : Fin 64} {a b c : UInt8}
    (hvalue : ((p.val * 64 + q.val) * 64 + r.val) * 64 + s.val =
      (a.toNat * 256 + b.toNat) * 256 + c.toNat) :
    decodeLast (charAt p) (charAt q) (charAt r) (charAt s) = some [a, b, c] := by
  have hb := b.toNat_lt
  have hc := c.toNat_lt
  have ha : p.val * 4 + q.val / 16 = a.toNat := by omega
  have hb : q.val % 16 * 16 + r.val / 4 = b.toNat := by omega
  have hc : r.val % 4 * 64 + s.val = c.toNat := by omega
  simp only [decodeLast, Option.bind_eq_bind, valueOf?_charAt, Option.bind_some, charAt_ne_fill,
    false_and, if_false, ha, hb, hc, UInt8.ofNat_toNat, Option.pure_def]

theorem decode?_encode (bytes : List UInt8) : decode? (encode bytes) = some bytes := by
  induction bytes using encode.induct with
  | case1 => rfl
  | case2 a =>
    obtain ⟨p, q, hvalue, hencode⟩ := encode_one a
    rw [hencode, decode?, decodeLast_one hvalue]
  | case3 a b =>
    obtain ⟨p, q, r, hvalue, hencode⟩ := encode_two a b
    rw [hencode, decode?, decodeLast_two hvalue]
  | case4 a b c rest ih =>
    obtain ⟨p, q, r, s, hvalue, hencode⟩ := encode_group a b c rest
    have hgroup := decodeLast_group hvalue
    rw [hencode]
    cases htext : encode rest with
    | nil =>
      rw [htext] at ih
      cases ih
      rw [decode?, hgroup]
    | cons first text =>
      rw [decode?, decodeGroup, if_neg (charAt_ne_fill s), hgroup, ← htext, ih]
      · rfl
      · exact nofun

/-- Decoding accepts the texts that spell bytes, and no others. -/
theorem decode?_eq_some_iff : decode? text = some bytes ↔ Spells text bytes := by
  constructor
  · exact spells_of_decode?
  · intro h
    rw [h.unique (encode_spells bytes), decode?_encode]

end

end QuotePress.Text.Base64
