import QuotePress.Proofs.Template.Scan

/-! # Reading a template byte by byte

A directive is spelled in ASCII, and no byte of a longer character is ASCII. So the leftmost reading
of the UTF-8 bytes finds what the leftmost reading of the characters finds. -/
namespace QuotePress

open Token (openBrace closeBrace)

namespace Text

def encode (cs : List Char) : List UInt8 := cs.flatMap String.utf8EncodeChar

def bytes (s : String) : List UInt8 := s.toUTF8.data.toList

def byteChar (b : UInt8) : Char := Char.ofNat b.toNat

theorem bytes_eq_encode (s : String) : bytes s = encode s.toList := by
  have hs : s.toByteArray = s.toList.utf8Encode := by
    conv => lhs; rw [← String.ofList_toList (s := s)]
    exact String.toByteArray_ofList
  rw [bytes, String.toUTF8_eq_toByteArray, hs, List.utf8Encode]
  simp [encode]

theorem encode_ascii {c : Char} (h : c.toNat < 128) :
    String.utf8EncodeChar c = [UInt8.ofNat c.toNat] := by
  have hle : c.val.toNat ≤ 127 := Nat.le_of_lt_succ h
  rw [String.utf8EncodeChar]
  exact if_pos hle

theorem byteChar_ascii {c : Char} (h : c.toNat < 128) : byteChar (UInt8.ofNat c.toNat) = c := by
  rw [byteChar, UInt8.toNat_ofNat', Nat.mod_eq_of_lt (by omega), Char.ofNat_toNat]

theorem encode_wide {c : Char} (h : 128 ≤ c.toNat) {b : UInt8}
    (hb : b ∈ String.utf8EncodeChar c) : 128 ≤ b.toNat := by
  have hnot : ¬ c.val.toNat ≤ 127 := Nat.not_le.2 h
  rw [String.utf8EncodeChar] at hb
  simp only [if_neg hnot] at hb
  split at hb
  · simp only [List.mem_cons, List.not_mem_nil, or_false] at hb
    rcases hb with rfl | rfl <;> rw [UInt8.toNat_ofNat'] <;> omega
  · split at hb
    · simp only [List.mem_cons, List.not_mem_nil, or_false] at hb
      rcases hb with rfl | rfl | rfl <;> rw [UInt8.toNat_ofNat'] <;> omega
    · simp only [List.mem_cons, List.not_mem_nil, or_false] at hb
      rcases hb with rfl | rfl | rfl | rfl <;> rw [UInt8.toNat_ofNat'] <;> omega

/-- Only the first byte of a character can be ASCII. -/
theorem encode_inside {c : Char} {a b : List UInt8} {byte : UInt8}
    (h : String.utf8EncodeChar c = a ++ byte :: b) (ha : a ≠ []) : 128 ≤ byte.toNat := by
  have hc : 128 ≤ c.toNat := by
    by_contra hascii
    rw [encode_ascii (Nat.lt_of_not_le hascii)] at h
    have hlength := congrArg List.length h
    have hpos := List.length_pos_iff.2 ha
    rw [List.length_singleton, List.length_append, List.length_cons] at hlength
    omega
  exact encode_wide hc (by simp [h])

theorem byteChar_wide {b : UInt8} (h : 128 ≤ b.toNat) : 128 ≤ (byteChar b).toNat := by
  have hb := b.toNat_lt
  have hvalid : b.toNat.isValidChar := Or.inl (by omega)
  rw [byteChar, Char.ofNat, dif_pos hvalid]
  exact h

theorem encode_ne_nil (c : Char) : String.utf8EncodeChar c ≠ [] := by
  intro hnil
  have hlength := congrArg List.length hnil
  have hpos := c.utf8Size_pos
  rw [String.length_utf8EncodeChar, List.length_nil] at hlength
  omega

theorem encode_cons (c : Char) (cs : List Char) :
    encode (c :: cs) = String.utf8EncodeChar c ++ encode cs := by
  rw [encode, List.flatMap_cons]
  rfl

theorem encode_append (a b : List Char) : encode (a ++ b) = encode a ++ encode b := by
  rw [encode, List.flatMap_append]
  rfl

theorem length_encode (cs : List Char) : (encode cs).length = (cs.map Char.utf8Size).sum := by
  induction cs with
  | nil => rfl
  | cons c cs ih =>
    rw [encode_cons, List.length_append, String.length_utf8EncodeChar, ih, List.map_cons,
      List.sum_cons]

theorem encode_all_ascii {cs : List Char} (h : ∀ c ∈ cs, c.toNat < 128) :
    (encode cs).map byteChar = cs := by
  induction cs with
  | nil => rfl
  | cons c cs ih =>
    have hc := h c (by simp)
    have hrest := ih fun d hd => h d (List.mem_cons_of_mem c hd)
    rw [encode_cons, encode_ascii hc, List.singleton_append, List.map_cons, hrest,
      byteChar_ascii hc]

theorem prefix_of_encode {word cs : List Char} (h : ∀ c ∈ word, c.toNat < 128)
    (hfront : word <+: (encode cs).map byteChar) : word <+: cs := by
  induction word generalizing cs with
  | nil => exact List.nil_prefix
  | cons w word ih =>
    have hw := h w (by simp)
    cases cs with
    | nil => simp [encode] at hfront
    | cons c cs =>
      rw [encode_cons] at hfront
      by_cases hc : c.toNat < 128
      · rw [encode_ascii hc, List.singleton_append, List.map_cons, byteChar_ascii hc,
          List.cons_prefix_cons] at hfront
        rw [hfront.1]
        exact List.cons_prefix_cons.2
          ⟨rfl, ih (fun d hd => h d (List.mem_cons_of_mem w hd)) hfront.2⟩
      · obtain ⟨b, rest, hbytes⟩ := List.exists_cons_of_ne_nil (encode_ne_nil c)
        rw [hbytes, List.cons_append, List.map_cons, List.cons_prefix_cons] at hfront
        have hwide := byteChar_wide (encode_wide (Nat.le_of_not_lt hc) (b := b) (by simp [hbytes]))
        rw [← hfront.1] at hwide
        omega

end Text

theorem nameChar_ascii {c : Char} (h : isNameChar c = true) : c.toNat < 128 := by
  have hranges : (((c.val ≥ 'A'.val ∧ c.val ≤ 'Z'.val) || c.val ≥ 'a'.val && c.val ≤ 'z'.val) ||
      c.val ≥ '0'.val && c.val ≤ '9'.val || c = '_') = true := h
  simp only [Bool.or_eq_true, Bool.and_eq_true, decide_eq_true_eq, UInt32.le_iff_toNat_le,
    ge_iff_le] at hranges
  have hupper : 'Z'.val.toNat = 90 := rfl
  have hlower : 'z'.val.toNat = 122 := rfl
  have hdigit : '9'.val.toNat = 57 := rfl
  change c.val.toNat < 128
  rcases hranges with ((h | h) | h) | rfl
  · omega
  · omega
  · omega
  · decide

theorem spelling_ascii {meaning : Directive} {inner : List Char} (h : meaning.Spelling inner) :
    ∀ c ∈ inner, c.toNat < 128 := by
  intro c hc
  rcases spelling_char h c hc with hname | hgap | rfl | rfl
  · exact nameChar_ascii hname
  · simp only [isGapChar, Bool.or_eq_true, decide_eq_true_eq] at hgap
    rcases hgap with rfl | rfl <;> decide
  · decide
  · decide

theorem written_ascii {meaning : Directive} {raw : List Char} (h : meaning.Written raw) :
    ∀ c ∈ raw, c.toNat < 128 := by
  obtain ⟨inner, hinner, rfl⟩ := h
  have hopen : openBrace.toNat < 128 := by decide
  have hclose : closeBrace.toNat < 128 := by decide
  have hspelled := spelling_ascii hinner
  intro c hc
  simp only [List.mem_cons, List.mem_append, List.not_mem_nil, or_false] at hc
  rcases hc with rfl | rfl | hc | rfl | rfl
  · exact hopen
  · exact hopen
  · exact hspelled c hc
  · exact hclose
  · exact hclose

theorem directiveAt_encode (cs : List Char) :
    directiveAt? ((Text.encode cs).map Text.byteChar) = directiveAt? cs := by
  apply Option.ext
  rintro ⟨meaning, n⟩
  rw [directiveAt_iff, directiveAt_iff]
  constructor
  · rintro ⟨raw, hraw, hfront, hn⟩
    exact ⟨raw, hraw, Text.prefix_of_encode (written_ascii hraw) hfront, hn⟩
  · rintro ⟨raw, hraw, ⟨tail, rfl⟩, hn⟩
    refine ⟨raw, hraw, ⟨(Text.encode tail).map Text.byteChar, ?_⟩, hn⟩
    rw [Text.encode_append, List.map_append, Text.encode_all_ascii (written_ascii hraw)]

/-- Nor does a directive start in the middle of a character. -/
theorem directiveAt_inside {c : Char} {a b : List UInt8} (h : String.utf8EncodeChar c = a ++ b)
    (ha : a ≠ []) (hb : b ≠ []) (rest : List UInt8) :
    directiveAt? ((b ++ rest).map Text.byteChar) = none := by
  apply directiveAt_none
  rintro ⟨hbrace, -⟩
  obtain ⟨byte, tail, rfl⟩ := List.exists_cons_of_ne_nil hb
  rw [List.cons_append, List.map_cons, List.cons_prefix_cons] at hbrace
  have hwide := Text.byteChar_wide (Text.encode_inside h ha)
  rw [← hbrace.1] at hwide
  revert hwide
  decide

def Lexeme.encode : Lexeme Char → Lexeme UInt8
  | .text run => .text (Text.encode run)
  | .directive meaning raw offset => .directive meaning (Text.encode raw) offset

theorem ofRun_encode (run : List Char) :
    Lexeme.ofRun (Text.encode run) = (Lexeme.ofRun run).map Lexeme.encode := by
  cases run with
  | nil => rfl
  | cons c run =>
    have hne : Text.encode (c :: run) ≠ [] := by
      rw [Text.encode_cons]
      exact List.append_ne_nil_of_left_ne_nil (Text.encode_ne_nil c) _
    simp [Lexeme.ofRun, Lexeme.encode, hne]

/-- The leftmost readings of characters and of bytes find the same tokens. -/
theorem leftmost_encode (offset : Nat) (run cs : List Char) :
    leftmost Text.byteChar (fun _ => 1) offset (Text.encode run) (Text.encode cs) =
      (leftmost id Char.utf8Size offset run cs).map Lexeme.encode := by
  fun_induction leftmost id Char.utf8Size offset run cs with
  | case1 offset run cs meaning n hstart hshort ih =>
    rw [List.map_id] at hstart
    have hbytes := (directiveAt_encode cs).trans hstart
    obtain ⟨raw, hraw, ⟨tail, rfl⟩, rfl⟩ := directiveAt_iff.1 hstart
    have hlength : (Text.encode raw).length = raw.length := by
      rw [← List.length_map Text.byteChar, Text.encode_all_ascii (written_ascii hraw)]
    rw [List.take_left, List.drop_left] at ih ⊢
    rw [leftmost_directive hbytes, Text.encode_append, ← hlength, List.take_left, List.drop_left,
      List.map_append, List.map_cons, ← ofRun_encode, ← ih, Lexeme.encode, ← Text.length_encode]
    simp [Text.encode]
  | case2 offset run hstart =>
    rw [← ofRun_encode]
    exact leftmost_nil _ _
  | case3 offset run c cs hstart ih =>
    have hplain : ∀ a b, String.utf8EncodeChar c = a ++ b → b ≠ [] →
        directiveAt? ((b ++ Text.encode cs).map Text.byteChar) = none := by
      intro a b hab hb
      by_cases ha : a = []
      · subst ha
        rw [← (List.nil_append b), ← hab, ← Text.encode_cons, directiveAt_encode]
        simpa using hstart
      · exact directiveAt_inside hab ha hb _
    rw [Text.encode_cons, leftmost_run hplain, ← ih, Text.encode_append]
    simp [Text.encode]

end QuotePress
