import QuotePress.Proofs.Template.Bytes

/-! # The tokens of a template

The tokens are the template cut into pieces: texts that are not empty and never meet, and directives
as written, each recorded with the number of bytes before it. -/
namespace QuotePress

open Token (scan openBrace)

namespace Token

def isText : Token → Bool
  | .text _ => true
  | .directive .. => false

def size (tokens : List Token) : Nat := (tokens.map fun t => t.raw.utf8ByteSize).sum

theorem raw_units {α : Type} (f : String → List α) (t : Token) : (t.units f).raw = f t.raw := by
  cases t <;> rfl

theorem isText_units {α : Type} (f : String → List α) (t : Token) :
    (t.units f).isText = t.isText := by
  cases t <;> rfl

end Token

theorem scan_bytes (source : String) : (scan source).map (Token.units Text.bytes) =
    leftmost Text.byteChar (fun _ => 1) 0 [] (Text.bytes source) := by
  have hbytes : Token.units Text.bytes = Lexeme.encode ∘ Token.units String.toList := by
    funext t
    cases t <;> simp [Token.units, Lexeme.encode, Text.bytes_eq_encode]
  rw [hbytes, ← List.map_map, scan_reading, ← leftmost_encode, Text.bytes_eq_encode]
  rfl

theorem scan_lossless (source : String) : String.join ((scan source).map Token.raw) = source := by
  have hraw := raw_leftmost id Char.utf8Size 0 [] source.toList
  rw [← scan_reading, List.flatMap_map, List.nil_append] at hraw
  apply String.toList_inj.1
  rw [String.toList_join, List.flatMap_map, ← hraw]
  simp only [Token.raw_units]

theorem scan_text_ne_empty {source run : String} (h : .text run ∈ scan source) : run ≠ "" := by
  have hmem : Lexeme.text run.toList ∈ (scan source).map (Token.units String.toList) :=
    List.mem_map.2 ⟨.text run, h, rfl⟩
  rw [scan_reading] at hmem
  rintro rfl
  exact text_leftmost_ne_nil hmem rfl

theorem scan_apart (source : String) : Apart Token.isText (scan source) := by
  have happart := leftmost_apart id Char.utf8Size 0 [] source.toList
  rw [← scan_reading, Apart, List.isChain_map] at happart
  simpa only [Apart, Token.isText_units] using happart

theorem scan_written {source raw : String} {meaning : Directive} {offset : Nat}
    (h : .directive meaning raw offset ∈ scan source) : meaning.Written raw.toList := by
  have hmem : Lexeme.directive meaning raw.toList offset ∈
      (scan source).map (Token.units String.toList) := List.mem_map.2 ⟨_, h, rfl⟩
  rw [scan_reading] at hmem
  have hwritten := written_leftmost hmem
  rwa [List.map_id] at hwritten

theorem utf8ByteSize_eq_sum (s : String) : s.utf8ByteSize = (s.toList.map Char.utf8Size).sum := by
  rw [← Text.length_encode, ← Text.bytes_eq_encode]
  rfl

theorem size_eq_sum (tokens : List Token) : Token.size tokens =
    (((tokens.map (Token.units String.toList)).flatMap Lexeme.raw).map Char.utf8Size).sum := by
  induction tokens with
  | nil => rfl
  | cons t tokens ih =>
    rw [Token.size] at ih ⊢
    rw [List.map_cons, List.sum_cons, ih, List.map_cons, List.flatMap_cons, List.map_append,
      List.sum_append, Token.raw_units, utf8ByteSize_eq_sum]

theorem scan_offset {source raw : String} {meaning : Directive} {offset : Nat}
    {before after : List Token}
    (h : scan source = before ++ .directive meaning raw offset :: after) :
    offset = Token.size before := by
  have hsplit : leftmost id Char.utf8Size 0 [] source.toList =
      before.map (Token.units String.toList) ++ .directive meaning raw.toList offset ::
        after.map (Token.units String.toList) := by
    rw [← scan_reading, h, List.map_append]
    rfl
  have hoffset := offset_leftmost hsplit
  rw [← size_eq_sum] at hoffset
  simpa using hoffset

namespace Token

def place? : Token → Option (Nat × String)
  | .text _ => none
  | .directive _ raw offset => some (offset, raw)

end Token

theorem directive_size_pos {source raw : String} {meaning : Directive} {offset : Nat}
    (h : .directive meaning raw offset ∈ scan source) : 0 < raw.utf8ByteSize := by
  obtain ⟨inner, -, hraw⟩ := scan_written h
  have hpos := openBrace.utf8Size_pos
  rw [utf8ByteSize_eq_sum, hraw, List.map_cons, List.sum_cons]
  omega

theorem scan_ascending (source : String) :
    ((scan source).filterMap Token.place?).Pairwise fun a b => a.1 < b.1 := by
  have hall : ∀ front tokens, scan source = front ++ tokens →
      (∀ p ∈ tokens.filterMap Token.place?, Token.size front ≤ p.1) ∧
        (tokens.filterMap Token.place?).Pairwise fun a b => a.1 < b.1 := by
    intro front tokens
    induction tokens generalizing front with
    | nil => simp
    | cons t tokens ih =>
      intro hscan
      have hnext : scan source = (front ++ [t]) ++ tokens := by rw [hscan]; simp
      obtain ⟨hbound, hsorted⟩ := ih _ hnext
      have hsize : Token.size (front ++ [t]) = Token.size front + t.raw.utf8ByteSize := by
        simp [Token.size]
      rw [hsize] at hbound
      cases t with
      | text run =>
        refine ⟨?_, hsorted⟩
        intro p hp
        have := hbound p hp
        omega
      | directive meaning raw offset =>
        have hoffset := scan_offset hscan
        have hmem : .directive meaning raw offset ∈ scan source := by rw [hscan]; simp
        have hpos := directive_size_pos hmem
        simp only [Token.raw] at hbound
        simp only [List.filterMap_cons, Token.place?]
        constructor
        · intro p hp
          rcases List.mem_cons.1 hp with rfl | hp
          · exact hoffset.ge
          · have := hbound p hp
            omega
        · refine List.pairwise_cons.2 ⟨?_, hsorted⟩
          intro p hp
          have := hbound p hp
          change offset < p.1
          omega
  exact (hall [] (scan source) rfl).2

/-- The scan is the leftmost reading of the bytes, and cuts the template into its tokens. -/
theorem scan_leftmost (source : String) :
    (scan source).map (Token.units Text.bytes) =
      leftmost Text.byteChar (fun _ => 1) 0 [] (Text.bytes source) ∧
    String.join ((scan source).map Token.raw) = source ∧
    (∀ run, .text run ∈ scan source → run ≠ "") ∧
    Apart Token.isText (scan source) ∧
    ∀ before meaning raw offset after,
      scan source = before ++ .directive meaning raw offset :: after →
        offset = (before.map fun t => t.raw.utf8ByteSize).sum := by
  refine ⟨scan_bytes source, scan_lossless source, ?_, scan_apart source, ?_⟩
  · intro run h
    exact scan_text_ne_empty h
  · intro before meaning raw offset after h
    exact scan_offset h

end QuotePress
