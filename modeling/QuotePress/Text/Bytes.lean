/-! # Offsets in UTF-8 bytes

Positions in a text are counted in bytes of its UTF-8 form, while the text itself stays a list of
characters. -/
namespace QuotePress.Text

def byteCount : List Char → Nat
  | [] => 0
  | c :: rest => c.utf8Size + byteCount rest

@[simp]
theorem byteCount_append (a b : List Char) : byteCount (a ++ b) = byteCount a + byteCount b := by
  induction a with
  | nil => simp [byteCount]
  | cons c rest ih => simp [byteCount, ih, Nat.add_assoc]

/-- Cuts a text at the first character boundary that has at least `n` bytes before it. -/
def cutBytes : Nat → List Char → List Char × List Char
  | 0, cs => ([], cs)
  | _ + 1, [] => ([], [])
  | n + 1, c :: rest =>
    let (before, after) := cutBytes (n + 1 - c.utf8Size) rest
    (c :: before, after)

/-- A cut loses nothing. -/
theorem cutBytes_append (n : Nat) (cs : List Char) :
    (cutBytes n cs).1 ++ (cutBytes n cs).2 = cs := by
  induction cs generalizing n with
  | nil => cases n <;> rfl
  | cons c rest ih =>
    cases n with
    | zero => rfl
    | succ n => simp [cutBytes, ih]

/-- At a character boundary the cut is exact. -/
theorem cutBytes_byteCount (a b : List Char) : cutBytes (byteCount a) (a ++ b) = (a, b) := by
  induction a with
  | nil => cases b <;> rfl
  | cons c rest ih =>
    have hpos := c.utf8Size_pos
    obtain ⟨k, hk⟩ : ∃ k, byteCount (c :: rest) = k + 1 :=
      ⟨byteCount (c :: rest) - 1, by simp only [byteCount]; omega⟩
    have hs : k + 1 - c.utf8Size = byteCount rest := by rw [← hk, byteCount]; omega
    rw [hk, List.cons_append]
    simp [cutBytes, hs, ih]

/-- Splits a text around the first place where `c` stands twice in a row. -/
def splitAtPair (c : Char) : List Char → Option (List Char × List Char)
  | a :: b :: rest =>
    if a = c ∧ b = c then some ([], rest)
    else (splitAtPair c (b :: rest)).map fun (before, after) => (a :: before, after)
  | _ => none

/-- A split takes the pair out of the text and nothing else. -/
theorem append_of_splitAtPair {c : Char} {cs before after : List Char}
    (h : splitAtPair c cs = some (before, after)) : cs = before ++ c :: c :: after := by
  induction cs generalizing before with
  | nil => simp [splitAtPair] at h
  | cons a rest ih =>
    cases rest with
    | nil => simp [splitAtPair] at h
    | cons b rest =>
      rw [splitAtPair] at h
      split at h
      · rename_i hc
        obtain ⟨rfl, rfl⟩ := hc
        simp only [Option.some.injEq, Prod.mk.injEq] at h
        obtain ⟨rfl, rfl⟩ := h
        rfl
      · obtain ⟨⟨p, q⟩, hp, heq⟩ := Option.map_eq_some_iff.1 h
        simp only [Prod.mk.injEq] at heq
        obtain ⟨rfl, rfl⟩ := heq
        rw [ih hp]
        rfl

end QuotePress.Text
