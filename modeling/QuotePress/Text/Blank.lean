/-! # Blank characters

A set of characters is given by ranges of code points. Blank means Unicode's White_Space property;
the zero-width space U+200B is not blank. -/
namespace QuotePress.Text

/-- Whether the code point of `c` lies in one of the closed ranges. -/
def inRanges (ranges : List (Nat × Nat)) (c : Char) : Bool :=
  ranges.any fun (low, high) => low ≤ c.toNat && c.toNat ≤ high

/-- Code points with the property White_Space. -/
def blankRanges : List (Nat × Nat) :=
  [(9, 13), (32, 32), (133, 133), (160, 160), (5760, 5760), (8192, 8202), (8232, 8233),
   (8239, 8239), (8287, 8287), (12288, 12288)]

def isBlankChar (c : Char) : Bool :=
  inRanges blankRanges c

def trimStart (cs : List Char) : List Char :=
  cs.dropWhile isBlankChar

def trimChars (cs : List Char) : List Char :=
  (trimStart (trimStart cs).reverse).reverse

def trim (s : String) : String :=
  String.ofList (trimChars s.toList)

def isBlank (s : String) : Bool :=
  s.toList.all isBlankChar

/-- Nothing is left in front of a text that is blank throughout. -/
theorem trimStart_eq_nil_iff {cs : List Char} :
    trimStart cs = [] ↔ cs.all isBlankChar = true := by
  induction cs with
  | nil => simp [trimStart]
  | cons c rest ih =>
    by_cases h : isBlankChar c = true <;> simp_all [trimStart]

/-- A text is blank exactly when trimming leaves nothing. -/
theorem trimChars_eq_nil_iff {cs : List Char} :
    trimChars cs = [] ↔ cs.all isBlankChar = true := by
  simp only [trimChars, List.reverse_eq_nil_iff, trimStart_eq_nil_iff, List.all_reverse]
  constructor
  · intro h
    rw [← trimStart_eq_nil_iff]
    cases hc : trimStart cs with
    | nil => rfl
    | cons c rest =>
      have hb : isBlankChar c = true := by
        rw [hc] at h
        simp only [List.all_cons, Bool.and_eq_true] at h
        exact h.1
      have hn := List.head?_dropWhile_not isBlankChar cs
      rw [show cs.dropWhile isBlankChar = c :: rest from hc] at hn
      simp [hb] at hn
  · intro h
    rw [trimStart_eq_nil_iff.2 h]
    rfl

end QuotePress.Text
