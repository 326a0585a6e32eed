import QuotePress.Json.Lexeme
import QuotePress.Json.Value
import QuotePress.Proofs.Text.Runs

/-! # What is written is lexed again

A value is written as lexemes with blanks between them. Cut into lexemes again, the text gives just
these, in either layout. -/
namespace QuotePress.Json

/-! ## Quoted texts -/

theorem hexValue?_hexDigit : ∀ n, n < 16 → hexValue? (hexDigit n) = some n := by
  decide

theorem takeUnit_control {n : Nat} (h : n < 32) (rest : List Char) :
    takeUnit ('0' :: '0' :: hexDigit (n / 16) :: hexDigit (n % 16) :: rest) = .ok (n, rest) := by
  have hhigh := hexValue?_hexDigit (n / 16) (by omega)
  have hlow := hexValue?_hexDigit (n % 16) (by omega)
  have hzero : hexValue? '0' = some 0 := by decide
  have hunit : hexUnit? '0' '0' (hexDigit (n / 16)) (hexDigit (n % 16)) =
      some (n / 16 * 16 + n % 16) := by
    simp [hexUnit?, hzero, hhigh, hlow]
  rw [takeUnit, hunit, Nat.div_add_mod']

/-- How a character inside a quoted text is written: as itself, or as a backslash and an escape that
both readers take for it. -/
theorem quoteChar_cases (c : Char) :
    (quoteChar c = [c] ∧ c ≠ '"' ∧ c ≠ '\\' ∧ ¬ c.toNat < 32) ∨
    ∃ escape, quoteChar c = '\\' :: escape ∧
      ∀ rest, takeEscape (escape ++ rest) = .ok (c, rest) ∧
        skipEscape (escape ++ rest) = .ok rest := by
  unfold quoteChar
  split
  · subst c; exact Or.inr ⟨['"'], rfl, fun rest => ⟨rfl, rfl⟩⟩
  split
  · subst c; exact Or.inr ⟨['\\'], rfl, fun rest => ⟨rfl, rfl⟩⟩
  split
  · subst c; exact Or.inr ⟨['b'], rfl, fun rest => ⟨rfl, rfl⟩⟩
  split
  · subst c; exact Or.inr ⟨['f'], rfl, fun rest => ⟨rfl, rfl⟩⟩
  split
  · subst c; exact Or.inr ⟨['n'], rfl, fun rest => ⟨rfl, rfl⟩⟩
  split
  · subst c; exact Or.inr ⟨['r'], rfl, fun rest => ⟨rfl, rfl⟩⟩
  split
  · subst c; exact Or.inr ⟨['t'], rfl, fun rest => ⟨rfl, rfl⟩⟩
  split
  · rename_i hcontrol
    refine Or.inr ⟨_, rfl, fun rest => ?_⟩
    have hunit := takeUnit_control hcontrol rest
    have hlow : isLowHalf c.toNat = false := by simp [isLowHalf]; omega
    have hhigh : isHighHalf c.toNat = false := by simp [isHighHalf]; omega
    constructor
    · simp only [List.cons_append, List.nil_append, takeEscape, hunit, takeCharFrom, hlow, hhigh,
        Bool.false_eq_true, ↓reduceIte, Char.ofNat_toNat]
    · simp only [List.cons_append, List.nil_append, skipEscape, hunit]
  · exact Or.inl ⟨rfl, ‹_›, ‹_›, ‹_›⟩

theorem stringValue_quoteChar (c : Char) (rest : List Char) :
    stringValue (quoteChar c ++ rest) = (stringValue rest).map (c :: ·) := by
  rcases quoteChar_cases c with ⟨hplain, hquote, hslash, hcontrol⟩ | ⟨escape, hescape, htake⟩
  · rw [hplain, List.singleton_append, stringValue, if_neg hquote, if_neg hslash,
      if_neg hcontrol]
  · rw [hescape, List.cons_append, stringValue, if_neg (by decide), if_pos rfl]
    split
    · rename_i h
      rw [(htake rest).1] at h
      cases h
    · rename_i h
      rw [(htake rest).1] at h
      cases h
      rfl

theorem skipString_quoteChar (c : Char) (rest : List Char) :
    skipString (quoteChar c ++ rest) = skipString rest := by
  rcases quoteChar_cases c with ⟨hplain, hquote, hslash, hcontrol⟩ | ⟨escape, hescape, htake⟩
  · rw [hplain, List.singleton_append, skipString, if_neg hquote, if_neg hslash,
      if_neg hcontrol]
  · rw [hescape, List.cons_append, skipString, if_neg (by decide), if_pos rfl]
    split
    · rename_i h
      rw [(htake rest).2] at h
      cases h
    · rename_i h
      rw [(htake rest).2] at h
      cases h
      rfl

theorem stringValue_quoted (cs rest : List Char) :
    stringValue (cs.flatMap quoteChar ++ '"' :: rest) = .ok cs := by
  induction cs with
  | nil => rw [List.flatMap_nil, List.nil_append, stringValue, if_pos rfl]
  | cons c cs ih =>
    rw [List.flatMap_cons, List.append_assoc, stringValue_quoteChar, ih]
    rfl

theorem skipString_quoted (cs rest : List Char) :
    skipString (cs.flatMap quoteChar ++ '"' :: rest) = .ok rest := by
  induction cs with
  | nil => rw [List.flatMap_nil, List.nil_append, skipString, if_pos rfl]
  | cons c cs ih => rw [List.flatMap_cons, List.append_assoc, skipString_quoteChar, ih]

/-! ## Numbers -/

def EndsNumber (rest : List Char) : Prop :=
  ∀ c, rest.head? = some c → c.isDigit = false ∧ c ≠ '.' ∧ c ≠ 'e' ∧ c ≠ 'E'

theorem endsNumber_nil : EndsNumber [] := nofun

variable {rest : List Char}

theorem scanDigits_append {cs ds after : List Char} (h : scanDigits cs = .found ds after)
    (hrest : EndsNumber rest) : scanDigits (cs ++ rest) = .found ds (after ++ rest) := by
  rw [scanDigits] at h
  split at h
  · cases h
  rename_i hne
  cases h
  have hall : ∀ c ∈ cs.takeWhile Char.isDigit, c.isDigit = true :=
    List.all_eq_true.1 List.all_takeWhile
  have hend : ∀ c, (cs.dropWhile Char.isDigit ++ rest).head? = some c → c.isDigit = false := by
    intro c hc
    cases hdrop : cs.dropWhile Char.isDigit with
    | nil =>
      rw [hdrop] at hc
      exact (hrest c hc).1
    | cons d tail =>
      rw [hdrop] at hc
      cases hc
      simpa [hdrop] using List.head?_dropWhile_not Char.isDigit cs
  obtain ⟨htake, hdrop⟩ := span_exact hall hend
  rw [← List.append_assoc, List.takeWhile_append_dropWhile] at htake hdrop
  rw [scanDigits, htake, hdrop, if_neg hne]

theorem scanDigits_head {cs ds after : List Char} (h : scanDigits cs = .found ds after) :
    ∃ c tail, cs = c :: tail ∧ c.isDigit = true := by
  rw [scanDigits] at h
  split at h
  · cases h
  rename_i hne
  cases cs with
  | nil => simp at hne
  | cons c tail =>
    refine ⟨c, tail, rfl, ?_⟩
    cases hc : c.isDigit with
    | true => rfl
    | false => simp [hc] at hne

theorem scanWhole_found_iff {cs ds after : List Char} : scanWhole cs = .found ds after ↔
    scanDigits cs = .found ds after ∧ ∀ d tail, cs = '0' :: d :: tail → d.isDigit = false := by
  rw [scanWhole.eq_def]
  split
  · rename_i d tail
    cases hd : d.isDigit with
    | true => simp [hd]
    | false => simp [hd]
  · rename_i hother
    simp only [iff_self_and]
    exact fun _ d tail h => absurd h (hother d tail)

theorem scanWhole_append {cs ds after : List Char} (h : scanWhole cs = .found ds after)
    (hrest : EndsNumber rest) : scanWhole (cs ++ rest) = .found ds (after ++ rest) := by
  obtain ⟨hdigits, hzero⟩ := scanWhole_found_iff.1 h
  refine scanWhole_found_iff.2 ⟨scanDigits_append hdigits hrest, fun d tail heq => ?_⟩
  obtain ⟨c, more, rfl, -⟩ := scanDigits_head hdigits
  cases more with
  | nil =>
    obtain ⟨-, rfl⟩ := List.cons.inj heq
    exact (hrest d rfl).1
  | cons e more =>
    obtain ⟨rfl, hmore⟩ := List.cons.inj heq
    obtain ⟨rfl, -⟩ := List.cons.inj hmore
    exact hzero e more rfl

theorem scanFraction_append {cs ds after : List Char} (h : scanFraction cs = .found ds after)
    (hrest : EndsNumber rest) : scanFraction (cs ++ rest) = .found ds (after ++ rest) := by
  cases cs with
  | nil =>
    cases h
    cases rest with
    | nil => rfl
    | cons c tail =>
      rw [scanFraction.eq_def]
      split
      · rename_i heq
        cases heq
        exact absurd rfl (hrest '.' rfl).2.1
      · rfl
  | cons c tail =>
    rw [scanFraction.eq_def] at h
    split at h
    · rename_i heq
      cases heq
      exact scanDigits_append h hrest
    · rename_i hother
      cases h
      rw [scanFraction.eq_def]
      split
      · rename_i heq
        cases heq
        exact absurd rfl (hother tail)
      · rfl

theorem scanPower_append {cs after : List Char} {power : Option Int}
    (h : scanPower cs = .found power after) (hrest : EndsNumber rest) :
    scanPower (cs ++ rest) = .found power (after ++ rest) := by
  cases cs with
  | nil =>
    cases h
    cases rest with
    | nil => rfl
    | cons c tail =>
      obtain ⟨-, -, hlower, hupper⟩ := hrest c rfl
      simp only [List.nil_append, scanPower, hlower, hupper, or_self, ↓reduceIte]
  | cons c tail =>
    rw [List.cons_append]
    by_cases hc : c = 'e' ∨ c = 'E'
    · simp only [scanPower, if_pos hc] at h ⊢
      split at h
      · rename_i ds left hdigits
        cases tail with
        | nil => cases hdigits
        | cons d more =>
          have happend : (if d = '-' ∨ d = '+' then more else d :: more) ++ rest =
              if d = '-' ∨ d = '+' then more ++ rest else d :: more ++ rest := by
            split <;> rfl
          simp only [List.head?_cons, Option.some.injEq, List.drop_one, List.tail_cons,
            List.cons_append] at h hdigits happend ⊢
          rw [← happend, scanDigits_append hdigits hrest]
          cases h
          rfl
      · cases h
    · simp only [scanPower, if_neg hc] at h ⊢
      cases h
      rfl

theorem scanNumber_append {cs after : List Char} {l : Decimal.Literal}
    (h : scanNumber cs = .found l after) (hrest : EndsNumber rest) :
    scanNumber (cs ++ rest) = .found l (after ++ rest) := by
  cases cs with
  | nil => cases h
  | cons c tail =>
    have happend : (if c = '-' then tail else c :: tail) ++ rest =
        if c = '-' then tail ++ rest else c :: tail ++ rest := by
      split <;> rfl
    simp only [scanNumber, List.head?_cons, Option.some.injEq, List.drop_one, List.tail_cons,
      List.cons_append] at h happend ⊢
    split at h
    · cases h
    rename_i hwhole
    split at h
    · cases h
    rename_i hfraction
    split at h
    · cases h
    rename_i hpower
    cases h
    rw [← happend, scanWhole_append hwhole hrest]
    simp only [scanFraction_append hfraction hrest, scanPower_append hpower hrest]

def Spells (cs : List Char) (n : Number) : Prop :=
  ∃ l, scanNumber cs = .found l [] ∧ Number.ofLiteral l = .ok n

def ReadsBack (x : Float) : Prop := Spells (realText x) (.real x)

theorem spells_natural {n : Nat} (h : n < UInt64.size) :
    Spells (Nat.toDigits 10 n) (.integer n) := by
  have hdigits : scanDigits (Nat.toDigits 10 n) = .found (Nat.toDigits 10 n) [] := by
    have hspan := @span_exact _ _ [] (Decimal.isDigit_toDigits n) (by simp)
    rw [List.append_nil] at hspan
    rw [scanDigits, hspan.1, hspan.2, if_neg (by simp)]
  have hwhole : scanWhole (Nat.toDigits 10 n) = .found (Nat.toDigits 10 n) [] :=
    scanWhole_found_iff.2 ⟨hdigits, fun d tail heq =>
      absurd (Decimal.toDigits_zero_head heq) (List.cons_ne_nil d tail)⟩
  have hsign : (Nat.toDigits 10 n).head? ≠ some '-' := by
    intro hminus
    exact absurd (Decimal.isDigit_toDigits n _ (List.mem_of_head? hminus)) (by decide)
  refine ⟨⟨false, Nat.toDigits 10 n, [], none⟩, ?_, ?_⟩
  · simp only [scanNumber, hsign, decide_false, ↓reduceIte, hwhole,
      scanFraction, scanPower]
  · have hvalue : Decimal.ofDigits (Nat.toDigits 10 n) = n := Decimal.ofDigits_toDigits n
    simp [Number.ofLiteral, Decimal.Literal.isWhole, Decimal.Literal.wholeValue, hvalue, h]

theorem spells_head {cs : List Char} {n : Number} (h : Spells cs n) :
    ∃ c tail, cs = c :: tail ∧ (c = '-' ∨ c.isDigit = true) := by
  obtain ⟨l, hscan, -⟩ := h
  cases cs with
  | nil => cases hscan
  | cons c tail =>
    refine ⟨c, tail, rfl, ?_⟩
    by_cases hc : c = '-'
    · exact Or.inl hc
    · right
      simp only [scanNumber, List.head?_cons, Option.some.injEq, hc, decide_false,
        ↓reduceIte] at hscan
      split at hscan
      · cases hscan
      · rename_i hwhole
        obtain ⟨d, more, heq, hd⟩ := scanDigits_head (scanWhole_found_iff.1 hwhole).1
        cases heq
        exact hd

/-! ## Lexemes -/

theorem lex_nil : lex [] = [] := by
  rw [lex]
  rfl

theorem lex_space {c : Char} (h : isSpace c = true) (rest : List Char) :
    lex (c :: rest) = lex rest := by
  have hdrop : (c :: rest).dropWhile isSpace = rest.dropWhile isSpace := by
    rw [List.dropWhile_cons, if_pos h]
  rw [lex.eq_def, lex.eq_def]
  split
  · rename_i hcons
    rw [hdrop] at hcons
    split
    · rfl
    · rename_i hrest
      rw [hcons] at hrest
      cases hrest
  · rename_i hcons
    rw [hdrop] at hcons
    split
    · rename_i hrest
      rw [hcons] at hrest
      cases hrest
    · rename_i hrest
      rw [hcons] at hrest
      cases hrest
      rfl

theorem lex_lexeme {c : Char} (h : isSpace c = false) (rest : List Char) :
    lex (c :: rest) = (lexOne c rest).1 :: lex (lexOne c rest).2 := by
  have hdrop : (c :: rest).dropWhile isSpace = c :: rest := by
    rw [List.dropWhile_cons, if_neg (by simp [h])]
  rw [lex.eq_def]
  split
  · rename_i hcons
    rw [hdrop] at hcons
    cases hcons
  · rename_i hcons
    rw [hdrop] at hcons
    cases hcons
    rfl

theorem lex_lineBreak (layout : Layout) (rest : List Char) :
    lex (layout.lineBreak ++ rest) = lex rest := by
  cases layout with
  | compact => rfl
  | indented level =>
    rw [Layout.lineBreak, List.cons_append, lex_space (by decide)]
    generalize 2 * level = width
    induction width with
    | zero => rfl
    | succ width ih => rw [List.replicate_succ, List.cons_append, lex_space (by decide), ih]

theorem lex_colon (layout : Layout) (rest : List Char) :
    lex (layout.colon ++ rest) = .colon :: lex rest := by
  cases layout with
  | compact => exact lex_lexeme (by decide) rest
  | indented level =>
    rw [Layout.colon, List.cons_append, List.singleton_append, lex_lexeme (by decide)]
    exact congrArg (Lexeme.colon :: ·) (lex_space (by decide) rest)

theorem lex_quote (s : String) (rest : List Char) :
    lex (quote s ++ rest) = .string (.ok s) none :: lex rest := by
  have hone : lexOne '"' (s.toList.flatMap quoteChar ++ '"' :: rest) =
      (.string (.ok s) none, rest) := by
    change lexString _ = _
    rw [lexString, stringValue_quoted, skipString_quoted]
    simp [Except.map]
  rw [quote, List.append_assoc, List.cons_append, lex_lexeme (by decide)]
  rw [List.singleton_append, hone]

theorem lexOne_number {c : Char} (h : c = '-' ∨ c.isDigit = true) (rest : List Char) :
    isSpace c = false ∧ lexOne c rest = lexNumber (c :: rest) := by
  have hother : ∀ d : Char, d ≠ '-' → d.isDigit = false → c ≠ d := by
    rintro d hsign hdigit rfl
    rcases h with h | h
    · exact hsign h
    · exact Bool.false_ne_true (hdigit.symm.trans h)
  constructor
  · simp only [isSpace, Bool.or_eq_false_iff, decide_eq_false_iff_not]
    exact ⟨⟨⟨hother _ (by decide) (by decide), hother _ (by decide) (by decide)⟩,
      hother _ (by decide) (by decide)⟩, hother _ (by decide) (by decide)⟩
  · have hpunctuation : punctuation? c = none := by
      rw [punctuation?, if_neg (hother _ (by decide) (by decide)),
        if_neg (hother _ (by decide) (by decide)), if_neg (hother _ (by decide) (by decide)),
        if_neg (hother _ (by decide) (by decide)), if_neg (hother _ (by decide) (by decide)),
        if_neg (hother _ (by decide) (by decide))]
    have hword : wordFrom? c = none := by
      rw [wordFrom?, if_neg (hother _ (by decide) (by decide)),
        if_neg (hother _ (by decide) (by decide)), if_neg (hother _ (by decide) (by decide))]
    rw [lexOne, hpunctuation, hword]
    dsimp only
    rw [if_neg (hother _ (by decide) (by decide)), if_pos h]

theorem lex_number {cs : List Char} {n : Number} (h : Spells cs n) (hrest : EndsNumber rest) :
    lex (cs ++ rest) = .atom (.ok (.number n)) none :: lex rest := by
  obtain ⟨c, tail, rfl, hc⟩ := spells_head h
  obtain ⟨l, hscan, hvalue⟩ := h
  have hnumber : lexNumber (c :: (tail ++ rest)) = (.atom (.ok (.number n)) none, rest) := by
    rw [lexNumber, ← List.cons_append, scanNumber_append hscan hrest, List.nil_append]
    simp [hvalue, Except.map]
  obtain ⟨hspace, hone⟩ := lexOne_number hc (tail ++ rest)
  rw [List.cons_append, lex_lexeme hspace, hone, hnumber]

mutual

def lexemes : Json → List Lexeme
  | .null => [.atom (.ok .null) none]
  | .boolean b => [.atom (.ok (.boolean b)) none]
  | .integer n => [.atom (.ok (.number (.integer n))) none]
  | .real x => [.atom (.ok (.number (.real x))) none]
  | .string s => [.string (.ok s) none]
  | .array [] => [.beginArray, .endArray]
  | .array (item :: rest) => .beginArray :: lexemes item ++ itemLexemes rest ++ [.endArray]
  | .object [] => [.beginObject, .endObject]
  | .object ((key, value) :: rest) =>
    .beginObject :: .string (.ok key) none :: .colon :: lexemes value ++ memberLexemes rest ++
      [.endObject]

def itemLexemes : List Json → List Lexeme
  | [] => []
  | item :: rest => .comma :: lexemes item ++ itemLexemes rest

def memberLexemes : List (String × Json) → List Lexeme
  | [] => []
  | (key, value) :: rest =>
    .comma :: .string (.ok key) none :: .colon :: lexemes value ++ memberLexemes rest

end

mutual

/-- A value whose numbers read back: doubles as themselves, and whole numbers from zero up to
what 64 bits hold. -/
def Legible : Json → Prop
  | .integer n => 0 ≤ n ∧ n < UInt64.size
  | .real x => ReadsBack x
  | .array items => LegibleItems items
  | .object members => LegibleMembers members
  | .null | .boolean _ | .string _ => True

def LegibleItems : List Json → Prop
  | [] => True
  | item :: rest => Legible item ∧ LegibleItems rest

def LegibleMembers : List (String × Json) → Prop
  | [] => True
  | (_, value) :: rest => Legible value ∧ LegibleMembers rest

end

theorem legibleItems_iff {items : List Json} :
    LegibleItems items ↔ ∀ j ∈ items, Legible j := by
  induction items with
  | nil => simp [LegibleItems]
  | cons item rest ih => simp [LegibleItems, ih]

theorem endsNumber_cons {c : Char} (h : c.isDigit = false ∧ c ≠ '.' ∧ c ≠ 'e' ∧ c ≠ 'E')
    (rest : List Char) : EndsNumber (c :: rest) := by
  rintro _ ⟨⟩
  exact h

/-- A line break ends a number, and so does what follows where there is none. -/
theorem endsNumber_lineBreak (layout : Layout) (h : EndsNumber rest) :
    EndsNumber (layout.lineBreak ++ rest) := by
  cases layout with
  | compact => exact h
  | indented level => exact endsNumber_cons (by decide) _

theorem endsNumber_items (layout : Layout) (items : List Json) (h : EndsNumber rest) :
    EndsNumber (renderItems layout items ++ rest) := by
  cases items with
  | nil => exact h
  | cons item items => exact endsNumber_cons (by decide) _

theorem endsNumber_members (layout : Layout) (members : List (String × Json))
    (h : EndsNumber rest) : EndsNumber (renderMembers layout members ++ rest) := by
  cases members with
  | nil => exact h
  | cons member members => exact endsNumber_cons (by decide) _

theorem toList_toString_natural (n : Nat) : (toString (n : Int)).toList = Nat.toDigits 10 n := by
  change n.repr.toList = _
  rw [Nat.repr_eq_ofList_toDigits, String.toList_ofList]

mutual

/-- Lexing what is written of a value gives its lexemes. -/
theorem lex_render (j : Json) (layout : Layout) (rest : List Char) (h : Legible j)
    (hrest : EndsNumber rest) : lex (j.render layout ++ rest) = lexemes j ++ lex rest := by
  match j with
  | .null =>
    rw [render, lexemes]
    exact lex_lexeme (by decide) _
  | .boolean b =>
    rw [render, lexemes]
    cases b with
    | false => exact lex_lexeme (by decide) _
    | true => exact lex_lexeme (by decide) _
  | .integer n =>
    obtain ⟨k, rfl⟩ := Int.eq_ofNat_of_zero_le h.1
    rw [render, lexemes, toList_toString_natural]
    exact lex_number (spells_natural (Int.ofNat_lt.1 h.2)) hrest
  | .real x =>
    rw [render, lexemes]
    exact lex_number h hrest
  | .string s =>
    rw [render, lexemes]
    exact lex_quote s rest
  | .array [] =>
    rw [render, lexemes]
    refine (lex_lexeme (by decide) _).trans (congrArg _ ?_)
    exact lex_lexeme (by decide) _
  | .object [] =>
    rw [render, lexemes]
    refine (lex_lexeme (by decide) _).trans (congrArg _ ?_)
    exact lex_lexeme (by decide) _
  | .array (item :: items) =>
    have hend : EndsNumber (layout.lineBreak ++ (']' :: rest)) :=
      endsNumber_lineBreak layout (endsNumber_cons (by decide) rest)
    rw [render, lexemes]
    simp only [List.append_assoc, List.cons_append, List.nil_append]
    refine (lex_lexeme (by decide) _).trans (congrArg _ ?_)
    change lex (layout.inner.lineBreak ++ _) = _
    rw [lex_lineBreak, lex_render item layout.inner _ h.1 (endsNumber_items _ items hend),
      lex_renderItems items layout.inner _ h.2 hend, lex_lineBreak, lex_lexeme (by decide)]
    rfl
  | .object ((key, value) :: members) =>
    have hend : EndsNumber (layout.lineBreak ++ ('\x7d' :: rest)) :=
      endsNumber_lineBreak layout (endsNumber_cons (by decide) rest)
    rw [render, lexemes]
    simp only [List.append_assoc, List.cons_append, List.nil_append]
    refine (lex_lexeme (by decide) _).trans (congrArg _ ?_)
    change lex (layout.inner.lineBreak ++ _) = _
    rw [lex_lineBreak, lex_quote, lex_colon,
      lex_render value layout.inner _ h.1 (endsNumber_members _ members hend),
      lex_renderMembers members layout.inner _ h.2 hend, lex_lineBreak, lex_lexeme (by decide)]
    rfl

theorem lex_renderItems (items : List Json) (layout : Layout) (rest : List Char)
    (h : LegibleItems items) (hrest : EndsNumber rest) :
    lex (renderItems layout items ++ rest) = itemLexemes items ++ lex rest := by
  match items with
  | [] => rw [renderItems, itemLexemes, List.nil_append, List.nil_append]
  | item :: items =>
    rw [renderItems, itemLexemes]
    simp only [List.append_assoc, List.cons_append]
    refine (lex_lexeme (by decide) _).trans (congrArg _ ?_)
    change lex (layout.lineBreak ++ _) = _
    rw [lex_lineBreak, lex_render item layout _ h.1 (endsNumber_items _ items hrest),
      lex_renderItems items layout rest h.2 hrest]

theorem lex_renderMembers (members : List (String × Json)) (layout : Layout) (rest : List Char)
    (h : LegibleMembers members) (hrest : EndsNumber rest) :
    lex (renderMembers layout members ++ rest) = memberLexemes members ++ lex rest := by
  match members with
  | [] => rw [renderMembers, memberLexemes, List.nil_append, List.nil_append]
  | (key, value) :: members =>
    rw [renderMembers, memberLexemes]
    simp only [List.append_assoc, List.cons_append]
    refine (lex_lexeme (by decide) _).trans (congrArg _ ?_)
    change lex (layout.lineBreak ++ _) = _
    rw [lex_lineBreak, lex_quote, lex_colon,
      lex_render value layout _ h.1 (endsNumber_members _ members hrest),
      lex_renderMembers members layout rest h.2 hrest]

end

end QuotePress.Json
