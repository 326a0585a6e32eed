import QuotePress.Proofs.Template.Leftmost

/-! # The scan finds the leftmost directives

A double closing brace that has been looked up is the nearest one for as long as it lies ahead, so
remembering it changes nothing. Between double opening braces nothing starts, and behind the last
double closing brace nothing ends. -/
namespace QuotePress

namespace Text

theorem splitAtPair_cons {c a : Char} {cs before after : List Char}
    (h : splitAtPair c (a :: cs) = some (before, after)) :
    (before = [] ∧ a = c ∧ cs = c :: after) ∨
      ∃ rest, before = a :: rest ∧ ¬ [c, c] <+: a :: cs ∧
        splitAtPair c cs = some (rest, after) := by
  cases cs with
  | nil => simp [splitAtPair] at h
  | cons b cs =>
    rw [splitAtPair] at h
    split at h
    · rename_i hpair
      obtain ⟨rfl, rfl⟩ := hpair
      cases h
      exact Or.inl ⟨rfl, rfl, rfl⟩
    · rename_i hpair
      obtain ⟨⟨rest, tail⟩, hrest, heq⟩ := Option.map_eq_some_iff.1 h
      cases heq
      refine Or.inr ⟨rest, rfl, ?_, hrest⟩
      rintro ⟨tail, htail⟩
      cases htail
      exact hpair ⟨rfl, rfl⟩

theorem splitAtPair_other {c a : Char} (h : a ≠ c) (cs : List Char) :
    splitAtPair c (a :: cs) = (splitAtPair c cs).map fun p => (a :: p.1, p.2) := by
  cases cs with
  | nil => rfl
  | cons b cs => rw [splitAtPair, if_neg (fun hpair => h hpair.1)]

theorem splitAtPair_first {c : Char} {before : List Char} (h : c ∉ before) (after : List Char) :
    splitAtPair c (before ++ c :: c :: after) = some (before, after) := by
  induction before with
  | nil => simp [splitAtPair]
  | cons a before ih =>
    have ha : a ≠ c := by
      rintro rfl
      exact h (by simp)
    have hrest := ih (fun hmem => h (List.mem_cons_of_mem a hmem))
    rw [List.cons_append, splitAtPair_other ha, hrest]
    rfl

theorem splitAtPair_isSome {c : Char} {cs : List Char} (h : [c, c] <:+: cs) :
    ∃ before after, splitAtPair c cs = some (before, after) := by
  induction cs with
  | nil => simp at h
  | cons a cs ih =>
    cases cs with
    | nil =>
      have hlong := h.length_le
      simp at hlong
    | cons b cs =>
      rw [splitAtPair]
      split
      · exact ⟨[], cs, rfl⟩
      · rename_i hpair
        rcases List.infix_cons_iff.1 h with hfront | hrest
        · obtain ⟨tail, htail⟩ := hfront
          cases htail
          exact absurd ⟨rfl, rfl⟩ hpair
        · obtain ⟨before, after, hsplit⟩ := ih hrest
          exact ⟨a :: before, after, by rw [hsplit]; rfl⟩

theorem splitAtPair_none_inside {c : Char} {cs before after a b : List Char}
    (h : splitAtPair c cs = some (before, after)) (hbefore : before = a ++ b) (hb : b ≠ []) :
    ¬ [c, c] <+: b ++ c :: c :: after := by
  induction cs generalizing before a with
  | nil => simp [splitAtPair] at h
  | cons d cs ih =>
    have hwhole := append_of_splitAtPair h
    rcases splitAtPair_cons h with ⟨rfl, -, -⟩ | ⟨rest, rfl, hfront, hrest⟩
    · exact absurd (List.append_eq_nil_iff.1 hbefore.symm).2 hb
    · cases a with
      | nil =>
        rw [List.nil_append] at hbefore
        rwa [← hbefore, ← hwhole]
      | cons e a =>
        injection hbefore with _ htail
        exact ih hrest htail

/-- A pair that lies behind a stretch of the text is the first of what follows the stretch. -/
theorem splitAtPair_behind {c : Char} {front cs before after : List Char}
    (h : splitAtPair c (front ++ cs) = some (before, after))
    (hlong : byteCount front ≤ byteCount before) :
    ∃ rest, before = front ++ rest ∧ splitAtPair c cs = some (rest, after) := by
  induction front generalizing before with
  | nil => exact ⟨before, rfl, h⟩
  | cons a front ih =>
    have hpos := a.utf8Size_pos
    rcases splitAtPair_cons h with ⟨rfl, -, -⟩ | ⟨rest, rfl, -, hrest⟩
    · simp only [byteCount] at hlong
      omega
    · simp only [byteCount] at hlong
      obtain ⟨tail, rfl, htail⟩ := ih hrest (by omega)
      exact ⟨tail, rfl, htail⟩

theorem byteCount_eq_sum (cs : List Char) : byteCount cs = (cs.map Char.utf8Size).sum := by
  induction cs with
  | nil => rfl
  | cons c cs ih => rw [byteCount, ih, List.map_cons, List.sum_cons]

end Text

open Token (openBrace closeBrace Cursor closeOffset?)
open Text (splitAtPair byteCount cutBytes)

def Token.units {α : Type} (f : String → List α) : Token → Lexeme α
  | .text run => .text (f run)
  | .directive meaning raw offset => .directive meaning (f raw) offset

theorem units_ofRun (run : List Char) :
    (Token.ofRun run).map (Token.units String.toList) = Lexeme.ofRun run := by
  cases run with
  | nil => rfl
  | cons c run => simp [Token.ofRun, Lexeme.ofRun, Token.units]

theorem directive_braces {cs : List Char} {meaning : Directive} {n : Nat}
    (h : directiveAt? cs = some (meaning, n)) :
    [openBrace, openBrace] <+: cs ∧ [closeBrace, closeBrace] <:+: cs := by
  obtain ⟨raw, ⟨inner, -, rfl⟩, ⟨tail, rfl⟩, -⟩ := directiveAt_iff.1 h
  refine ⟨⟨_, rfl⟩, ⟨openBrace :: openBrace :: inner, tail, by simp⟩⟩

theorem directiveAt_none {cs : List Char}
    (h : ¬ ([openBrace, openBrace] <+: cs ∧ [closeBrace, closeBrace] <:+: cs)) :
    directiveAt? cs = none := by
  apply Option.eq_none_iff_forall_ne_some.2
  rintro ⟨meaning, n⟩ hdirective
  exact h (directive_braces hdirective)

/-- Behind double opening braces, a directive starts if what stands before the nearest double
closing brace spells one. -/
theorem directiveAt_opened {after : List Char} {meaning : Directive} {n : Nat} :
    directiveAt? (openBrace :: openBrace :: after) = some (meaning, n) ↔
      ∃ inner tail, splitAtPair closeBrace after = some (inner, tail) ∧
        Directive.ofInner? inner = some meaning ∧ n = inner.length + 4 := by
  rw [directiveAt_iff]
  constructor
  · rintro ⟨raw, ⟨inner, hinner, rfl⟩, ⟨tail, htail⟩, rfl⟩
    have hafter : after = inner ++ closeBrace :: closeBrace :: tail := by
      simpa using htail.symm
    refine ⟨inner, tail, ?_, ofInner_iff.2 hinner, by simp⟩
    rw [hafter]
    exact Text.splitAtPair_first (closeBrace_not_mem_spelling hinner) tail
  · rintro ⟨inner, tail, hsplit, hinner, rfl⟩
    refine ⟨_, ⟨inner, ofInner_iff.1 hinner, rfl⟩, ⟨tail, ?_⟩, by simp⟩
    rw [Text.append_of_splitAtPair hsplit]
    simp

def Token.Cursor.Remembers (c : Cursor) : Prop :=
  ∀ close, c.close = some close → close < c.offset ∨ ∃ before after,
    splitAtPair closeBrace c.rest = some (before, after) ∧ close = c.offset + byteCount before

theorem remembered_nearest {c : Cursor} (h : c.Remembers) {before after : List Char}
    (hsplit : splitAtPair openBrace c.rest = some (before, after)) :
    closeOffset? c.close (c.offset + byteCount before + 2) after =
      (splitAtPair closeBrace after).map fun p =>
        c.offset + byteCount before + 2 + byteCount p.1 := by
  cases hclose : c.close with
  | none => rfl
  | some close =>
    simp only [closeOffset?]
    split
    · rename_i hahead
      rcases h close hclose with hbehind | ⟨front, tail, hfront, rfl⟩
      · omega
      have hrest : c.rest = (before ++ [openBrace, openBrace]) ++ after := by
        rw [Text.append_of_splitAtPair hsplit]
        simp
      have hsize : byteCount (before ++ [openBrace, openBrace]) = byteCount before + 2 := by
        rw [Text.byteCount_append]
        rfl
      rw [hrest] at hfront
      obtain ⟨inner, rfl, hinner⟩ := Text.splitAtPair_behind hfront (by omega)
      rw [hinner, Option.map_some, Text.byteCount_append, hsize]
      simp only [Option.some.injEq]
      omega
    · rfl

def Token.Cursor.reading (c : Cursor) : List (Lexeme Char) :=
  leftmost id Char.utf8Size c.offset c.run.reverse c.rest

theorem reading_opened {c : Cursor} {before after : List Char}
    (hsplit : splitAtPair openBrace c.rest = some (before, after)) :
    c.reading = leftmost id Char.utf8Size (c.offset + byteCount before) (c.run.reverse ++ before)
      (openBrace :: openBrace :: after) := by
  rw [Cursor.reading, Text.append_of_splitAtPair hsplit, leftmost_run, Text.byteCount_eq_sum]
  intro a b hab hb
  rw [List.map_id]
  apply directiveAt_none
  rintro ⟨hopen, -⟩
  exact Text.splitAtPair_none_inside hsplit hab hb hopen

theorem leftmost_plain {cs : List Char}
    (h : ¬ [openBrace, openBrace] <:+: cs ∨ ¬ [closeBrace, closeBrace] <:+: cs) (offset : Nat)
    (run : List Char) : leftmost id Char.utf8Size offset run cs = Lexeme.ofRun (run ++ cs) := by
  have hplain : ∀ a b, cs = a ++ b → b ≠ [] → directiveAt? ((b ++ []).map id) = none := by
    intro a b hab hb
    rw [List.append_nil, List.map_id]
    apply directiveAt_none
    rintro ⟨hopen, hclose⟩
    have hsuffix : b <:+: cs := ⟨a, [], by simp [hab]⟩
    rcases h with h | h
    · exact h (hopen.isInfix.trans hsuffix)
    · exact h (hclose.trans hsuffix)
  rw [← List.append_nil cs, leftmost_run hplain, leftmost_nil, List.append_nil]

theorem no_pair_of_split {c : Char} {cs : List Char} (h : splitAtPair c cs = none) :
    ¬ [c, c] <:+: cs := by
  intro hpair
  obtain ⟨before, after, hsplit⟩ := Text.splitAtPair_isSome hpair
  rw [h] at hsplit
  cases hsplit

theorem no_close_opened {after : List Char} (h : ¬ [closeBrace, closeBrace] <:+: after) :
    ¬ [closeBrace, closeBrace] <:+: openBrace :: openBrace :: after := by
  have hne : closeBrace ≠ openBrace := by decide
  simp [List.infix_cons_iff, List.cons_prefix_cons, hne, h]

/-- A scan stops where no double opening braces are left that are closed again. -/
theorem step_none_cases {c : Cursor} (h : c.Remembers) (hstep : c.step = none) :
    splitAtPair openBrace c.rest = none ∨
      ∃ before after, splitAtPair openBrace c.rest = some (before, after) ∧
        splitAtPair closeBrace after = none := by
  cases hsplit : splitAtPair openBrace c.rest with
  | none => exact Or.inl rfl
  | some parts =>
    obtain ⟨before, after⟩ := parts
    refine Or.inr ⟨before, after, rfl, ?_⟩
    have hnearest := remembered_nearest h hsplit
    cases hclose : splitAtPair closeBrace after with
    | none => rfl
    | some p =>
      rw [hclose, Option.map_some] at hnearest
      simp only [Cursor.step, hsplit, hnearest, Option.bind_eq_bind, Option.bind_some] at hstep
      split at hstep <;> cases hstep

/-- Otherwise it moves past the directive in the next double braces, or past the first brace. -/
theorem step_some_cases {c d : Cursor} {tokens : List Token} (h : c.Remembers)
    (hstep : c.step = some (tokens, d)) :
    ∃ before after inner tail, splitAtPair openBrace c.rest = some (before, after) ∧
      splitAtPair closeBrace after = some (inner, tail) ∧
      ((∃ meaning, Directive.ofInner? inner = some meaning ∧
          tokens = Token.ofRun (c.run.reverse ++ before) ++
            [.directive meaning
              (String.ofList (openBrace :: openBrace :: inner ++ [closeBrace, closeBrace]))
              (c.offset + byteCount before)] ∧
          d = ⟨[], c.offset + byteCount before + 2 + byteCount inner + 2, tail,
            some (c.offset + byteCount before + 2 + byteCount inner)⟩) ∨
        Directive.ofInner? inner = none ∧ tokens = [] ∧
          d = ⟨openBrace :: (before.reverse ++ c.run), c.offset + byteCount before + 1,
            openBrace :: after, some (c.offset + byteCount before + 2 + byteCount inner)⟩) := by
  simp only [Cursor.step, Option.bind_eq_bind, Option.bind_eq_some_iff] at hstep
  obtain ⟨⟨before, after⟩, hsplit, close, hclose, hstep⟩ := hstep
  dsimp only at hclose hstep
  rw [remembered_nearest h hsplit] at hclose
  obtain ⟨⟨inner, tail⟩, hinner, rfl⟩ := Option.map_eq_some_iff.1 hclose
  have hcut : cutBytes (c.offset + byteCount before + 2 + byteCount inner -
      (c.offset + byteCount before + 2)) after = (inner, closeBrace :: closeBrace :: tail) := by
    rw [Nat.add_sub_cancel_left]
    conv => lhs; rw [Text.append_of_splitAtPair hinner]
    exact Text.cutBytes_byteCount inner _
  rw [hcut] at hstep
  refine ⟨before, after, inner, tail, hsplit, hinner, ?_⟩
  cases hmeaning : Directive.ofInner? inner with
  | some meaning =>
    rw [hmeaning] at hstep
    cases hstep
    exact Or.inl ⟨meaning, rfl, rfl, rfl⟩
  | none =>
    rw [hmeaning] at hstep
    cases hstep
    exact Or.inr ⟨rfl, rfl, rfl⟩

theorem step_stops {c : Cursor} (h : c.Remembers) (hstep : c.step = none) :
    c.reading = Lexeme.ofRun (c.run.reverse ++ c.rest) := by
  rcases step_none_cases h hstep with hsplit | ⟨before, after, hsplit, hnone⟩
  · exact leftmost_plain (Or.inl (no_pair_of_split hsplit)) _ _
  · rw [reading_opened hsplit,
      leftmost_plain (Or.inr (no_close_opened (no_pair_of_split hnone))), List.append_assoc,
      Text.append_of_splitAtPair hsplit]

theorem byteCount_braces (inner : List Char) :
    byteCount (openBrace :: openBrace :: (inner ++ [closeBrace, closeBrace])) =
      2 + byteCount inner + 2 := by
  have hopen : openBrace.utf8Size = 1 := rfl
  have hclose : closeBrace.utf8Size = 1 := rfl
  simp only [byteCount, Text.byteCount_append, hopen, hclose]
  omega

theorem leftmost_taken {inner tail after : List Char} {meaning : Directive}
    (hinner : splitAtPair closeBrace after = some (inner, tail))
    (hmeaning : Directive.ofInner? inner = some meaning) (offset : Nat) (run : List Char) :
    leftmost id Char.utf8Size offset run (openBrace :: openBrace :: after) =
      Lexeme.ofRun run ++
        .directive meaning (openBrace :: openBrace :: (inner ++ [closeBrace, closeBrace])) offset ::
          leftmost id Char.utf8Size (offset + 2 + byteCount inner + 2) [] tail := by
  have hdirective : directiveAt? ((openBrace :: openBrace :: after).map id) =
      some (meaning, inner.length + 4) := by
    rw [List.map_id]
    exact directiveAt_opened.2 ⟨inner, tail, hinner, hmeaning, rfl⟩
  have hraw : openBrace :: openBrace :: after =
      (openBrace :: openBrace :: (inner ++ [closeBrace, closeBrace])) ++ tail := by
    rw [Text.append_of_splitAtPair hinner]
    simp
  have hlength : inner.length + 4 =
      (openBrace :: openBrace :: (inner ++ [closeBrace, closeBrace])).length := by
    simp
  have hsize : ((openBrace :: openBrace :: (inner ++ [closeBrace, closeBrace])).map
      Char.utf8Size).sum = 2 + byteCount inner + 2 := by
    rw [← Text.byteCount_eq_sum, byteCount_braces]
  rw [leftmost_directive hdirective, hlength, hraw, List.take_left, List.drop_left, hsize]
  simp only [Nat.add_assoc]

theorem leftmost_passed {inner tail after : List Char}
    (hinner : splitAtPair closeBrace after = some (inner, tail))
    (hmeaning : Directive.ofInner? inner = none) (offset : Nat) (run : List Char) :
    leftmost id Char.utf8Size offset run (openBrace :: openBrace :: after) =
      leftmost id Char.utf8Size (offset + 1) (run ++ [openBrace]) (openBrace :: after) := by
  have hplain : directiveAt? ((openBrace :: openBrace :: after).map id) = none := by
    rw [List.map_id]
    apply Option.eq_none_iff_forall_ne_some.2
    rintro ⟨meaning, n⟩ hdirective
    obtain ⟨word, rest, hword, hspelled, -⟩ := directiveAt_opened.1 hdirective
    rw [hinner] at hword
    cases hword
    rw [hmeaning] at hspelled
    cases hspelled
  rw [leftmost_unit hplain]
  rfl

/-- A move of the scan reads what the leftmost reading reads, and remembers the nearest close. -/
theorem step_reads {c d : Cursor} {tokens : List Token} (h : c.Remembers)
    (hstep : c.step = some (tokens, d)) :
    d.Remembers ∧ c.reading = tokens.map (Token.units String.toList) ++ d.reading := by
  obtain ⟨before, after, inner, tail, hsplit, hinner, hmove⟩ := step_some_cases h hstep
  rw [reading_opened hsplit]
  rcases hmove with ⟨meaning, hmeaning, rfl, rfl⟩ | ⟨hmeaning, rfl, rfl⟩
  · constructor
    · intro close hclose
      cases hclose
      exact Or.inl (Nat.lt_add_of_pos_right (by decide))
    · rw [leftmost_taken hinner hmeaning, List.map_append, units_ofRun, List.append_assoc]
      simp [Cursor.reading, Token.units]
  · constructor
    · intro close hclose
      cases hclose
      refine Or.inr ⟨openBrace :: inner, tail, ?_, ?_⟩
      · rw [Text.splitAtPair_other (by decide), hinner]
        rfl
      · simp only [byteCount, show openBrace.utf8Size = 1 from rfl]
        omega
    · rw [leftmost_passed hinner hmeaning]
      simp [Cursor.reading]

/-- What a scan has still to find is what the leftmost reading finds. -/
theorem tokens_reading {c : Cursor} (h : c.Remembers) :
    c.tokens.map (Token.units String.toList) = c.reading := by
  fun_induction Cursor.tokens c with
  | case1 c hstep => rw [step_stops h hstep, units_ofRun]
  | case2 c tokens d hstep hshort ih =>
    obtain ⟨hd, hreading⟩ := step_reads h hstep
    rw [List.map_append, ih hd, hreading]

theorem scan_reading (source : String) : (Token.scan source).map (Token.units String.toList) =
    leftmost id Char.utf8Size 0 [] source.toList := by
  rw [Token.scan, tokens_reading]
  · rfl
  · intro close hclose
    cases hclose

end QuotePress
