import QuotePress.Proofs.Text.Runs
import QuotePress.Template.Token
import Mathlib.Tactic.ByContra

/-! # How directives are spelled

The spellings of a directive as a grammar, and a matcher that reads one from the front of a text.
No spelling holds a closing brace, so the first double closing brace ends it. -/
namespace QuotePress

open Token (openBrace closeBrace)
open Text (splitAtPair)

inductive Directive.Spelling : Directive → List Char → Prop where
  | substitution {name : List Char} (hname : isName name = true) :
      Spelling (.variable (String.ofList name)) name
  | opening {kind : BlockKind} {gap name : List Char} (hne : gap ≠ [])
      (hgap : ∀ c ∈ gap, isGapChar c = true) (hname : isName name = true) :
      Spelling (.opening kind (String.ofList name)) ('#' :: (kind.keyword.toList ++ (gap ++ name)))
  | closing (kind : BlockKind) : Spelling (.closing kind) ('/' :: kind.keyword.toList)

def Directive.Written (meaning : Directive) (raw : List Char) : Prop :=
  ∃ inner, Directive.Spelling meaning inner ∧
    raw = openBrace :: openBrace :: (inner ++ [closeBrace, closeBrace])

def nameAt? (cs : List Char) : Option (String × List Char) :=
  let name := cs.takeWhile isNameChar
  if name = [] then none else some (String.ofList name, cs.dropWhile isNameChar)

def gapAt? (cs : List Char) : Option (List Char) :=
  if cs.takeWhile isGapChar = [] then none else some (cs.dropWhile isGapChar)

def variableAt? (cs : List Char) : Option (Directive × List Char) :=
  (nameAt? cs).map fun (name, rest) => (.variable name, rest)

def openingAt? (kind : BlockKind) (cs : List Char) : Option (Directive × List Char) := do
  let after ← dropWord? ('#' :: kind.keyword.toList) cs
  let (name, rest) ← nameAt? (← gapAt? after)
  return (.opening kind name, rest)

def closingAt? (kind : BlockKind) (cs : List Char) : Option (Directive × List Char) :=
  (dropWord? ('/' :: kind.keyword.toList) cs).map fun rest => (.closing kind, rest)

def spellingAt? (cs : List Char) : Option (Directive × List Char) :=
  (variableAt? cs).or <| (openingAt? .conditional cs).or <| (openingAt? .loop cs).or <|
    (closingAt? .conditional cs).or (closingAt? .loop cs)

def directiveAt? (cs : List Char) : Option (Directive × Nat) := do
  let inner ← dropWord? [openBrace, openBrace] cs
  let (meaning, after) ← spellingAt? inner
  let rest ← dropWord? [closeBrace, closeBrace] after
  return (meaning, cs.length - rest.length)

theorem dropWord_iff {word cs rest : List Char} :
    dropWord? word cs = some rest ↔ cs = word ++ rest := by
  induction word generalizing cs with
  | nil => simp [dropWord?, eq_comm]
  | cons w word ih =>
    cases cs with
    | nil => simp [dropWord?]
    | cons c cs =>
      by_cases h : w = c
      · subst h
        simp [dropWord?, ih]
      · simp [dropWord?, h, Ne.symm h]

theorem isName_iff {name : List Char} :
    isName name = true ↔ name ≠ [] ∧ ∀ c ∈ name, isNameChar c = true := by
  simp [isName]

theorem nameAt_of_name {name rest : List Char} (hname : isName name = true)
    (hrest : ∀ c, rest.head? = some c → isNameChar c = false) :
    nameAt? (name ++ rest) = some (String.ofList name, rest) := by
  obtain ⟨hne, hall⟩ := isName_iff.1 hname
  obtain ⟨htake, hdrop⟩ := span_exact hall hrest
  simp only [nameAt?, htake, hdrop, if_neg hne]

theorem name_of_nameAt {cs rest : List Char} {name : String} (h : nameAt? cs = some (name, rest)) :
    ∃ word, name = String.ofList word ∧ isName word = true ∧ cs = word ++ rest := by
  simp only [nameAt?] at h
  split at h
  · cases h
  · rename_i hne
    cases h
    refine ⟨_, rfl, isName_iff.2 ⟨hne, ?_⟩, (List.takeWhile_append_dropWhile ..).symm⟩
    exact List.all_eq_true.1 List.all_takeWhile

theorem gapAt_of_gap {gap rest : List Char} (hne : gap ≠ [])
    (hgap : ∀ c ∈ gap, isGapChar c = true)
    (hrest : ∀ c, rest.head? = some c → isGapChar c = false) :
    gapAt? (gap ++ rest) = some rest := by
  obtain ⟨htake, hdrop⟩ := span_exact hgap hrest
  simp only [gapAt?, htake, hdrop, if_neg hne]

theorem gap_of_gapAt {cs rest : List Char} (h : gapAt? cs = some rest) :
    ∃ gap, gap ≠ [] ∧ (∀ c ∈ gap, isGapChar c = true) ∧ cs = gap ++ rest := by
  simp only [gapAt?] at h
  split at h
  · cases h
  · rename_i hne
    cases h
    exact ⟨_, hne, List.all_eq_true.1 List.all_takeWhile, (List.takeWhile_append_dropWhile ..).symm⟩

theorem spelling_of_opening {kind : BlockKind} {cs rest : List Char} {meaning : Directive}
    (h : openingAt? kind cs = some (meaning, rest)) :
    ∃ inner, meaning.Spelling inner ∧ cs = inner ++ rest := by
  simp only [openingAt?, Option.bind_eq_bind, Option.bind_eq_some_iff] at h
  obtain ⟨after, hafter, text, htext, ⟨name, tail⟩, hname, h⟩ := h
  cases h
  obtain ⟨gap, hne, hgap, rfl⟩ := gap_of_gapAt htext
  obtain ⟨word, rfl, hword, rfl⟩ := name_of_nameAt hname
  refine ⟨_, .opening hne hgap hword, ?_⟩
  rw [dropWord_iff.1 hafter]
  simp

theorem spelling_of_closing {kind : BlockKind} {cs rest : List Char} {meaning : Directive}
    (h : closingAt? kind cs = some (meaning, rest)) :
    ∃ inner, meaning.Spelling inner ∧ cs = inner ++ rest := by
  obtain ⟨after, hafter, heq⟩ := Option.map_eq_some_iff.1 h
  cases heq
  exact ⟨_, .closing kind, dropWord_iff.1 hafter⟩

theorem spelling_of_spellingAt {cs rest : List Char} {meaning : Directive}
    (h : spellingAt? cs = some (meaning, rest)) :
    ∃ inner, meaning.Spelling inner ∧ cs = inner ++ rest := by
  simp only [spellingAt?, Option.or_eq_some_iff] at h
  rcases h with hvar | ⟨-, hopen | ⟨-, hopen | ⟨-, hclose | ⟨-, hclose⟩⟩⟩⟩
  · obtain ⟨⟨name, tail⟩, hname, heq⟩ := Option.map_eq_some_iff.1 hvar
    cases heq
    obtain ⟨word, rfl, hword, hsplit⟩ := name_of_nameAt hname
    exact ⟨word, .substitution hword, hsplit⟩
  · exact spelling_of_opening hopen
  · exact spelling_of_opening hopen
  · exact spelling_of_closing hclose
  · exact spelling_of_closing hclose

theorem variableAt_none {c : Char} (h : isNameChar c = false) (cs : List Char) :
    variableAt? (c :: cs) = none := by
  simp [variableAt?, nameAt?, h]

theorem keyword_char (kind : BlockKind) : ∀ c ∈ kind.keyword.toList, isNameChar c = true := by
  have hall : kind.keyword.toList.all isNameChar = true := by cases kind <;> decide
  exact List.all_eq_true.1 hall

theorem gapChar_not_nameChar {c : Char} (h : isNameChar c = true) : isGapChar c = false := by
  by_contra hgap
  have hc : isGapChar c = true := by simpa using hgap
  simp only [isGapChar, Bool.or_eq_true, decide_eq_true_eq] at hc
  rcases hc with rfl | rfl <;> revert h <;> decide

theorem openingAt_spelled (kind : BlockKind) {gap name rest : List Char} (hne : gap ≠ [])
    (hgap : ∀ c ∈ gap, isGapChar c = true) (hname : isName name = true)
    (hrest : ∀ c, rest.head? = some c → isNameChar c = false) :
    openingAt? kind ('#' :: (kind.keyword.toList ++ (gap ++ name)) ++ rest) =
      some (.opening kind (String.ofList name), rest) := by
  have hword : dropWord? ('#' :: kind.keyword.toList)
      ('#' :: (kind.keyword.toList ++ (gap ++ name)) ++ rest) = some (gap ++ (name ++ rest)) :=
    dropWord_iff.2 (by simp)
  have hstart : ∀ c, (name ++ rest).head? = some c → isGapChar c = false := by
    intro c hc
    obtain ⟨hnonempty, hall⟩ := isName_iff.1 hname
    obtain ⟨first, others, rfl⟩ := List.exists_cons_of_ne_nil hnonempty
    have hfirst : first = c := Option.some.inj hc
    exact gapChar_not_nameChar (hall c (by simp [hfirst]))
  simp only [openingAt?, hword, Option.bind_eq_bind, Option.bind_some, gapAt_of_gap hne hgap hstart,
    nameAt_of_name hname hrest, Option.pure_def]

/-- A spelling is read up to where no name can go on. -/
theorem spellingAt_of_spelling {inner rest : List Char} {meaning : Directive}
    (h : meaning.Spelling inner) (hrest : ∀ c, rest.head? = some c → isNameChar c = false) :
    spellingAt? (inner ++ rest) = some (meaning, rest) := by
  have hsharp : isNameChar '#' = false := by decide
  have hslash : isNameChar '/' = false := by decide
  cases h with
  | substitution hname =>
    simp only [spellingAt?, variableAt?, nameAt_of_name hname hrest, Option.map_some,
      Option.some_or]
  | @opening kind gap name hne hgap hname =>
    have hopen := openingAt_spelled kind hne hgap hname hrest
    rw [spellingAt?, List.cons_append, variableAt_none hsharp, Option.none_or]
    cases kind with
    | conditional => rw [← List.cons_append, hopen, Option.some_or]
    | loop =>
      rw [← List.cons_append, hopen]
      rfl
  | closing kind =>
    rw [spellingAt?, List.cons_append, variableAt_none hslash, Option.none_or]
    cases kind with
    | conditional => rfl
    | loop => rfl

theorem directiveAt_iff {cs : List Char} {meaning : Directive} {n : Nat} :
    directiveAt? cs = some (meaning, n) ↔
      ∃ raw, meaning.Written raw ∧ raw <+: cs ∧ n = raw.length := by
  have hbrace : isNameChar closeBrace = false := by decide
  simp only [directiveAt?, Option.bind_eq_bind, Option.bind_eq_some_iff, dropWord_iff]
  constructor
  · rintro ⟨front, hfront, ⟨spelled, after⟩, hspelled, rest, hrest, h⟩
    cases h
    obtain ⟨inner, hinner, hsplit⟩ := spelling_of_spellingAt hspelled
    dsimp only at hrest
    refine ⟨_, ⟨inner, hinner, rfl⟩, ⟨rest, ?_⟩, ?_⟩
    · simp [hfront, hsplit, hrest]
    · simp only [hfront, hsplit, hrest, List.length_append, List.length_cons, List.length_nil]
      omega
  · rintro ⟨raw, ⟨inner, hinner, rfl⟩, ⟨rest, rfl⟩, rfl⟩
    refine ⟨inner ++ closeBrace :: closeBrace :: rest, by simp,
      (meaning, closeBrace :: closeBrace :: rest),
      spellingAt_of_spelling hinner ?_, rest, by simp, ?_⟩
    · intro c hc
      cases hc
      exact hbrace
    · simp only [Option.pure_def, Option.some.injEq, Prod.mk.injEq, true_and, List.length_append,
        List.length_cons, List.length_nil]
      omega

theorem blockName_iff {cs name : List Char} : blockName? cs = some name ↔
    isName name = true ∧ ∃ gap, gap ≠ [] ∧ (∀ c ∈ gap, isGapChar c = true) ∧ cs = gap ++ name := by
  have hcut := List.takeWhile_append_dropWhile (p := isGapChar) (l := cs)
  have hlength := congrArg List.length hcut
  rw [List.length_append] at hlength
  simp only [blockName?]
  constructor
  · intro h
    split at h
    · rename_i hshort
      cases h
      refine ⟨hshort.2, _, ?_, List.all_eq_true.1 List.all_takeWhile, hcut.symm⟩
      intro hnil
      rw [hnil, List.length_nil] at hlength
      omega
    · cases h
  · rintro ⟨hname, gap, hne, hgap, rfl⟩
    obtain ⟨hnonempty, hall⟩ := isName_iff.1 hname
    have hstart : ∀ c, name.head? = some c → isGapChar c = false := by
      intro c hc
      exact gapChar_not_nameChar (hall c (List.mem_of_head? hc))
    have hlong := List.length_pos_iff.2 hne
    rw [(span_exact hgap hstart).2, if_pos]
    refine ⟨?_, hname⟩
    rw [List.length_append]
    omega

theorem opening_iff {kind : BlockKind} {cs : List Char} {meaning : Directive} :
    Directive.opening? kind cs = some meaning ↔ ∃ gap name, gap ≠ [] ∧
      (∀ c ∈ gap, isGapChar c = true) ∧ isName name = true ∧
        cs = kind.keyword.toList ++ (gap ++ name) ∧
          meaning = .opening kind (String.ofList name) := by
  simp only [Directive.opening?, Option.bind_eq_bind, Option.bind_eq_some_iff, dropWord_iff,
    blockName_iff, Option.pure_def, Option.some.injEq]
  constructor
  · rintro ⟨_, rfl, name, ⟨hname, gap, hne, hgap, rfl⟩, rfl⟩
    exact ⟨gap, name, hne, hgap, hname, rfl, rfl⟩
  · rintro ⟨gap, name, hne, hgap, hname, rfl, rfl⟩
    exact ⟨_, rfl, name, ⟨hname, gap, hne, hgap, rfl⟩, rfl⟩

theorem spelling_of_ofInner {inner : List Char} {meaning : Directive}
    (h : Directive.ofInner? inner = some meaning) : meaning.Spelling inner := by
  unfold Directive.ofInner? at h
  split at h
  · rename_i hname
    cases h
    exact .substitution hname
  · split at h
    · rcases Option.or_eq_some_iff.1 h with hopen | ⟨-, hopen⟩
      · obtain ⟨gap, name, hne, hgap, hname, rfl, rfl⟩ := opening_iff.1 hopen
        exact .opening hne hgap hname
      · obtain ⟨gap, name, hne, hgap, hname, rfl, rfl⟩ := opening_iff.1 hopen
        exact .opening hne hgap hname
    · split at h
      · rename_i hword
        cases h
        rw [hword]
        exact .closing .conditional
      · split at h
        · rename_i hword
          cases h
          rw [hword]
          exact .closing .loop
        · cases h
    · cases h

theorem ofInner_of_spelling {inner : List Char} {meaning : Directive}
    (h : meaning.Spelling inner) : Directive.ofInner? inner = some meaning := by
  cases h with
  | substitution hname =>
    unfold Directive.ofInner?
    rw [if_pos hname]
  | @opening kind gap name hne hgap hname =>
    have hopen : Directive.opening? kind (kind.keyword.toList ++ (gap ++ name)) =
        some (.opening kind (String.ofList name)) :=
      opening_iff.2 ⟨gap, name, hne, hgap, hname, rfl, rfl⟩
    have hsharp : ¬ isName ('#' :: (kind.keyword.toList ++ (gap ++ name))) = true := by
      rw [isName_iff]
      rintro ⟨-, hall⟩
      exact absurd (hall '#' (by simp)) (by decide)
    rw [Directive.ofInner?, if_neg hsharp]
    cases kind with
    | conditional => simp only [hopen, Option.some_or]
    | loop =>
      have hother : Directive.opening? .conditional
          (BlockKind.loop.keyword.toList ++ (gap ++ name)) = none := rfl
      simp only [hopen, hother, Option.none_or]
  | closing kind =>
    cases kind with
    | conditional => rfl
    | loop => rfl

theorem ofInner_iff {inner : List Char} {meaning : Directive} :
    Directive.ofInner? inner = some meaning ↔ meaning.Spelling inner :=
  ⟨spelling_of_ofInner, ofInner_of_spelling⟩

theorem spelling_char {inner : List Char} {meaning : Directive} (h : meaning.Spelling inner) :
    ∀ c ∈ inner, isNameChar c = true ∨ isGapChar c = true ∨ c = '#' ∨ c = '/' := by
  intro c hc
  cases h with
  | substitution hname => exact Or.inl ((isName_iff.1 hname).2 c hc)
  | @opening kind gap name hne hgap hname =>
    rcases List.mem_cons.1 hc with rfl | hc
    · exact Or.inr (Or.inr (Or.inl rfl))
    rcases List.mem_append.1 hc with hword | hc
    · exact Or.inl (keyword_char kind c hword)
    rcases List.mem_append.1 hc with hspace | hc
    · exact Or.inr (Or.inl (hgap c hspace))
    · exact Or.inl ((isName_iff.1 hname).2 c hc)
  | closing kind =>
    rcases List.mem_cons.1 hc with rfl | hword
    · exact Or.inr (Or.inr (Or.inr rfl))
    · exact Or.inl (keyword_char kind c hword)

theorem closeBrace_not_mem_spelling {inner : List Char} {meaning : Directive}
    (h : meaning.Spelling inner) : closeBrace ∉ inner := by
  intro hmem
  have hchar := spelling_char h closeBrace hmem
  revert hchar
  decide

end QuotePress
