import QuotePress.Proofs.Template.Reading

/-! # Templates put together from tokens

No directive reaches into another. So a text put together from directives as written and from texts
without a directive is scanned into these tokens again, unless two of the texts meet. -/
namespace QuotePress

open Token (scan openBrace closeBrace)

def Plain (cs : List Char) : Prop :=
  ∀ meaning raw, Directive.Written meaning raw → ¬ raw <:+: cs

theorem plain_iff {cs : List Char} : Plain cs ↔ ∀ a b, cs = a ++ b → directiveAt? b = none := by
  constructor
  · rintro h a b rfl
    apply Option.eq_none_iff_forall_ne_some.2
    rintro ⟨meaning, n⟩ hsome
    obtain ⟨raw, hraw, ⟨tail, htail⟩, -⟩ := directiveAt_iff.1 hsome
    exact h meaning raw hraw ⟨a, tail, by rw [List.append_assoc, htail]⟩
  · rintro h meaning raw hraw ⟨a, tail, rfl⟩
    have hnone := h a (raw ++ tail) (List.append_assoc ..)
    rw [directiveAt_iff.2 ⟨raw, hraw, List.prefix_append .., rfl⟩] at hnone
    cases hnone

theorem written_opened {meaning : Directive} {raw : List Char} (h : meaning.Written raw) :
    ∃ tail, raw = openBrace :: openBrace :: tail ∧ tail ≠ [] ∧ openBrace ∉ tail := by
  obtain ⟨inner, hinner, rfl⟩ := h
  refine ⟨_, rfl, by simp, ?_⟩
  intro hmem
  rcases List.mem_append.1 hmem with hmem | hmem
  · have hchar := spelling_char hinner openBrace hmem
    revert hchar
    decide
  · revert hmem
    decide

/-- A directive that starts before double opening braces ends before them. -/
theorem written_ends {meaning : Directive} {raw front after : List Char} (h : meaning.Written raw)
    (hfront : front ≠ []) (hraw : raw <+: front ++ openBrace :: openBrace :: after) :
    raw <+: front := by
  obtain ⟨tail, rfl, htail, hbrace⟩ := written_opened h
  obtain ⟨first, front, rfl⟩ := List.exists_cons_of_ne_nil hfront
  rw [List.cons_append, List.cons_prefix_cons] at hraw
  obtain ⟨rfl, hraw⟩ := hraw
  cases front with
  | nil =>
    obtain ⟨c, tail, rfl⟩ := List.exists_cons_of_ne_nil htail
    rw [List.nil_append, List.cons_prefix_cons, List.cons_prefix_cons] at hraw
    exact absurd (hraw.2.1 ▸ List.mem_cons_self) hbrace
  | cons second front =>
    rw [List.cons_append, List.cons_prefix_cons] at hraw
    obtain ⟨rfl, hraw⟩ := hraw
    have hnext : front ++ [openBrace] <+: front ++ openBrace :: openBrace :: after :=
      (List.prefix_append_right_inj front).2 ⟨_, rfl⟩
    rcases List.prefix_or_prefix_of_prefix hraw hnext with hshort | hlong
    · rcases List.prefix_concat_iff.1 hshort with rfl | hshort
      · exact absurd (by simp) hbrace
      · exact List.cons_prefix_cons.2 ⟨rfl, List.cons_prefix_cons.2 ⟨rfl, hshort⟩⟩
    · exact absurd (hlong.subset (by simp)) hbrace

theorem directiveAt_before {front after : List Char} (h : directiveAt? front = none)
    (hfront : front ≠ []) : directiveAt? (front ++ openBrace :: openBrace :: after) = none := by
  apply Option.eq_none_iff_forall_ne_some.2
  rintro ⟨meaning, n⟩ hsome
  obtain ⟨raw, hraw, hprefix, -⟩ := directiveAt_iff.1 hsome
  rw [directiveAt_iff.2 ⟨raw, hraw, written_ends hraw hfront hprefix, rfl⟩] at h
  cases h

theorem directiveAt_shorter {front after : List Char} (h : directiveAt? (front ++ after) = none) :
    directiveAt? front = none := by
  apply Option.eq_none_iff_forall_ne_some.2
  rintro ⟨meaning, n⟩ hsome
  obtain ⟨raw, hraw, hprefix, -⟩ := directiveAt_iff.1 hsome
  rw [directiveAt_iff.2 ⟨raw, hraw, hprefix.trans (List.prefix_append ..), rfl⟩] at h
  cases h

theorem text_leftmost_plain {size : Char → Nat} {offset : Nat} {run cs piece : List Char}
    (hrun : ∀ a b, run = a ++ b → b ≠ [] → directiveAt? (b ++ cs) = none)
    (h : .text piece ∈ leftmost id size offset run cs) : Plain piece := by
  have hwhole : ∀ {run cs : List Char},
      (∀ a b, run = a ++ b → b ≠ [] → directiveAt? (b ++ cs) = none) →
        .text piece ∈ Lexeme.ofRun run → Plain piece := by
    intro run cs hrun hmem
    cases run with
    | nil => cases hmem
    | cons c run =>
      cases List.mem_singleton.1 hmem
      refine plain_iff.2 fun a b hab => ?_
      by_cases hb : b = []
      · subst hb
        rfl
      · exact directiveAt_shorter (hrun a b hab hb)
  fun_induction leftmost id size offset run cs with
  | case1 offset run cs meaning n hstart hshort ih =>
    rcases List.mem_append.1 h with hmem | hrest
    · exact hwhole hrun hmem
    · rcases List.mem_cons.1 hrest with heq | hrest
      · cases heq
      · refine ih ?_ hrest
        intro a b hab hb
        exact absurd (List.append_eq_nil_iff.1 hab.symm).2 hb
  | case2 offset run hstart => exact hwhole hrun h
  | case3 offset run c rest hstart ih =>
    refine ih ?_ h
    intro a b hab hb
    rcases List.eq_nil_or_concat b with rfl | ⟨front, last, rfl⟩
    · exact absurd rfl hb
    rw [List.concat_eq_append, ← List.append_assoc] at hab
    obtain ⟨rfl, hlast⟩ := List.append_inj' hab rfl
    cases hlast
    rw [List.concat_eq_append, List.append_assoc, List.singleton_append]
    by_cases hfront : front = []
    · rw [hfront, List.nil_append, ← List.map_id (c :: rest)]
      exact hstart
    · exact hrun a front rfl hfront

namespace Token

def Sound : Token → Prop
  | .text run => run ≠ "" ∧ Plain run.toList
  | .directive meaning raw _ => meaning.Written raw.toList

/-- Tokens that the scan of a text can give, as far as offsets do not count. -/
structure Settled (tokens : List Token) : Prop where
  sound : ∀ t ∈ tokens, t.Sound
  apart : Apart isText tokens

def joined (tokens : List Token) : String := String.join (tokens.map raw)

def placed (start : Nat) : List Token → List Token
  | [] => []
  | .text run :: rest => .text run :: placed (start + run.utf8ByteSize) rest
  | .directive meaning raw _ :: rest =>
    .directive meaning raw start :: placed (start + raw.utf8ByteSize) rest

end Token

open Token (Settled joined placed)

theorem Token.settled_scan (source : String) : Settled (scan source) := by
  refine ⟨?_, scan_apart source⟩
  intro t ht
  cases t with
  | text run =>
    refine ⟨scan_text_ne_empty ht, ?_⟩
    have hmem : Lexeme.text run.toList ∈ (scan source).map (Token.units String.toList) :=
      List.mem_map.2 ⟨.text run, ht, rfl⟩
    rw [scan_reading] at hmem
    refine text_leftmost_plain ?_ hmem
    intro a b hab hb
    exact absurd (List.append_eq_nil_iff.1 hab.symm).2 hb
  | directive meaning raw offset => exact scan_written ht

namespace Token

theorem joined_cons (t : Token) (tokens : List Token) :
    joined (t :: tokens) = t.raw ++ joined tokens := by
  rw [joined, List.map_cons, String.join_cons, joined]

theorem joined_append (tokens after : List Token) :
    joined (tokens ++ after) = joined tokens ++ joined after := by
  rw [joined, List.map_append, String.join_append, joined, joined]

theorem joined_singleton (t : Token) : joined [t] = t.raw := by
  rw [joined_cons, joined, List.map_nil, String.join_nil, String.append_empty]

theorem joined_scan (source : String) : joined (scan source) = source := scan_lossless source

theorem Settled.tail {t : Token} {tokens : List Token} (h : Settled (t :: tokens)) :
    Settled tokens :=
  ⟨fun _ hmem => h.sound _ (List.mem_cons_of_mem _ hmem), h.apart.tail⟩

/-- Behind a text there is a directive, or nothing. -/
theorem Settled.behind_text {run : String} {tokens : List Token}
    (h : Settled (.text run :: tokens)) : (joined tokens).toList = [] ∨
      ∃ meaning raw tail, Directive.Written meaning raw ∧ (joined tokens).toList = raw ++ tail := by
  cases tokens with
  | nil => exact Or.inl rfl
  | cons t tokens =>
    cases t with
    | text next => exact absurd ⟨rfl, rfl⟩ ((List.isChain_cons.1 h.apart).1 _ rfl)
    | directive meaning raw offset =>
      refine Or.inr ⟨meaning, raw.toList, (joined tokens).toList, ?_, ?_⟩
      · exact h.tail.sound _ List.mem_cons_self
      · rw [joined_cons, String.toList_append, Token.raw]

theorem Settled.plain_text {run : String} {tokens : List Token}
    (h : Settled (.text run :: tokens)) {a b : List Char} (hab : run.toList = a ++ b)
    (hb : b ≠ []) : directiveAt? (b ++ (joined tokens).toList) = none := by
  have hplain := plain_iff.1 (h.sound _ List.mem_cons_self).2 a b hab
  rcases h.behind_text with hnil | ⟨meaning, raw, tail, hraw, hjoined⟩
  · rwa [hnil, List.append_nil]
  · obtain ⟨braced, rfl, -⟩ := written_opened hraw
    rw [hjoined]
    exact directiveAt_before hplain hb

end Token

theorem directiveAt_written {meaning : Directive} {raw : List Char} (h : meaning.Written raw)
    (tail : List Char) : directiveAt? ((raw ++ tail).map id) = some (meaning, raw.length) := by
  rw [List.map_id]
  exact directiveAt_iff.2 ⟨raw, h, List.prefix_append .., rfl⟩

theorem leftmost_written {meaning : Directive} {raw : List Char} (h : meaning.Written raw)
    (offset : Nat) (run tail : List Char) :
    leftmost id Char.utf8Size offset run (raw ++ tail) =
      Lexeme.ofRun run ++ .directive meaning raw offset ::
        leftmost id Char.utf8Size (offset + (raw.map Char.utf8Size).sum) [] tail := by
  rw [leftmost_directive (directiveAt_written h tail), List.take_left, List.drop_left]

/-- Settled tokens are what their text is read as. -/
theorem leftmost_joined {tokens : List Token} (h : Settled tokens) (offset : Nat) :
    leftmost id Char.utf8Size offset [] (joined tokens).toList =
      (placed offset tokens).map (Token.units String.toList) := by
  induction tokens generalizing offset with
  | nil => exact leftmost_nil ..
  | cons t tokens ih =>
    have hrest := ih h.tail
    rw [Token.joined_cons, String.toList_append]
    cases t with
    | text run =>
      have hrun : Lexeme.ofRun run.toList = [.text run.toList] := by
        have hne : run.toList ≠ [] := by simpa using (h.sound _ List.mem_cons_self).1
        simp [Lexeme.ofRun, hne]
      have hflush : leftmost id Char.utf8Size (offset + run.utf8ByteSize) run.toList
          (joined tokens).toList = .text run.toList ::
            leftmost id Char.utf8Size (offset + run.utf8ByteSize) [] (joined tokens).toList := by
        rcases h.behind_text with hnil | ⟨meaning, raw, tail, hraw, hjoined⟩
        · rw [hnil, leftmost_nil, leftmost_nil, hrun]
          rfl
        · rw [hjoined, leftmost_written hraw, leftmost_written hraw, hrun]
          rfl
      have hplain : ∀ a b, run.toList = a ++ b → b ≠ [] →
          directiveAt? ((b ++ (joined tokens).toList).map id) = none := by
        intro a b hab hb
        rw [List.map_id]
        exact h.plain_text hab hb
      rw [Token.raw, leftmost_run hplain, List.nil_append, ← utf8ByteSize_eq_sum, hflush, hrest]
      rfl
    | directive meaning raw start =>
      rw [Token.raw, leftmost_written (h.sound _ List.mem_cons_self), ← utf8ByteSize_eq_sum, hrest]
      rfl

theorem Token.units_injective : Function.Injective (Token.units String.toList) := by
  intro s t hst
  cases s <;> cases t <;> simp_all [Token.units, String.toList_inj]

/-- A text put together from settled tokens is scanned into them. -/
theorem scan_joined {tokens : List Token} (h : Settled tokens) :
    scan (joined tokens) = placed 0 tokens := by
  apply Token.units_injective.list_map
  rw [scan_reading, leftmost_joined h]

namespace Token

def unplaced : Token → Token
  | .text run => .text run
  | .directive meaning raw _ => .directive meaning raw 0

theorem unplaced_placed (start : Nat) (tokens : List Token) :
    (placed start tokens).map unplaced = tokens.map unplaced := by
  induction tokens generalizing start with
  | nil => rfl
  | cons t tokens ih => cases t <;> simp [placed, unplaced, ih]

end Token

/-- Where tokens stand changes findings only. -/
theorem Node.read_unplaced (awaited : Option BlockKind) (opened : List BlockKind)
    (tokens : List Token) : ∃ found, read awaited opened (tokens.map Token.unplaced) =
      { read awaited opened tokens with
        findings := found
        rest := (read awaited opened tokens).rest.map Token.unplaced } := by
  induction awaited, opened, tokens using read_induction with
  | nil awaited opened => exact ⟨[], by simp only [List.map_nil, read_nil]⟩
  | text awaited opened run rest ih =>
    obtain ⟨found, ih⟩ := ih
    exact ⟨found, by rw [List.map_cons, Token.unplaced, read_text, ih, read_text]⟩
  | substitution awaited opened name raw offset rest ih =>
    obtain ⟨found, ih⟩ := ih
    exact ⟨found, by rw [List.map_cons, Token.unplaced, read_variable, ih, read_variable]⟩
  | deep awaited opened kind name raw offset rest h ih =>
    obtain ⟨found, ih⟩ := ih
    exact ⟨_, by rw [List.map_cons, Token.unplaced, read_deep h, ih, read_deep h]⟩
  | closed awaited opened kind name raw offset rest h hclosed ih ihAfter =>
    obtain ⟨found, ih⟩ := ih
    obtain ⟨more, ihAfter⟩ := ihAfter
    refine ⟨found ++ more, ?_⟩
    rw [List.map_cons, Token.unplaced, read_closed h (by rw [ih, hclosed]), ih,
      read_closed h hclosed]
    dsimp only
    rw [ihAfter]
  | unclosed awaited opened kind name raw offset rest h hclosed ih ihAfter =>
    obtain ⟨found, ih⟩ := ih
    obtain ⟨more, ihAfter⟩ := ihAfter
    refine ⟨⟨.unclosed, 0, raw⟩ :: (found ++ more), ?_⟩
    rw [List.map_cons, Token.unplaced, read_unclosed h (by rw [ih, hclosed]), ih,
      read_unclosed h hclosed]
    dsimp only
    rw [ihAfter]
  | own opened kind raw offset rest =>
    exact ⟨[], by rw [List.map_cons, Token.unplaced, read_own_close, read_own_close]⟩
  | outer awaited opened kind raw offset rest h hmem =>
    exact ⟨[], by
      rw [List.map_cons, Token.unplaced, read_outer_close h hmem, read_outer_close h hmem]
      rfl⟩
  | unmatched awaited opened kind raw offset rest h hmem ih =>
    obtain ⟨found, ih⟩ := ih
    exact ⟨_, by
      rw [List.map_cons, Token.unplaced, read_unmatched_close h hmem, ih,
        read_unmatched_close h hmem]⟩

theorem Template.parse_joined {tokens : List Token} (h : Settled tokens) :
    (parse (joined tokens)).nodes = (Node.read none [] tokens).nodes := by
  obtain ⟨found, hplaced⟩ := Node.read_unplaced none [] (placed 0 tokens)
  obtain ⟨more, htokens⟩ := Node.read_unplaced none [] tokens
  rw [Token.unplaced_placed, htokens] at hplaced
  have hnodes := congrArg Node.Reading.nodes hplaced
  rw [← scan_joined h] at hnodes
  exact hnodes.symm

end QuotePress
