import QuotePress.Proofs.Text.Spans
import Mathlib.Logic.Relation

/-! # A scan by byte offsets

The scan as work on offsets into one text, which it never takes apart: every look at the text is a
cut, and a cut that is not within the text is a fault. No cut of a scan is. -/
namespace QuotePress.Token

open Text (splitAtPair byteCount cut Cutting Span Takes FirstFrom)

/-- The offsets that a scan keeps: of the text run since the last token, of the place where it goes
on, and of the nearest double closing brace that has been looked up. -/
structure Marks where
  textStart : Nat
  cursor : Nat
  close : Option Nat
  deriving DecidableEq, Repr

def pairAt? (c : Char) (s : String) : Option Nat :=
  (splitAtPair c s.toList).map fun (before, _) => byteCount before

def textIn (source : String) (span : Span) : Cutting (List Token) := do
  if span.start < span.stop then return [.text (← cut source span)] else return []

namespace Marks

def start : Marks := ⟨0, 0, none⟩

/-- The nearest double closing brace from `inner` on. It is looked up only if the one that is
remembered lies before. -/
def close? (source : String) (m : Marks) (inner : Nat) : Cutting (Option Nat) := do
  match m.close.filter (inner ≤ ·) with
  | some close => return some close
  | none =>
    let ahead ← cut source ⟨inner, source.utf8ByteSize⟩
    return (pairAt? closeBrace ahead).map (inner + ·)

def braces? (source : String) (m : Marks) : Cutting (Option (Nat × Nat)) := do
  let ahead ← cut source ⟨m.cursor, source.utf8ByteSize⟩
  match pairAt? openBrace ahead with
  | none => return none
  | some found =>
    let close ← m.close? source (m.cursor + found + 2)
    return close.map (m.cursor + found, ·)

def turn (source : String) (m : Marks) : Cutting (List Token × Option Marks) := do
  match ← m.braces? source with
  | none => return (← textIn source ⟨m.textStart, source.utf8ByteSize⟩, none)
  | some (start, close) =>
    let raw ← cut source ⟨start, close + 2⟩
    let inner ← cut source ⟨start + 2, close⟩
    match Directive.ofInner? inner.toList with
    | some meaning =>
      let run ← textIn source ⟨m.textStart, start⟩
      return (run ++ [.directive meaning raw start], some ⟨close + 2, close + 2, some close⟩)
    | none => return ([], some ⟨m.textStart, start + 1, some close⟩)

def Moves (source : String) (m next : Marks) : Prop :=
  ∃ tokens spans, (m.turn source).run [] = .ok (tokens, some next) spans

/-- The scan from `m` takes so many turns, none with a fault, and finds the tokens. -/
inductive Scans (source : String) : Nat → Marks → List Token → Prop where
  | last {m : Marks} {tokens : List Token} {spans : List Span}
      (h : (m.turn source).run [] = .ok (tokens, none) spans) : Scans source 1 m tokens
  | next {m next : Marks} {tokens rest : List Token} {spans : List Span} {turns : Nat}
      (h : (m.turn source).run [] = .ok (tokens, some next) spans)
      (hrest : Scans source turns next rest) : Scans source (turns + 1) m (tokens ++ rest)

/-- What a turn does that goes on: it cuts between the first double opening brace ahead and the
first double closing brace behind that, also where it remembered the latter, and gets past the
former. -/
structure Advances (source : String) (spans : List Span) (m next : Marks) : Prop where
  cursor_lt : m.cursor < next.cursor
  between : ∃ start close, FirstFrom source [openBrace, openBrace] m.cursor start ∧
    FirstFrom source [closeBrace, closeBrace] (start + 2) close ∧
    (∀ n, m.close = some n → start + 2 ≤ n → n = close) ∧ next.close = some close ∧
    ⟨start, close + 2⟩ ∈ spans ∧ ⟨start + 2, close⟩ ∈ spans

structure Mirrors (source : String) (m : Marks) (c : Cursor) : Prop where
  parts : ∃ front, source.toList = front ++ c.run.reverse ++ c.rest ∧
    m.textStart = byteCount front ∧ m.cursor = byteCount (front ++ c.run.reverse)
  offset_eq : c.offset = m.cursor
  close_eq : c.close = m.close
  remembers : c.Remembers

theorem mirrors_start (source : String) :
    Mirrors source start ⟨[], 0, source.toList, none⟩ :=
  ⟨⟨[], rfl, rfl, rfl⟩, rfl, rfl, nofun⟩

end Marks

section Cuts

variable {source : String} {front run tail : List Char}

theorem covers_ahead (h : source.toList = front ++ tail) :
    Span.Covers source ⟨byteCount front, source.utf8ByteSize⟩ front tail [] where
  parts := by rw [List.append_nil, h]
  start_eq := rfl
  stop_eq := by rw [Text.utf8ByteSize_eq_byteCount, h, Text.byteCount_append]

theorem takes_textIn {span : Span} (h : span.Covers source front run tail) :
    ∃ spans, Takes source (textIn source span) spans (ofRun run) := by
  have hstop := h.stop_eq
  have hstart := h.start_eq
  cases run with
  | nil =>
    have hnot : ¬ span.start < span.stop := by
      simp only [byteCount] at hstop
      omega
    refine ⟨[], ?_⟩
    rw [textIn, if_neg hnot]
    exact .pure source []
  | cons c run =>
    have hlt : span.start < span.stop := by
      have hpos := c.utf8Size_pos
      simp only [byteCount] at hstop
      omega
    refine ⟨[span], ?_⟩
    rw [textIn, if_pos hlt]
    exact (Takes.cut h).bind (.pure source _)

/-- The look-up by offsets finds what the look-up in the text behind them finds. -/
theorem takes_close (m : Marks) (h : source.toList = front ++ tail) :
    ∃ spans, Takes source (m.close? source (byteCount front)) spans
      (closeOffset? m.close (byteCount front) tail) := by
  have hsearch : Takes source
      (do
        let ahead ← cut source ⟨byteCount front, source.utf8ByteSize⟩
        return (pairAt? closeBrace ahead).map (byteCount front + ·))
      [⟨byteCount front, source.utf8ByteSize⟩]
      (closeOffset? none (byteCount front) tail) := by
    refine (Takes.cut (covers_ahead h)).bind ?_
    rw [pairAt?, String.toList_ofList, Option.map_map]
    exact .pure source _
  cases hclose : m.close with
  | none =>
    rw [Marks.close?, hclose]
    exact ⟨_, hsearch⟩
  | some close =>
    by_cases hahead : byteCount front ≤ close
    · refine ⟨[], ?_⟩
      rw [Marks.close?, hclose, closeOffset?, if_pos hahead]
      simp only [Option.filter_some, hahead, decide_true, if_true]
      exact .pure source _
    · rw [Marks.close?, hclose, closeOffset?, if_neg hahead]
      simp only [Option.filter_some, hahead, decide_false]
      exact ⟨_, hsearch⟩

end Cuts

theorem byteCount_open : byteCount [openBrace, openBrace] = 2 := rfl

section Braces

variable {source : String} {lead inner tail : List Char}
variable (h : source.toList = lead ++ [openBrace, openBrace] ++
  (inner ++ closeBrace :: closeBrace :: tail))
include h

theorem covers_inner : Span.Covers source
    ⟨byteCount lead + 2, byteCount lead + 2 + byteCount inner⟩
    (lead ++ [openBrace, openBrace]) inner (closeBrace :: closeBrace :: tail) where
  parts := by rw [h, List.append_assoc _ inner]
  start_eq := by rw [Text.byteCount_append, byteCount_open]
  stop_eq := by rw [Text.byteCount_append, byteCount_open]

theorem covers_raw : Span.Covers source
    ⟨byteCount lead, byteCount lead + 2 + byteCount inner + 2⟩
    lead (openBrace :: openBrace :: inner ++ [closeBrace, closeBrace]) tail where
  parts := by
    rw [h]
    simp
  start_eq := rfl
  stop_eq := by
    rw [List.cons_append, List.cons_append, byteCount_braces, ← Nat.add_assoc, ← Nat.add_assoc]

end Braces

namespace Marks

variable {source : String} {m : Marks} {c d : Cursor} {tokens : List Token}

structure Ahead (source : String) (m : Marks) (c : Cursor) (lead before after : List Char) :
    Prop where
  parts : source.toList = lead ++ [openBrace, openBrace] ++ after
  offset_eq : c.offset + byteCount before = byteCount lead
  run : ∃ front, lead = front ++ (c.run.reverse ++ before) ∧ m.textStart = byteCount front
  first : FirstFrom source [openBrace, openBrace] m.cursor (byteCount lead)

theorem Mirrors.ahead (hm : Mirrors source m c) {before after : List Char}
    (h : splitAtPair openBrace c.rest = some (before, after)) :
    ∃ lead, Ahead source m c lead before after := by
  obtain ⟨front, hparts, htext, hcursor⟩ := hm.parts
  have hfirst := Text.firstFrom_of_split (by decide) hparts h
  rw [← Text.byteCount_append, ← hcursor] at hfirst
  refine ⟨front ++ c.run.reverse ++ before, ?_, ?_, ⟨front, List.append_assoc .., htext⟩, hfirst⟩
  · rw [hparts, Text.append_of_splitAtPair h]
    simp
  · rw [hm.offset_eq, hcursor, Text.byteCount_append _ before]

theorem Mirrors.takes_ahead (hm : Mirrors source m c) :
    Takes source (cut source ⟨m.cursor, source.utf8ByteSize⟩)
      [⟨m.cursor, source.utf8ByteSize⟩] (String.ofList c.rest) := by
  obtain ⟨front, hparts, -, hcursor⟩ := hm.parts
  rw [hcursor]
  exact .cut (covers_ahead hparts)

theorem Mirrors.takes_braces_none (hm : Mirrors source m c)
    (h : splitAtPair openBrace c.rest = none) :
    ∃ spans, Takes source (m.braces? source) spans none := by
  refine ⟨[⟨m.cursor, source.utf8ByteSize⟩], hm.takes_ahead.bind ?_⟩
  rw [pairAt?, String.toList_ofList, h]
  exact .pure source none

theorem Mirrors.takes_braces (hm : Mirrors source m c) {before after : List Char}
    (h : splitAtPair openBrace c.rest = some (before, after)) :
    ∃ spans, Takes source (m.braces? source) spans ((splitAtPair closeBrace after).map fun p =>
      (c.offset + byteCount before, c.offset + byteCount before + 2 + byteCount p.1)) := by
  obtain ⟨lead, hahead⟩ := hm.ahead h
  have hinner : c.offset + byteCount before + 2 = byteCount (lead ++ [openBrace, openBrace]) := by
    rw [Text.byteCount_append, hahead.offset_eq, byteCount_open]
  obtain ⟨spans, hclose⟩ := takes_close m hahead.parts
  rw [← hinner, ← hm.close_eq, remembered_nearest hm.remembers h] at hclose
  have hpaired : Takes source
      (do
        let close ← m.close? source (c.offset + byteCount before + 2)
        return close.map (c.offset + byteCount before, ·)) (spans ++ []) _ :=
    hclose.bind (.pure source _)
  rw [Option.map_map] at hpaired
  refine ⟨⟨m.cursor, source.utf8ByteSize⟩ :: (spans ++ []), hm.takes_ahead.bind ?_⟩
  rw [pairAt?, String.toList_ofList, h, ← hm.offset_eq]
  exact hpaired

theorem Mirrors.stops (hm : Mirrors source m c) (h : c.step = none) :
    ∃ spans, Takes source (m.turn source) spans (ofRun (c.run.reverse ++ c.rest), none) := by
  obtain ⟨front, hparts, htext, -⟩ := hm.parts
  rw [List.append_assoc] at hparts
  have hnone : ∃ spans, Takes source (m.braces? source) spans none := by
    rcases step_none_cases hm.remembers h with hopen | ⟨before, after, hopen, hclose⟩
    · exact hm.takes_braces_none hopen
    · have hbraces := hm.takes_braces hopen
      rwa [hclose] at hbraces
  obtain ⟨spans, hbraces⟩ := hnone
  obtain ⟨more, hrun⟩ := takes_textIn (covers_ahead hparts)
  rw [← htext] at hrun
  exact ⟨spans ++ (more ++ []), hbraces.bind (hrun.bind (.pure source _))⟩

section Turn

variable {start close : Nat} {raw inner : String} {spans more : List Span}
variable (hbraces : Takes source (m.braces? source) spans (some (start, close)))
  (hraw : Takes source (cut source ⟨start, close + 2⟩) [⟨start, close + 2⟩] raw)
  (hinner : Takes source (cut source ⟨start + 2, close⟩) [⟨start + 2, close⟩] inner)
include hbraces hraw hinner

theorem takes_turn_directive {meaning : Directive} {run : List Token}
    (hmeaning : Directive.ofInner? inner.toList = some meaning)
    (hrun : Takes source (textIn source ⟨m.textStart, start⟩) more run) :
    Takes source (m.turn source)
      (spans ++ ([⟨start, close + 2⟩] ++ ([⟨start + 2, close⟩] ++ (more ++ []))))
      (run ++ [.directive meaning raw start], some ⟨close + 2, close + 2, some close⟩) := by
  refine hbraces.bind (hraw.bind (hinner.bind ?_))
  rw [hmeaning]
  exact hrun.bind (.pure source _)

theorem takes_turn_other (hmeaning : Directive.ofInner? inner.toList = none) :
    Takes source (m.turn source)
      (spans ++ ([⟨start, close + 2⟩] ++ ([⟨start + 2, close⟩] ++ [])))
      ([], some ⟨m.textStart, start + 1, some close⟩) := by
  refine hbraces.bind (hraw.bind (hinner.bind ?_))
  rw [hmeaning]
  exact .pure source _

end Turn

namespace Ahead

variable {lead before after inner tail : List Char}

theorem covers_run (h : Ahead source m c lead before after) :
    ∃ front, Span.Covers source ⟨m.textStart, byteCount lead⟩ front (c.run.reverse ++ before)
      ([openBrace, openBrace] ++ after) := by
  obtain ⟨front, rfl, htext⟩ := h.run
  exact ⟨front, by rw [h.parts, List.append_assoc _ _ after], htext, Text.byteCount_append ..⟩

theorem past_directive (h : Ahead source m c lead before after)
    (hclose : splitAtPair closeBrace after = some (inner, tail)) {n : Nat}
    (hn : n = byteCount lead + 2 + byteCount inner + 2) {close : Option Nat}
    (hremembers : (⟨[], n, tail, close⟩ : Cursor).Remembers) :
    Mirrors source ⟨n, n, close⟩ ⟨[], n, tail, close⟩ := by
  have hcount : n =
      byteCount (lead ++ openBrace :: openBrace :: (inner ++ [closeBrace, closeBrace])) := by
    rw [hn, Text.byteCount_append, byteCount_braces, ← Nat.add_assoc, ← Nat.add_assoc]
  refine ⟨⟨_, ?_, hcount, ?_⟩, rfl, rfl, hremembers⟩
  · rw [h.parts, Text.append_of_splitAtPair hclose]
    simp
  · rw [List.reverse_nil, List.append_nil]
    exact hcount

theorem past_brace (h : Ahead source m c lead before after) {close : Option Nat}
    (hremembers : (⟨openBrace :: (before.reverse ++ c.run), byteCount lead + 1,
      openBrace :: after, close⟩ : Cursor).Remembers) :
    Mirrors source ⟨m.textStart, byteCount lead + 1, close⟩
      ⟨openBrace :: (before.reverse ++ c.run), byteCount lead + 1, openBrace :: after, close⟩ := by
  obtain ⟨front, rfl, htext⟩ := h.run
  refine ⟨⟨front, ?_, htext, ?_⟩, rfl, rfl, hremembers⟩
  · rw [h.parts]
    simp
  · have hbrace : openBrace.utf8Size = 1 := rfl
    simp [byteCount, hbrace, Nat.add_assoc]

theorem advances (h : Ahead source m c lead before after) (hm : Mirrors source m c)
    (hopen : splitAtPair openBrace c.rest = some (before, after))
    (hclose : splitAtPair closeBrace after = some (inner, tail)) {next : Marks} {spans : List Span}
    (hcursor : byteCount lead < next.cursor)
    (hnext : next.close = some (byteCount lead + 2 + byteCount inner))
    (hraw : ⟨byteCount lead, byteCount lead + 2 + byteCount inner + 2⟩ ∈ spans)
    (hinner : ⟨byteCount lead + 2, byteCount lead + 2 + byteCount inner⟩ ∈ spans) :
    Advances source spans m next := by
  have hfirst := Text.firstFrom_of_split (by decide) h.parts hclose
  rw [Text.byteCount_append, byteCount_open] at hfirst
  have hnearest := remembered_nearest hm.remembers hopen
  rw [hclose, Option.map_some, hm.close_eq, h.offset_eq] at hnearest
  refine ⟨Nat.lt_of_le_of_lt h.first.1.1 hcursor, _, _, h.first, hfirst, ?_, hnext, hraw, hinner⟩
  intro n hn hahead
  rw [hn, closeOffset?, if_pos hahead] at hnearest
  exact Option.some.inj hnearest

end Ahead

theorem Mirrors.moves (hm : Mirrors source m c) (h : c.step = some (tokens, d)) :
    ∃ next spans, Takes source (m.turn source) spans (tokens, some next) ∧
      Mirrors source next d ∧ Advances source spans m next := by
  obtain ⟨before, after, inner, tail, hopen, hclose, hmove⟩ := step_some_cases hm.remembers h
  obtain ⟨hremembers, -⟩ := step_reads hm.remembers h
  obtain ⟨lead, hahead⟩ := hm.ahead hopen
  obtain ⟨spans, hbraces⟩ := hm.takes_braces hopen
  rw [hclose, Option.map_some, hahead.offset_eq] at hbraces
  rw [hahead.offset_eq] at hmove
  have hparts := hahead.parts
  rw [Text.append_of_splitAtPair hclose] at hparts
  have hraw := Takes.cut (covers_raw hparts)
  have hinner := Takes.cut (covers_inner hparts)
  rcases hmove with ⟨meaning, hmeaning, rfl, rfl⟩ | ⟨hmeaning, rfl, rfl⟩
  · obtain ⟨front, hcovers⟩ := hahead.covers_run
    obtain ⟨more, hrun⟩ := takes_textIn hcovers
    have hturn :=
      takes_turn_directive hbraces hraw hinner (by rwa [String.toList_ofList]) hrun
    exact ⟨_, _, hturn, hahead.past_directive hclose rfl hremembers,
      hahead.advances hm hopen hclose (by dsimp only; omega) rfl (by simp) (by simp)⟩
  · have hturn := takes_turn_other hbraces hraw hinner (by rwa [String.toList_ofList])
    exact ⟨_, _, hturn, hahead.past_brace hremembers,
      hahead.advances hm hopen hclose (Nat.lt_succ_self _) rfl (by simp) (by simp)⟩

/-- A turn that mirrors a scan has no fault, and gets ahead unless it is the last. -/
theorem Mirrors.turn (hm : Mirrors source m c) :
    ∃ tokens next spans, (m.turn source).run [] = .ok (tokens, next) spans ∧
      (∀ span ∈ spans, span.Within source) ∧
      ∀ n, next = some n → Advances source spans m n ∧ ∃ d, Mirrors source n d := by
  cases hstep : c.step with
  | none =>
    obtain ⟨spans, hturn⟩ := hm.stops hstep
    exact ⟨_, none, spans, hturn.run [], hturn.within, nofun⟩
  | some move =>
    obtain ⟨tokens, d⟩ := move
    obtain ⟨next, spans, hturn, hd, hadvances⟩ := hm.moves hstep
    refine ⟨tokens, some next, spans, hturn.run [], hturn.within, ?_⟩
    rintro n ⟨⟩
    exact ⟨hadvances, d, hd⟩

theorem mirrors_reached (h : Relation.ReflTransGen (Moves source) start m) :
    ∃ c, Mirrors source m c := by
  induction h with
  | refl => exact ⟨_, mirrors_start source⟩
  | tail _ hmoves ih =>
    obtain ⟨c, hm⟩ := ih
    obtain ⟨tokens, spans, hrun⟩ := hmoves
    obtain ⟨_, _, _, hturn, -, hnext⟩ := hm.turn
    -- A turn comes to one thing only, so this move is the one that mirrors the scan.
    cases hrun.symm.trans hturn
    exact (hnext _ rfl).2

theorem Mirrors.cursor_le (hm : Mirrors source m c) : m.cursor ≤ source.utf8ByteSize := by
  obtain ⟨front, hparts, -, hcursor⟩ := hm.parts
  rw [Text.utf8ByteSize_eq_byteCount, hparts, Text.byteCount_append, hcursor]
  exact Nat.le_add_right ..

/-- A scan ends after at most one turn for every byte ahead and one more. -/
theorem Mirrors.scans (hm : Mirrors source m c) :
    ∃ turns, turns + m.cursor ≤ source.utf8ByteSize + 1 ∧ Scans source turns m c.tokens := by
  have hle := hm.cursor_le
  fun_induction Cursor.tokens c generalizing m with
  | case1 c hstep =>
    obtain ⟨spans, hturn⟩ := hm.stops hstep
    exact ⟨1, by omega, .last (hturn.run [])⟩
  | case2 c tokens d hstep hshort ih =>
    obtain ⟨next, spans, hturn, hd, hadvances⟩ := hm.moves hstep
    obtain ⟨turns, hturns, hscans⟩ := ih hd hd.cursor_le
    have hlt := hadvances.cursor_lt
    exact ⟨turns + 1, by omega, .next (hturn.run []) hscans⟩

/-- Every text is scanned without a fault, to its end: in every turn that is reached, each span that
is cut out is within the text, and a turn that is not the last gets ahead, by the first double
closing brace behind the next double opening brace, whether it was remembered or looked up. -/
theorem scan_within (source : String) :
    (∀ m, Relation.ReflTransGen (Moves source) start m →
      ∃ tokens next spans, (m.turn source).run [] = .ok (tokens, next) spans ∧
        (∀ span ∈ spans, span.Within source) ∧ ∀ n, next = some n → Advances source spans m n) ∧
    ∃ turns, turns ≤ source.utf8ByteSize + 1 ∧ Scans source turns start (scan source) := by
  constructor
  · intro m hreached
    obtain ⟨c, hm⟩ := mirrors_reached hreached
    obtain ⟨tokens, next, spans, hturn, hwithin, hnext⟩ := hm.turn
    exact ⟨tokens, next, spans, hturn, hwithin, fun n hn => (hnext n hn).1⟩
  · exact (mirrors_start source).scans

/-- The second opening in `é{{ ü{{x}}` takes the close that the first one looked up. -/
theorem scan_within_remembered :
    let source := "é\x7b\x7b ü\x7b\x7bx\x7d\x7d"
    let spans : List Span := [⟨3, 12⟩, ⟨7, 12⟩, ⟨9, 10⟩, ⟨0, 7⟩]
    Moves source start ⟨0, 3, some 10⟩ ∧
      (turn source ⟨0, 3, some 10⟩).run [] =
        .ok ([.text "é\x7b\x7b ü", .directive (.variable "x") "\x7b\x7bx\x7d\x7d" 7],
          some ⟨12, 12, some 10⟩) spans ∧
      (∀ span ∈ spans, span.Within source) ∧
      Advances source spans ⟨0, 3, some 10⟩ ⟨12, 12, some 10⟩ := by
  intro source spans
  have hfirst : (turn source start).run [] =
      .ok ([], some ⟨0, 3, some 10⟩) [⟨0, 12⟩, ⟨4, 12⟩, ⟨2, 12⟩, ⟨4, 10⟩] := by decide +kernel
  have hsecond : (turn source ⟨0, 3, some 10⟩).run [] =
      .ok ([.text "é\x7b\x7b ü", .directive (.variable "x") "\x7b\x7bx\x7d\x7d" 7],
        some ⟨12, 12, some 10⟩) spans := by decide +kernel
  have hmoves : Moves source start ⟨0, 3, some 10⟩ := ⟨_, _, hfirst⟩
  obtain ⟨_, _, _, hturn, hwithin, hnext⟩ := (scan_within source).1 _ (.single hmoves)
  cases hturn.symm.trans hsecond
  exact ⟨hmoves, hsecond, hwithin, hnext _ rfl⟩

end Marks

end QuotePress.Token
