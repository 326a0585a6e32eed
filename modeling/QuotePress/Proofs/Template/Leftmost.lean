import QuotePress.Proofs.Template.Spelling
import Mathlib.Algebra.GroupWithZero.Nat
import Mathlib.Data.List.Chain

/-! # The leftmost reading of a template

A reading that remembers nothing: at every unit of the text, a directive that starts there is
taken, or the unit joins the run of text. Units are characters or bytes. The scan, with the double
closing brace it remembers, finds the same tokens. -/
namespace QuotePress

open Token (openBrace closeBrace Cursor closeOffset?)
open Text (splitAtPair byteCount cutBytes)

def Apart {α : Type} (p : α → Bool) (items : List α) : Prop :=
  items.IsChain fun a b => ¬ (p a = true ∧ p b = true)

inductive Lexeme (α : Type) where
  | text (run : List α)
  | directive (meaning : Directive) (raw : List α) (offset : Nat)
  deriving DecidableEq, Repr

namespace Lexeme

variable {α : Type}

def ofRun (run : List α) : List (Lexeme α) :=
  if run.isEmpty then [] else [.text run]

def raw : Lexeme α → List α
  | .text run => run
  | .directive _ raw _ => raw

def isText : Lexeme α → Bool
  | .text _ => true
  | .directive .. => false

end Lexeme

theorem directiveAt_extent {cs : List Char} {meaning : Directive} {n : Nat}
    (h : directiveAt? cs = some (meaning, n)) : 0 < n ∧ n ≤ cs.length := by
  obtain ⟨raw, ⟨inner, -, rfl⟩, hraw, rfl⟩ := directiveAt_iff.1 h
  exact ⟨by simp, hraw.length_le⟩

theorem directiveAt_shortens {α : Type} {view : α → Char} {units : List α} {meaning : Directive}
    {n : Nat} (h : directiveAt? (units.map view) = some (meaning, n)) :
    units.length - n < units.length := by
  have hextent := directiveAt_extent h
  rw [List.length_map] at hextent
  omega

/-- Reads units from the left. The units of the run come before `offset`, those to be read after. -/
def leftmost {α : Type} (view : α → Char) (size : α → Nat) (offset : Nat) (run units : List α) :
    List (Lexeme α) :=
  match h : directiveAt? (units.map view) with
  | some (meaning, n) =>
    have := directiveAt_shortens h
    Lexeme.ofRun run ++ .directive meaning (units.take n) offset ::
      leftmost view size (offset + ((units.take n).map size).sum) [] (units.drop n)
  | none =>
    match units with
    | [] => Lexeme.ofRun run
    | unit :: rest => leftmost view size (offset + size unit) (run ++ [unit]) rest
termination_by units.length

section Reading

variable {α : Type} {view : α → Char} {size : α → Nat}

theorem leftmost_directive {offset n : Nat} {run units : List α} {meaning : Directive}
    (h : directiveAt? (units.map view) = some (meaning, n)) :
    leftmost view size offset run units =
      Lexeme.ofRun run ++ .directive meaning (units.take n) offset ::
        leftmost view size (offset + ((units.take n).map size).sum) [] (units.drop n) := by
  rw [leftmost]
  split
  · rename_i other m hother
    rw [h] at hother
    cases hother
    rfl
  · rename_i hnone
    rw [h] at hnone
    cases hnone

theorem leftmost_nil (offset : Nat) (run : List α) :
    leftmost view size offset run [] = Lexeme.ofRun run := by
  rw [leftmost]
  rfl

theorem leftmost_unit {offset : Nat} {run rest : List α} {unit : α}
    (h : directiveAt? ((unit :: rest).map view) = none) :
    leftmost view size offset run (unit :: rest) =
      leftmost view size (offset + size unit) (run ++ [unit]) rest := by
  rw [leftmost]
  split
  · rename_i hsome
    rw [h] at hsome
    cases hsome
  · rfl

/-- Where no directive starts in it, a stretch of units joins the run. -/
theorem leftmost_run {plain rest : List α}
    (h : ∀ a b, plain = a ++ b → b ≠ [] → directiveAt? ((b ++ rest).map view) = none) (offset : Nat)
    (run : List α) :
    leftmost view size offset run (plain ++ rest) =
      leftmost view size (offset + (plain.map size).sum) (run ++ plain) rest := by
  induction plain generalizing offset run with
  | nil => simp
  | cons unit plain ih =>
    have hunit := h [] (unit :: plain) rfl (by simp)
    rw [List.cons_append] at hunit ⊢
    rw [leftmost_unit hunit, ih]
    · simp [Nat.add_assoc]
    · intro a b hab hb
      exact h (unit :: a) b (by rw [hab, List.cons_append]) hb

theorem raw_ofRun (run : List α) : (Lexeme.ofRun run).flatMap Lexeme.raw = run := by
  cases run with
  | nil => rfl
  | cons unit run => simp [Lexeme.ofRun, Lexeme.raw]

/-- A reading leaves nothing out and adds nothing. -/
theorem raw_leftmost (view : α → Char) (size : α → Nat) (offset : Nat) (run units : List α) :
    (leftmost view size offset run units).flatMap Lexeme.raw = run ++ units := by
  fun_induction leftmost view size offset run units with
  | case1 offset run units meaning n h hshort ih =>
    rw [List.flatMap_append, List.flatMap_cons, ih, raw_ofRun, Lexeme.raw, List.nil_append,
      List.take_append_drop]
  | case2 offset run h => rw [raw_ofRun, List.append_nil]
  | case3 offset run unit rest h ih => rw [ih, List.append_assoc, List.singleton_append]

theorem ofRun_text {run piece : List α} (h : .text piece ∈ Lexeme.ofRun run) : piece ≠ [] := by
  cases run with
  | nil => cases h
  | cons unit run =>
    cases List.mem_singleton.1 h
    simp

theorem text_leftmost_ne_nil {offset : Nat} {run units piece : List α}
    (h : .text piece ∈ leftmost view size offset run units) : piece ≠ [] := by
  fun_induction leftmost view size offset run units with
  | case1 offset run units meaning n hstart hshort ih =>
    rcases List.mem_append.1 h with hrun | hrest
    · exact ofRun_text hrun
    · rcases List.mem_cons.1 hrest with heq | hrest
      · cases heq
      · exact ih hrest
  | case2 offset run hstart => exact ofRun_text h
  | case3 offset run unit rest hstart ih => exact ih h

theorem written_leftmost {offset start : Nat} {run units raw : List α} {meaning : Directive}
    (h : .directive meaning raw offset ∈ leftmost view size start run units) :
    meaning.Written (raw.map view) := by
  have hrun : ∀ {run : List α}, .directive meaning raw offset ∉ Lexeme.ofRun run := by
    intro run hmem
    cases run with
    | nil => cases hmem
    | cons unit run => cases List.mem_singleton.1 hmem
  fun_induction leftmost view size start run units with
  | case1 start run units found n hstart hshort ih =>
    rcases List.mem_append.1 h with hmem | hrest
    · exact absurd hmem hrun
    · rcases List.mem_cons.1 hrest with heq | hrest
      · cases heq
        obtain ⟨word, hword, ⟨tail, htail⟩, rfl⟩ := directiveAt_iff.1 hstart
        rw [List.map_take, ← htail, List.take_left]
        exact hword
      · exact ih hrest
  | case2 start run hstart => exact absurd h hrun
  | case3 start run unit rest hstart ih => exact ih h

theorem leftmost_apart (view : α → Char) (size : α → Nat) (offset : Nat) (run units : List α) :
    Apart Lexeme.isText (leftmost view size offset run units) := by
  fun_induction leftmost view size offset run units with
  | case1 offset run units meaning n hstart hshort ih =>
    have htail : Apart Lexeme.isText (.directive meaning (units.take n) offset :: leftmost view size
        (offset + ((units.take n).map size).sum) [] (units.drop n)) := by
      refine ih.cons ?_
      intro next _ hmeet
      cases hmeet.1
    cases run with
    | nil => exact htail
    | cons unit run =>
      refine htail.cons ?_
      intro next hnext hmeet
      cases hnext
      cases hmeet.2
  | case2 offset run hstart =>
    cases run with
    | nil => exact .nil
    | cons unit run => exact .singleton _
  | case3 offset run unit rest hstart ih => exact ih

theorem offset_leftmost {start offset : Nat} {run units raw : List α} {meaning : Directive}
    {before after : List (Lexeme α)} (h : leftmost view size start run units =
      before ++ .directive meaning raw offset :: after) :
    offset + (run.map size).sum = start + ((before.flatMap Lexeme.raw).map size).sum := by
  fun_induction leftmost view size start run units generalizing before with
  | case1 start run units found n hstart hshort ih =>
    have hfirst : ∀ {before : List (Lexeme α)}, .directive found (units.take n) start ::
        leftmost view size (start + ((units.take n).map size).sum) [] (units.drop n) =
          before ++ .directive meaning raw offset :: after →
        offset = start + ((before.flatMap Lexeme.raw).map size).sum := by
      intro before h
      cases before with
      | nil =>
        cases h
        rfl
      | cons first before =>
        injection h with hhead htail
        have hoffset := ih htail
        subst hhead
        simp only [List.map_nil, List.sum_nil, Nat.add_zero] at hoffset
        rw [hoffset, List.flatMap_cons, List.map_append, List.sum_append, Lexeme.raw]
        omega
    cases run with
    | nil => exact hfirst h
    | cons unit run =>
      cases before with
      | nil => cases h
      | cons first before =>
        injection h with hhead htail
        have hoffset := hfirst htail
        subst hhead
        rw [hoffset, List.flatMap_cons, List.map_append, List.sum_append, Lexeme.raw]
        omega
  | case2 start run hstart =>
    cases run with
    | nil => cases before <;> cases h
    | cons unit run =>
      cases before with
      | nil => cases h
      | cons first before =>
        injection h with hhead htail
        cases before <;> cases htail
  | case3 start run unit rest hstart ih =>
    have hoffset := ih h
    rw [List.map_append, List.sum_append, List.map_singleton, List.sum_singleton] at hoffset
    omega

end Reading

end QuotePress
