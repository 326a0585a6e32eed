import QuotePress.Proofs.Markup.Reading
import QuotePress.Settings
import Mathlib.Tactic.ByContra

/-! # The sandbox of a preview

A browser takes the sandbox attribute for a set of words. Settings refuse the script token entry by
entry, so it gets through where an entry holds it beside another word, and nowhere else. -/
namespace QuotePress

namespace Markup

def isWordBreak (c : Char) : Bool :=
  c = '\t' || c = '\n' || c = '\x0c' || c = '\r' || c = ' '

def wordsOf (cs : List Char) : List (List Char) :=
  (cs.splitOnP isWordBreak).filter (!·.isEmpty)

def words (value : String) : List String :=
  (wordsOf value.toList).map String.ofList

theorem words_of_unbroken {cs : List Char} (h : ∀ c ∈ cs, isWordBreak c = false) :
    wordsOf cs = if cs = [] then [] else [cs] := by
  rw [wordsOf, List.splitOnP_eq_singleton h]
  by_cases hcs : cs = []
  · simp [hcs]
  · simp [hcs]

theorem words_of_joined (entries : List (List Char)) :
    wordsOf ([' '].intercalate entries) = entries.flatMap wordsOf := by
  have hspace : isWordBreak ' ' = true := by decide
  induction entries with
  | nil => simp [wordsOf]
  | cons first rest ih =>
    by_cases hrest : rest = []
    · subst rest
      simp
    · rw [List.intercalate_cons_of_ne_nil hrest, List.append_assoc, List.singleton_append, wordsOf,
        List.splitOnP_append_cons _ _ hspace, List.filter_append, List.flatMap_cons, ← ih]
      rfl

theorem words_joined (entries : List String) :
    words (String.intercalate " " entries) = entries.flatMap words := by
  have hspace : " ".toList = [' '] := rfl
  simp only [words, String.toList_intercalate, hspace, words_of_joined, List.flatMap_map,
    List.map_flatMap]
  rfl

end Markup

namespace Settings

open Markup

theorem script_unbroken {token : String} (h : allowsScript token = true) :
    ∀ c ∈ token.toList, isWordBreak c = false := by
  intro c hc
  have hlower : c.toLower ∈ scriptToken.toList := by
    rw [← of_decide_eq_true h]
    exact List.mem_map_of_mem hc
  by_contra hbreak
  have hb : isWordBreak c = true := by simpa using hbreak
  simp only [isWordBreak, Bool.or_eq_true, decide_eq_true_eq] at hb
  rcases hb with (((rfl | rfl) | rfl) | rfl) | rfl <;> revert hlower <;> decide

/-- An entry that lets script run although it is not the script token: one with the token among
several words. -/
def SmugglesScript (entry : String) : Prop :=
  (∃ c ∈ entry.toList, isWordBreak c = true) ∧ ∃ word ∈ words entry, allowsScript word = true

theorem smuggles_iff (entry : String) : SmugglesScript entry ↔
    (entry.isEmpty = false ∧ allowsScript entry = false) ∧
      ∃ word ∈ words entry, allowsScript word = true := by
  refine and_congr_left ?_
  rintro ⟨word, hword, hscript⟩
  constructor
  · rintro ⟨c, hc, hbreak⟩
    constructor
    · by_contra hempty
      have hnil : entry = "" := by simpa using hempty
      rw [hnil] at hc
      cases hc
    · by_contra hentry
      have h := script_unbroken (by simpa using hentry) c hc
      rw [hbreak] at h
      cases h
  · rintro ⟨hne, hentry⟩
    by_contra hnone
    have hplain : ∀ c ∈ entry.toList, isWordBreak c = false := by
      intro c hc
      by_contra hb
      exact hnone ⟨c, hc, by simpa using hb⟩
    have hwhole : entry.toList ≠ [] := by
      simpa using hne
    rw [words, words_of_unbroken hplain, if_neg hwhole, List.map_singleton, String.ofList_toList,
      List.mem_singleton] at hword
    rw [← hword, hscript] at hentry
    cases hentry

/-- The sandbox of a preview lets script run exactly if some entry of the settings, trimmed, holds
the script token among several words. -/
theorem script_runs_iff_smuggled (s : Settings) (html : String) :
    ∃ value, attribute? "sandbox" (PreviewFrame.mk html s.sandboxTokens).element = some value ∧
      ((∃ word ∈ words value, allowsScript word = true) ↔
        ∃ entry ∈ s.previewSandbox, SmugglesScript (Text.trim entry)) := by
  refine ⟨_, sandbox_frame _, ?_⟩
  rw [words_joined]
  constructor
  · rintro ⟨word, hword, hscript⟩
    obtain ⟨token, htoken, hword⟩ := List.mem_flatMap.1 hword
    obtain ⟨hentry, hkept⟩ := List.mem_filter.1 htoken
    obtain ⟨entry, hmem, rfl⟩ := List.mem_map.1 hentry
    have hkept' := Bool.and_eq_true_iff.1 hkept
    exact ⟨entry, hmem, (smuggles_iff _).2
      ⟨⟨by simpa using hkept'.1, by simpa using hkept'.2⟩, word, hword, hscript⟩⟩
  · rintro ⟨entry, hmem, hsmuggled⟩
    obtain ⟨⟨hne, hentry⟩, word, hword, hscript⟩ := (smuggles_iff _).1 hsmuggled
    refine ⟨word, List.mem_flatMap.2 ⟨Text.trim entry, ?_, hword⟩, hscript⟩
    refine List.mem_filter.2 ⟨List.mem_map_of_mem hmem, ?_⟩
    rw [hne, hentry]
    rfl

/-- The script token gets through beside another word. -/
theorem script_runs_beside_forms :
    ¬ ∀ (s : Settings) (html value : String),
      attribute? "sandbox" (PreviewFrame.mk html s.sandboxTokens).element = some value →
        ∀ word ∈ words value, allowsScript word = false := by
  intro h
  let s : Settings := { default with previewSandbox := ["allow-forms allow-scripts"] }
  have htokens : s.sandboxTokens = ["allow-forms allow-scripts"] := by decide +kernel
  have hvalue := sandbox_frame ⟨"", s.sandboxTokens⟩
  have hword : "allow-scripts" ∈ words (String.intercalate " " s.sandboxTokens) := by
    rw [htokens]
    decide +kernel
  have hscript := h s "" _ hvalue "allow-scripts" hword
  revert hscript
  decide +kernel

end Settings

end QuotePress
