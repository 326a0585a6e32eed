import QuotePress.Markup
import QuotePress.Proofs.Files.Frames
import Mathlib.Data.List.TakeWhile

/-! # Names of exported files

The name of an exported file is one part of a path, whatever the number of the quote is: its stem
has only letters, digits, hyphens and underscores. So the point in front of its ending is its only
point, and another ending takes the place of just that ending. -/
namespace QuotePress

namespace Text

theorem inRanges_apart {ranges others : List (Nat × Nat)}
    (h : ∀ r ∈ ranges, ∀ other ∈ others, r.2 < other.1 ∨ other.2 < r.1) {c : Char}
    (hc : inRanges ranges c = true) : inRanges others c = false := by
  simp only [inRanges, List.any_eq_true, Bool.and_eq_true, decide_eq_true_eq] at hc
  obtain ⟨r, hr, hlow, hhigh⟩ := hc
  rw [Bool.eq_false_iff]
  intro hother
  simp only [inRanges, List.any_eq_true, Bool.and_eq_true, decide_eq_true_eq] at hother
  obtain ⟨other, hmem, hlow', hhigh'⟩ := hother
  have := h r hr other hmem
  omega

theorem not_isBlankChar_of_isAlphanumeric {c : Char} (h : isAlphanumeric c = true) :
    isBlankChar c = false :=
  inRanges_apart (by decide +kernel) h

theorem trimStart_of_no_blank {cs : List Char} (h : ∀ c ∈ cs, isBlankChar c = false) :
    trimStart cs = cs := by
  cases cs with
  | nil => rfl
  | cons c cs =>
    rw [trimStart, List.dropWhile_cons_of_neg]
    simp [h c List.mem_cons_self]

theorem trimChars_of_no_blank {cs : List Char} (h : ∀ c ∈ cs, isBlankChar c = false) :
    trimChars cs = cs := by
  rw [trimChars, trimStart_of_no_blank h, trimStart_of_no_blank, List.reverse_reverse]
  intro c hc
  exact h c (List.mem_reverse.1 hc)

end Text

namespace Path

theorem dropTail_of_slashless {cs : List Char} (h : '/' ∉ cs) : dropTail cs = cs := by
  rw [dropTail.eq_def]
  split
  · exact absurd List.mem_cons_self h
  · exact absurd (List.mem_cons_of_mem _ List.mem_cons_self) h
  · rfl

theorem decide_ne_of_not_mem {c : Char} {cs : List Char} (h : c ∉ cs) :
    ∀ other ∈ cs, decide (other ≠ c) = true := by
  intro other hother
  rw [decide_eq_true_eq]
  rintro rfl
  exact h hother

theorem stemBackward_append {front last : List Char} (hfront : front ≠ []) (hlast : '.' ∉ last) :
    stemBackward (last ++ '.' :: front) = front := by
  have hbefore : ((last ++ '.' :: front).dropWhile (· ≠ '.')).drop 1 = front := by
    rw [List.dropWhile_append_of_pos (decide_ne_of_not_mem hlast)]
    rfl
  rw [stemBackward, hbefore, List.isEmpty_eq_false_iff.2 hfront]
  rfl

/-- Another ending takes the place of what stands behind the last point of a name. -/
theorem withEnding_of_ending {front last : String} (hname : IsName (front ++ "." ++ last))
    (hfront : front ≠ "") (hlast : '.' ∉ last.toList) (ending : String) :
    (Path.mk (front ++ "." ++ last)).withEnding ending = ⟨front ++ ending⟩ := by
  let backward := (front ++ "." ++ last).toList.reverse
  have hbackward : backward = last.toList.reverse ++ '.' :: front.toList.reverse := by
    simp [backward]
  have hslash : '/' ∉ backward := mt List.mem_reverse.1 hname.slashless
  have htake : backward.takeWhile (· ≠ '/') = backward :=
    List.takeWhile_eq_self_iff.2 (decide_ne_of_not_mem hslash)
  have hdrop : backward.dropWhile (· ≠ '/') = [] :=
    List.dropWhile_eq_nil_iff.2 (decide_ne_of_not_mem hslash)
  have hnamed : backward ∉ [[], ['.'], ['.', '.']] := by
    intro hmem
    simp only [backward, List.mem_cons, List.not_mem_nil, or_false, List.reverse_eq_iff] at hmem
    rcases hmem with hempty | hpoint | hpoints
    · exact hname.nonempty hempty
    · exact hname.noPoint (String.toList_inj.1 (hpoint.trans (by decide)))
    · exact hname.noPoints (String.toList_inj.1 (hpoints.trans (by decide)))
  have hstem : stemBackward backward = front.toList.reverse := by
    rw [hbackward, stemBackward_append ?_ (mt List.mem_reverse.1 hlast)]
    rw [ne_eq, List.reverse_eq_nil_iff, String.toList_eq_nil_iff]
    exact hfront
  rw [withEnding, dropTail_of_slashless hslash, htake, hdrop, if_neg hnamed, hstem,
    List.append_nil, List.reverse_reverse, String.ofList_toList]

end Path

namespace ExportRequest

def stemChar (c : Char) : Char :=
  if isStemChar c then c else '_'

theorem stem_eq (number : String) : stem number =
    if Text.isBlank number then "untitled".toList
    else (Text.trim number).toList.map stemChar := by
  have htrim : (Text.trim number).toList = Text.trimChars number.toList := String.toList_ofList
  have hblank : Text.isBlank number =
      ((Text.trimChars number.toList).map stemChar).isEmpty := by
    rw [Bool.eq_iff_iff, List.isEmpty_iff, List.map_eq_nil_iff, Text.trimChars_eq_nil_iff]
    rfl
  rw [hblank, htrim]
  rfl

theorem isStemChar_stemChar (c : Char) : isStemChar (stemChar c) = true := by
  rw [stemChar]
  split
  · assumption
  · decide +kernel

theorem stem_of_not_blank {number : String} (h : Text.isBlank number = false) :
    stem number = (Text.trim number).toList.map stemChar := by
  rw [stem_eq, h]
  rfl

theorem isStemChar_of_mem_stem {number : String} {c : Char} (hc : c ∈ stem number) :
    isStemChar c = true := by
  rw [stem_eq] at hc
  split at hc
  · have huntitled : "untitled".toList.all isStemChar = true := by decide +kernel
    exact List.all_eq_true.1 huntitled c hc
  · obtain ⟨original, -, rfl⟩ := List.mem_map.1 hc
    exact isStemChar_stemChar original

theorem stem_ne_nil (number : String) : stem number ≠ [] := by
  rw [stem_eq]
  split
  · decide
  · rename_i hblank
    rw [Text.trim, String.toList_ofList, ne_eq, List.map_eq_nil_iff, Text.trimChars_eq_nil_iff]
    exact hblank

/-- What could be more than a part of a name is in no stem. -/
theorem not_mem_stem {number : String} {c : Char} (h : c ∈ ['/', '\\', '.', '\x00']) :
    c ∉ stem number := by
  have hnone : ['/', '\\', '.', '\x00'].any isStemChar = false := by decide +kernel
  intro hc
  exact List.any_eq_false.1 hnone c h (isStemChar_of_mem_stem hc)

/-- A stem of characters that may stand in one is the number itself. -/
theorem stem_of_stemChars {number : String} (hne : number ≠ "")
    (h : ∀ c ∈ number.toList, isStemChar c = true) : stem number = number.toList := by
  have hblank : ∀ c ∈ number.toList, Text.isBlankChar c = false := by
    intro c hc
    have hchar := h c hc
    simp only [isStemChar, Bool.or_eq_true, decide_eq_true_eq] at hchar
    rcases hchar with (hchar | rfl) | rfl
    · exact Text.not_isBlankChar_of_isAlphanumeric hchar
    · decide
    · decide
  have htrim : (Text.trim number).toList = number.toList := by
    rw [Text.trim, String.toList_ofList, Text.trimChars_of_no_blank hblank]
  have hnonblank : Text.isBlank number = false := by
    obtain ⟨c, hc⟩ := List.exists_mem_of_ne_nil _ (mt String.toList_eq_nil_iff.1 hne)
    rw [Text.isBlank, List.all_eq_false]
    exact ⟨c, hc, by simp [hblank c hc]⟩
  have hsame : ∀ c ∈ number.toList, stemChar c = id c := by
    intro c hc
    rw [stemChar, h c hc]
    rfl
  rw [stem_of_not_blank hnonblank, htrim, List.map_congr_left hsame, List.map_id]

def exportedName (number : String) : String :=
  "quote-" ++ String.ofList (stem number) ++ ".html"

theorem toList_front (number : String) :
    ("quote-" ++ String.ofList (stem number)).toList = "quote-".toList ++ stem number := by
  have hstem : (String.ofList (stem number)).toList = stem number := String.toList_ofList
  rw [String.toList_append, hstem]

theorem toList_exportedName (number : String) : (exportedName number).toList =
    "quote-".toList ++ (stem number ++ ".html".toList) := by
  rw [exportedName, String.toList_append, toList_front, List.append_assoc]

theorem isName_nameFor (number : String) {ending : String} (hending : '/' ∉ ending.toList)
    (hlength : 2 < ending.toList.length) : Path.IsName (nameFor number ending) := by
  refine Path.isName_append ?_ hending hlength
  rw [toList_front, List.mem_append, not_or]
  exact ⟨by decide, not_mem_stem (by decide)⟩

theorem isName_exportedName (number : String) : Path.IsName (exportedName number) :=
  isName_nameFor number (by decide) (by decide)

theorem stem_of_exportedName {number other : String}
    (h : exportedName number = exportedName other) : stem number = stem other := by
  have hlist := congrArg String.toList h
  rw [toList_exportedName, toList_exportedName, List.append_cancel_left_eq,
    List.append_cancel_right_eq] at hlist
  exact hlist

theorem withEnding_of (number html : String) :
    (Path.mk (of number html).fileName).withEnding ".html" = ⟨exportedName number⟩ := by
  have hsplit : nameFor number ".pdf" =
      "quote-" ++ String.ofList (stem number) ++ "." ++ "pdf" := by
    rw [String.append_assoc]
    rfl
  have hfront : "quote-" ++ String.ofList (stem number) ≠ "" := by
    intro hempty
    have hlist := congrArg String.toList hempty
    rw [toList_front] at hlist
    cases hlist
  have hname : Path.IsName (nameFor number ".pdf") :=
    isName_nameFor number (by decide) (by decide)
  rw [hsplit] at hname
  rw [of, hsplit, Path.withEnding_of_ending hname hfront (by decide), exportedName]

end ExportRequest

end QuotePress
