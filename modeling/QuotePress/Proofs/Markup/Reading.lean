import QuotePress.Markup
import Mathlib.Tactic.SplitIfs

/-! # Reading attributes

A quoted value ends at the next quote, and the four references that escaping writes stand for the
characters of markup. A frame reads back as the tokens and the markup that went into it. -/
namespace QuotePress.Markup

/-- The text that a quoted value stands for. An ampersand that begins none of the four references
stands for itself. -/
def decodeReferences : List Char → List Char
  | '&' :: 'a' :: 'm' :: 'p' :: ';' :: rest => '&' :: decodeReferences rest
  | '&' :: 'q' :: 'u' :: 'o' :: 't' :: ';' :: rest => '"' :: decodeReferences rest
  | '&' :: 'l' :: 't' :: ';' :: rest => '<' :: decodeReferences rest
  | '&' :: 'g' :: 't' :: ';' :: rest => '>' :: decodeReferences rest
  | c :: rest => c :: decodeReferences rest
  | [] => []

def isAttributeNameChar (c : Char) : Bool :=
  c.isAlphanum || c = '-'

/-- The next attribute of a start tag with its value as written, and what follows its last quote. -/
def attributeAt? (cs : List Char) : Option ((List Char × List Char) × List Char) :=
  let text := cs.dropWhile (· = ' ')
  match text.dropWhile isAttributeNameChar with
  | '=' :: '"' :: quoted =>
    match quoted.dropWhile (· ≠ '"') with
    | _ :: rest =>
      some ((text.takeWhile isAttributeNameChar, quoted.takeWhile (· ≠ '"')), rest)
    | [] => none
  | _ => none

theorem attributeAt_shorter {cs rest : List Char} {a : List Char × List Char}
    (h : attributeAt? cs = some (a, rest)) : rest.length < cs.length := by
  have htext := (List.dropWhile_suffix (· = ' ') (l := cs)).length_le
  simp only [attributeAt?] at h
  split at h
  · rename_i quoted hname
    have hquoted := (List.dropWhile_suffix isAttributeNameChar
      (l := cs.dropWhile (· = ' '))).length_le
    rw [hname] at hquoted
    split at h
    · rename_i c tail hclose
      have htail := (List.dropWhile_suffix (· ≠ '"') (l := quoted)).length_le
      rw [hclose] at htail
      simp only [Option.some.injEq, Prod.mk.injEq] at h
      obtain ⟨-, rfl⟩ := h
      simp only [List.length_cons] at hquoted htail
      omega
    · cases h
  · cases h

def attributes (cs : List Char) : List (List Char × List Char) :=
  match h : attributeAt? cs with
  | none => []
  | some (a, rest) =>
    have := attributeAt_shorter h
    a :: attributes rest
termination_by cs.length

/-- The value of an attribute of the element that a text starts with. The first of several
attributes of one name counts. -/
def attribute? (name element : String) : Option String :=
  match element.toList with
  | '<' :: tag =>
    ((attributes (tag.dropWhile (·.isAlphanum))).lookup name.toList).map fun value =>
      String.ofList (decodeReferences value)
  | _ => none

theorem decodeReferences_cons {c : Char} (h : c ≠ '&') (rest : List Char) :
    decodeReferences (c :: rest) = c :: decodeReferences rest := by
  rw [decodeReferences]
  all_goals simp_all

theorem decode_escape (s : List Char) : decodeReferences (s.flatMap escapeChar) = s := by
  induction s with
  | nil => rfl
  | cons c rest ih =>
    rw [List.flatMap_cons]
    by_cases hamp : c = '&'
    · subst c
      exact congrArg ('&' :: ·) ih
    by_cases hquot : c = '"'
    · subst c
      exact congrArg ('"' :: ·) ih
    by_cases hlt : c = '<'
    · subst c
      exact congrArg ('<' :: ·) ih
    by_cases hgt : c = '>'
    · subst c
      exact congrArg ('>' :: ·) ih
    have hplain : escapeChar c = [c] := by simp [escapeChar, hamp, hquot, hlt, hgt]
    rw [hplain, List.singleton_append, decodeReferences_cons hamp, ih]

theorem quote_not_mem_escape (s : List Char) : '"' ∉ s.flatMap escapeChar := by
  intro h
  obtain ⟨c, -, hc⟩ := List.mem_flatMap.1 h
  unfold escapeChar at hc
  split_ifs at hc with hamp hquot hlt hgt
  · revert hc
    decide
  · revert hc
    decide
  · revert hc
    decide
  · revert hc
    decide
  · exact hquot (List.mem_singleton.1 hc).symm

theorem attributeAt_written {name value : List Char} (hne : name ≠ [])
    (hname : name.all isAttributeNameChar = true) (hvalue : '"' ∉ value) (rest : List Char) :
    attributeAt? (' ' :: (name ++ '=' :: '"' :: (value ++ '"' :: rest))) =
      some ((name, value), rest) := by
  have hspace : (' ' :: (name ++ '=' :: '"' :: (value ++ '"' :: rest))).dropWhile (· = ' ') =
      name ++ '=' :: '"' :: (value ++ '"' :: rest) := by
    cases name with
    | nil => exact absurd rfl hne
    | cons c tail =>
      have hc : c ≠ ' ' := by
        rintro rfl
        exact absurd (List.all_eq_true.1 hname ' ' (by simp)) (by decide)
      simp [hc]
  have hplain : ∀ c ∈ value, (!decide (c = '"')) = true := by
    intro c hc
    simpa using ne_of_mem_of_not_mem hc hvalue
  have hall := List.all_eq_true.1 hname
  have hstop : isAttributeNameChar '=' = false := by decide
  simp only [attributeAt?, hspace, List.dropWhile_append_of_pos hall,
    List.takeWhile_append_of_pos hall, List.dropWhile_cons, List.takeWhile_cons, hstop]
  simp [List.dropWhile_append_of_pos hplain, List.takeWhile_append_of_pos hplain]

theorem attributes_written {name value : List Char} (hne : name ≠ [])
    (hname : name.all isAttributeNameChar = true) (hvalue : '"' ∉ value) (rest : List Char) :
    attributes (' ' :: (name ++ '=' :: '"' :: (value ++ '"' :: rest))) =
      (name, value) :: attributes rest := by
  have h := attributeAt_written hne hname hvalue rest
  rw [attributes]
  split
  · rename_i hnone
    rw [h] at hnone
    cases hnone
  · rename_i a tail hsome
    rw [h] at hsome
    cases hsome
    rfl

theorem attributes_tag_end (rest : List Char) : attributes ('>' :: rest) = [] := by
  rw [attributes]
  split
  · rfl
  · rename_i hsome
    exact absurd hsome (by simp [attributeAt?, isAttributeNameChar])

theorem toList_escape (s : String) : (escape s).toList = s.toList.flatMap escapeChar := by
  rw [escape, String.toList_ofList]

theorem frame_tag (f : PreviewFrame) :
    f.element.toList = '<' :: ("iframe".toList ++ ' ' :: ("sandbox".toList ++ '=' :: '"' ::
      ((String.intercalate " " f.sandbox).toList.flatMap escapeChar ++ '"' ::
        ' ' :: ("srcdoc".toList ++ '=' :: '"' :: (f.html.toList.flatMap escapeChar ++ '"' ::
          ' ' :: ("title".toList ++ '=' :: '"' :: ("Quote preview".toList ++ '"' ::
            '>' :: "</iframe>".toList))))))) := by
  have hopen : "<iframe sandbox=\"".toList =
      '<' :: ("iframe".toList ++ ' ' :: ("sandbox".toList ++ ['=', '"'])) := rfl
  have hmiddle : "\" srcdoc=\"".toList = '"' :: ' ' :: ("srcdoc".toList ++ ['=', '"']) := rfl
  have hclose : "\" title=\"Quote preview\"></iframe>".toList =
      '"' :: ' ' :: ("title".toList ++ '=' :: '"' :: ("Quote preview".toList ++ '"' ::
        '>' :: "</iframe>".toList)) := rfl
  have hparts : f.element.toList =
      "<iframe sandbox=\"".toList ++ (String.intercalate " " f.sandbox).toList.flatMap escapeChar ++
        "\" srcdoc=\"".toList ++ f.html.toList.flatMap escapeChar ++
        "\" title=\"Quote preview\"></iframe>".toList := by
    unfold PreviewFrame.element
    -- The literals are taken out of the way, or they are unfolded character by character.
    generalize "<iframe sandbox=\"" = front
    generalize "\" srcdoc=\"" = middle
    generalize "\" title=\"Quote preview\"></iframe>" = back
    simp only [String.toList_append, toList_escape]
  rw [hparts, hopen, hmiddle, hclose]
  simp only [List.append_assoc, List.cons_append, List.nil_append]

/-- A frame has three attributes, and nothing that is written into it adds one. -/
theorem attributes_frame (f : PreviewFrame) :
    ∃ tag, f.element.toList = '<' :: tag ∧ attributes (tag.dropWhile (·.isAlphanum)) =
      [("sandbox".toList, (String.intercalate " " f.sandbox).toList.flatMap escapeChar),
       ("srcdoc".toList, f.html.toList.flatMap escapeChar),
       ("title".toList, "Quote preview".toList)] := by
  refine ⟨_, frame_tag f, ?_⟩
  have hname : "iframe".toList.all Char.isAlphanum = true := by decide
  have hspace : Char.isAlphanum ' ' = false := by decide
  rw [List.dropWhile_append_of_pos (List.all_eq_true.1 hname), List.dropWhile_cons,
    if_neg (by simp [hspace]),
    attributes_written (by decide) (by decide) (quote_not_mem_escape _),
    attributes_written (by decide) (by decide) (quote_not_mem_escape _),
    attributes_written (by decide) (by decide) (by decide), attributes_tag_end]

theorem sandbox_frame (f : PreviewFrame) :
    attribute? "sandbox" f.element = some (String.intercalate " " f.sandbox) := by
  obtain ⟨tag, htag, hattributes⟩ := attributes_frame f
  simp only [attribute?, htag, hattributes]
  rw [List.lookup_cons_self, Option.map_some, decode_escape, String.ofList_toList]

theorem srcdoc_frame (f : PreviewFrame) : attribute? "srcdoc" f.element = some f.html := by
  obtain ⟨tag, htag, hattributes⟩ := attributes_frame f
  simp only [attribute?, htag, hattributes]
  have hother : ("srcdoc".toList == "sandbox".toList) = false := by decide
  rw [List.lookup_cons, hother, List.lookup_cons_self, Option.map_some, decode_escape,
    String.ofList_toList]

end QuotePress.Markup
