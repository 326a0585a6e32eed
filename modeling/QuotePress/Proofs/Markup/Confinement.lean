import QuotePress.Proofs.Markup.Reading

/-! # Markup stays in its frame

An escaped text has none of the characters that could end its attribute or its tag. So the double
quotes of a frame are the six that it is written with, and between them stand the escaped values. -/
namespace QuotePress.Markup

def references : List (List Char) :=
  ["&amp;".toList, "&quot;".toList, "&lt;".toList, "&gt;".toList]

structure Escaped (cs : List Char) : Prop where
  no_quote : '"' ∉ cs
  no_less : '<' ∉ cs
  no_greater : '>' ∉ cs
  /-- Every ampersand begins a reference. -/
  ampersand : ∀ before after, cs = before ++ '&' :: after → ∃ r ∈ references, r <+: '&' :: after

def unescape (s : String) : String :=
  String.ofList (decodeReferences s.toList)

theorem unescape_escape (s : String) : unescape (escape s) = s := by
  rw [unescape, toList_escape, decode_escape, String.ofList_toList]

theorem escapeChar_cases (c : Char) :
    escapeChar c ∈ references ∨
      escapeChar c = [c] ∧ c ≠ '&' ∧ c ≠ '"' ∧ c ≠ '<' ∧ c ≠ '>' := by
  unfold escapeChar
  split_ifs with hamp hquot hlt hgt
  · exact Or.inl (by simp [references])
  · exact Or.inl (by simp [references])
  · exact Or.inl (by simp [references])
  · exact Or.inl (by simp [references])
  · exact Or.inr ⟨rfl, hamp, hquot, hlt, hgt⟩

theorem reference_chars {r : List Char} (h : r ∈ references) :
    ∃ tail, r = '&' :: tail ∧ ∀ c ∈ tail, c ≠ '&' ∧ c ≠ '"' ∧ c ≠ '<' ∧ c ≠ '>' := by
  simp only [references, List.mem_cons, List.not_mem_nil, or_false] at h
  rcases h with rfl | rfl | rfl | rfl
  · exact ⟨"amp;".toList, rfl, by simp⟩
  · exact ⟨"quot;".toList, rfl, by simp⟩
  · exact ⟨"lt;".toList, rfl, by simp⟩
  · exact ⟨"gt;".toList, rfl, by simp⟩

theorem plain_of_mem_escape {s : List Char} {c : Char} (h : c ∈ s.flatMap escapeChar) :
    c ≠ '"' ∧ c ≠ '<' ∧ c ≠ '>' := by
  obtain ⟨d, -, hc⟩ := List.mem_flatMap.1 h
  rcases escapeChar_cases d with href | ⟨hplain, -, hmarkup⟩
  · obtain ⟨tail, htail, hchars⟩ := reference_chars href
    rw [htail] at hc
    rcases List.mem_cons.1 hc with rfl | hc
    · decide
    · exact (hchars c hc).2
  · rw [hplain, List.mem_singleton] at hc
    rwa [hc]

/-- Where an escaped character has an ampersand, it is a reference as a whole. -/
theorem ampersand_in_escapeChar {c : Char} {before after : List Char}
    (h : escapeChar c = before ++ '&' :: after) : before = [] ∧ escapeChar c ∈ references := by
  rcases escapeChar_cases c with href | ⟨hplain, hamp, -⟩
  · refine ⟨?_, href⟩
    obtain ⟨tail, htail, hchars⟩ := reference_chars href
    cases before with
    | nil => rfl
    | cons b before =>
      rw [htail, List.cons_append] at h
      have hmem : '&' ∈ tail := by
        rw [(List.cons.inj h).2]
        simp
      exact absurd rfl (hchars '&' hmem).1
  · rw [hplain] at h
    have hmem : '&' ∈ [c] := by
      rw [h]
      simp
    exact absurd (List.mem_singleton.1 hmem).symm hamp

theorem ampersand_in_escape {s before after : List Char}
    (h : s.flatMap escapeChar = before ++ '&' :: after) :
    ∃ r ∈ references, r <+: '&' :: after := by
  induction s generalizing before with
  | nil => simp at h
  | cons c s ih =>
    rw [List.flatMap_cons, List.append_eq_append_iff] at h
    rcases h with ⟨more, hbefore, hrest⟩ | ⟨more, hchar, hafter⟩
    · exact ih hrest
    · cases more with
      | nil => exact @ih [] hafter.symm
      | cons b more =>
        rw [List.cons_append] at hafter
        obtain ⟨rfl, hafter⟩ := List.cons.inj hafter
        obtain ⟨rfl, href⟩ := ampersand_in_escapeChar hchar
        refine ⟨escapeChar c, href, ?_⟩
        rw [hchar, List.nil_append, hafter]
        exact List.cons_prefix_cons.2 ⟨rfl, List.prefix_append _ _⟩

theorem escaped_escape (s : String) : Escaped (escape s).toList := by
  rw [toList_escape]
  refine ⟨quote_not_mem_escape _, ?_, ?_, fun _ _ => ampersand_in_escape⟩
  · intro h
    exact (plain_of_mem_escape h).2.1 rfl
  · intro h
    exact (plain_of_mem_escape h).2.2 rfl

/-- A frame is written with six double quotes, and its values stand between two of them. -/
theorem element_quotes (f : PreviewFrame) :
    f.element.toList =
      "<iframe sandbox=".toList ++ '"' :: ((escape (String.intercalate " " f.sandbox)).toList ++
        '"' :: (" srcdoc=".toList ++ '"' :: ((escape f.html).toList ++
          '"' :: (" title=".toList ++ '"' :: ("Quote preview".toList ++
            '"' :: "></iframe>".toList))))) := by
  rw [frame_tag, toList_escape, toList_escape]
  have hsandbox : "<iframe sandbox=".toList =
      '<' :: ("iframe".toList ++ ' ' :: ("sandbox".toList ++ ['='])) := rfl
  have hsrcdoc : " srcdoc=".toList = ' ' :: ("srcdoc".toList ++ ['=']) := rfl
  have htitle : " title=".toList = ' ' :: ("title".toList ++ ['=']) := rfl
  have hclose : "></iframe>".toList = '>' :: "</iframe>".toList := rfl
  rw [hsandbox, hsrcdoc, htitle, hclose]
  simp only [List.append_assoc, List.cons_append, List.nil_append]

theorem splitOn_quote {piece : List Char} (h : '"' ∉ piece) (rest : List Char) :
    (piece ++ '"' :: rest).splitOn '"' = piece :: rest.splitOn '"' := by
  rw [List.splitOn_append_cons_self, List.splitOn_eq_singleton h, List.singleton_append]

/-- Whatever the markup and the sandbox tokens are, a frame is one empty element with its three
attributes: cut at its double quotes it gives their values, which are escaped and stand for just the
tokens and the markup. -/
theorem frame_confined (f : PreviewFrame) :
    ∃ sandbox srcdoc : String,
      f.element = "<iframe sandbox=\"" ++ sandbox ++ "\" srcdoc=\"" ++ srcdoc ++
        "\" title=\"Quote preview\"></iframe>" ∧
      f.element.toList.splitOn '"' =
        ["<iframe sandbox=".toList, sandbox.toList, " srcdoc=".toList, srcdoc.toList,
          " title=".toList, "Quote preview".toList, "></iframe>".toList] ∧
      Escaped sandbox.toList ∧ Escaped srcdoc.toList ∧
      unescape sandbox = String.intercalate " " f.sandbox ∧ unescape srcdoc = f.html := by
  have hsandbox := escaped_escape (String.intercalate " " f.sandbox)
  have hsrcdoc := escaped_escape f.html
  refine ⟨_, _, rfl, ?_, hsandbox, hsrcdoc, unescape_escape _, unescape_escape _⟩
  rw [element_quotes, splitOn_quote (by decide), splitOn_quote hsandbox.no_quote,
    splitOn_quote (by decide), splitOn_quote hsrcdoc.no_quote, splitOn_quote (by decide),
    splitOn_quote (by decide), List.splitOn_eq_singleton (by decide)]

end QuotePress.Markup
