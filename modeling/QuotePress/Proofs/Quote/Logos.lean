import QuotePress.Proofs.Quote.Rules
import QuotePress.Proofs.Text.Base64

/-! # Embedded logos

A logo that is made from bytes carries the one text that spells them. Its source gives this text
behind the mark of base64, and the rules of a quote accept such texts only. -/
namespace QuotePress

open Text.Base64 (Spells encode decode?)

section Marks

variable {first : Char} {tail front text data before after : List Char}

/-- A mark does not begin in a text without its first character. -/
theorem infix_of_clear (hfront : first ∉ front) (h : first :: tail <:+: front ++ text) :
    first :: tail <:+: text := by
  obtain ⟨before, after, hsplit⟩ := h
  rw [List.append_assoc] at hsplit
  rcases List.append_eq_append_iff.1 hsplit with ⟨x, hx, hmark⟩ | ⟨x, hx, hmark⟩
  · cases x with
    | nil => exact ⟨[], after, by simpa using hmark⟩
    | cons c x =>
      have hfirst : first = c := (List.cons.inj hmark).1
      rw [hx, hfirst] at hfront
      exact absurd (by simp) hfront
  · exact ⟨x, after, by rw [hmark, List.append_assoc]⟩

/-- A mark stands at one place only, if it does not stand in front of it and its first character
comes neither in the rest of it nor behind it. -/
theorem marked_unique (htail : first ∉ tail) (hfront : ¬ first :: tail <:+: front)
    (hdata : first ∉ data)
    (h : front ++ first :: (tail ++ data) = before ++ first :: (tail ++ after)) :
    front = before ∧ data = after := by
  have hsame (h : first :: (tail ++ data) = first :: (tail ++ after)) : data = after :=
    List.append_cancel_left (List.cons.inj h).2
  rcases List.append_eq_append_iff.1 h with ⟨x, hx, hmark⟩ | ⟨x, hx, hmark⟩
  · cases x with
    | nil => exact ⟨by simpa using hx.symm, hsame hmark⟩
    | cons c x =>
      have hrest : tail ++ data = x ++ first :: (tail ++ after) := (List.cons.inj hmark).2
      have hmem : first ∈ tail ++ data := by simp [hrest]
      exact absurd hmem (by simp [htail, hdata])
  · cases x with
    | nil => exact ⟨by simpa using hx, hsame hmark.symm⟩
    | cons c x =>
      obtain ⟨rfl, hrest⟩ := List.cons.inj hmark
      exfalso
      -- The mark behind cannot end within the mark in front, so that one is all before it.
      rcases List.append_eq_append_iff.1 hrest with ⟨y, hy, -⟩ | ⟨y, hy, hmark⟩
      · apply hfront
        exact ⟨before, y, by rw [hx, hy]; simp⟩
      · cases y with
        | nil =>
          apply hfront
          exact ⟨before, [], by rw [hx, hy]; simp⟩
        | cons c y =>
          apply htail
          rw [hy, (List.cons.inj hmark).1]
          simp

end Marks

namespace Logo

theorem toList_mark : ";base64,".toList = ';' :: "base64,".toList := rfl

theorem source_marked {mimeType data before after : String}
    (hmime : ¬ ";base64,".toList <:+: mimeType.toList) (hdata : ';' ∉ data.toList)
    (h : (embedded mimeType data).source = before ++ ";base64," ++ after) : data = after := by
  rw [toList_mark] at hmime
  have hfront : ¬ ';' :: "base64,".toList <:+: ("data:" ++ mimeType).toList := by
    rw [String.toList_append]
    intro hinfix
    exact hmime (infix_of_clear (by decide) hinfix)
  have hlist : ("data:" ++ mimeType).toList ++ ';' :: ("base64,".toList ++ data.toList) =
      before.toList ++ ';' :: ("base64,".toList ++ after.toList) := by
    have htexts := congrArg String.toList h
    simpa only [source, String.toList_append, List.append_assoc, toList_mark,
      List.cons_append] using htexts
  exact String.toList_injective (marked_unique (by decide) hfront hdata hlist).2

theorem semicolon_not_mem_encode (bytes : List UInt8) : ';' ∉ encode bytes := by
  intro hmem
  rcases (Text.Base64.encode_spells bytes).mem_alphabet hmem with h | h
  · revert h
    decide
  · revert h
    decide

def PassesDataCheck (logo : Logo) : Prop :=
  "company.logo.data" ∉ logo.violations.map Violation.field

theorem passesDataCheck_iff {mimeType data : String} :
    (embedded mimeType data).PassesDataCheck ↔ ∃ bytes, decode? data.toList = some bytes := by
  rw [PassesDataCheck, violations, List.map_append, List.mem_append, not_or, Violation.check,
    Violation.check]
  generalize "image/".toList.isPrefixOf mimeType.toList = typed
  cases hdata : decode? data.toList with
  | none => cases typed <;> simp
  | some bytes => cases typed <;> simp

theorem reported_iff {d : QuoteDocument} {logo : Logo} (hlogo : d.company.logo = some logo) :
    "company.logo.data" ∈ d.violations.map Violation.field ↔ ¬ logo.PassesDataCheck := by
  rw [show "company.logo.data" = QuoteRule.logoData.path from rfl, mem_paths_iff, not_iff_not,
    QuoteRule.Kept]
  cases logo with
  | hosted address =>
    refine iff_of_true (by simp [hlogo]) ?_
    rw [PassesDataCheck, violations, Violation.check]
    split <;> simp
  | embedded mimeType data => simp [hlogo, passesDataCheck_iff]

/-- A logo that is made of bytes passes the check of its data, and the data in its source decodes to
the bytes. Data that passes the check is the one text of some bytes, so different data that passes
decodes to different bytes. -/
theorem data_exact :
    (∀ (d : QuoteDocument) (logo : Logo), d.company.logo = some logo →
      ("company.logo.data" ∈ d.violations.map Violation.field ↔ ¬ logo.PassesDataCheck)) ∧
    (∀ mimeType bytes, (ofBytes mimeType bytes).PassesDataCheck ∧
      (¬ ";base64,".toList <:+: mimeType.toList →
        (∃ before after, (ofBytes mimeType bytes).source = before ++ ";base64," ++ after) ∧
        ∀ before after, (ofBytes mimeType bytes).source = before ++ ";base64," ++ after →
          decode? after.toList = some bytes)) ∧
    (∀ mimeType data, (embedded mimeType data).PassesDataCheck ↔
      ∃ bytes, embedded mimeType data = ofBytes mimeType bytes ∧ Spells data.toList bytes) ∧
    ∀ mimeType mimeType' data data', (embedded mimeType data).PassesDataCheck →
      (embedded mimeType' data').PassesDataCheck → data ≠ data' →
        ∃ image image', decode? data.toList = some image ∧ decode? data'.toList = some image' ∧
          image ≠ image' := by
  refine ⟨fun d logo => reported_iff, ?_, ?_, ?_⟩
  · intro mimeType bytes
    have hdecode : decode? (String.ofList (encode bytes)).toList = some bytes := by
      rw [String.toList_ofList, Text.Base64.decode?_encode]
    refine ⟨passesDataCheck_iff.2 ⟨bytes, hdecode⟩, ?_⟩
    intro hmime
    refine ⟨⟨"data:" ++ mimeType, _, rfl⟩, ?_⟩
    intro before after hsource
    have hsemicolon : ';' ∉ (String.ofList (encode bytes)).toList := by
      rw [String.toList_ofList]
      exact semicolon_not_mem_encode bytes
    rw [← source_marked hmime hsemicolon hsource, hdecode]
  · intro mimeType data
    rw [passesDataCheck_iff]
    constructor
    · rintro ⟨bytes, hbytes⟩
      have hspells := Text.Base64.decode?_eq_some_iff.1 hbytes
      refine ⟨bytes, ?_, hspells⟩
      rw [ofBytes, ← hspells.unique (Text.Base64.encode_spells bytes), String.ofList_toList]
    · rintro ⟨bytes, -, hspells⟩
      exact ⟨bytes, Text.Base64.decode?_eq_some_iff.2 hspells⟩
  · intro mimeType mimeType' data data' hdata hdata' hne
    obtain ⟨image, himage⟩ := passesDataCheck_iff.1 hdata
    obtain ⟨image', himage'⟩ := passesDataCheck_iff.1 hdata'
    refine ⟨image, image', himage, himage', ?_⟩
    rintro rfl
    apply hne
    apply String.toList_injective
    exact (Text.Base64.decode?_eq_some_iff.1 himage).unique
      (Text.Base64.decode?_eq_some_iff.1 himage')

/-- Two images of four bytes. -/
theorem data_exact_png :
    let bytes : List UInt8 := [0x89, 0x50, 0x4e, 0x47]
    let d : QuoteDocument := ⟨{ logo := some (ofBytes "image/png" bytes) }, {}, Quote.blank⟩
    "company.logo.data" ∉ d.violations.map Violation.field ∧
      (ofBytes "image/png" bytes).source = "data:image/png" ++ ";base64," ++ "iVBORw==" ∧
      decode? "iVBORw==".toList = some bytes ∧
      ∃ image image', decode? "iVBORw==".toList = some image ∧
        decode? "iVBORg==".toList = some image' ∧ image ≠ image' := by
  intro bytes d
  obtain ⟨hreported, hmade, hpasses, hdistinct⟩ := data_exact
  obtain ⟨hpassed, hsource⟩ := hmade "image/png" bytes
  have hmime : ¬ ";base64,".toList <:+: "image/png".toList := by decide
  have hembedded : (ofBytes "image/png" bytes).source =
      "data:image/png" ++ ";base64," ++ "iVBORw==" := by decide
  have hother : (embedded "image/png" "iVBORg==").PassesDataCheck :=
    passesDataCheck_iff.2 ⟨[0x89, 0x50, 0x4e, 0x46], by decide⟩
  refine ⟨?_, hembedded, (hsource hmime).2 _ _ hembedded, ?_⟩
  · rw [hreported d _ rfl, Classical.not_not]
    exact hpassed
  · exact hdistinct "image/png" "image/png" _ _ hpassed hother (by decide)

end Logo

end QuotePress
