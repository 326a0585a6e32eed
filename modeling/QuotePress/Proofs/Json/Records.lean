import QuotePress.Json.Decode
import QuotePress.Proofs.Json.Tree
import Mathlib.Data.List.Nodup

/-! # Records are decoded as they were written

A record that is written with all of its fields, in their order, is taken field by field. So it is
enough that each field takes its own value. -/
namespace QuotePress.Json

variable {α β : Type} {levels : Nat}

def Decodes (decoder : Decoder α) (levels : Nat) (j : Json) (a : α) : Prop :=
  decoder levels (Reading.ofJson j) = .ok a

theorem decode_render {decoder : Decoder α} {j : Json} {a : α} (h : Decodes decoder maxLevels j a)
    (hlegible : Legible j) (layout : Layout) :
    decode decoder (String.ofList (j.render layout)) = .ok a := by
  rw [decode, Reading.ofText_render hlegible layout]
  exact congrArg (· >>= _) h

theorem Decodes.map_set {decoder : Decoder β} {j : Json} {b : β} (h : Decodes decoder levels j b)
    (name : String) (required : Bool) (set : β → α → α) (a : α) :
    (RecordField.of name required decoder set).put levels (Reading.ofJson j) a =
      .ok (set b a) := by
  exact congrArg (Except.map fun b => set b a) h

inductive Fills (levels : Nat) : List (RecordField α) → List (String × Json) → α → α → Prop where
  | nil (a : α) : Fills levels [] [] a a
  | cons {field : RecordField α} {j : Json} {a next b : α} {fields : List (RecordField α)}
      {members : List (String × Json)}
      (hput : field.put levels (Reading.ofJson j) a = .ok next)
      (hrest : Fills levels fields members next b) :
      Fills levels (field :: fields) ((field.name, j) :: members) a b

theorem find?_name {fields : List (RecordField α)} (hnames : (fields.map (·.name)).Nodup)
    {field : RecordField α} (h : field ∈ fields) :
    fields.find? (·.name = field.name) = some field := by
  induction fields with
  | nil => cases h
  | cons first rest ih =>
    obtain ⟨hfirst, hrest⟩ := List.nodup_cons.1 hnames
    rcases List.mem_cons.1 h with rfl | h
    · rw [List.find?_cons_of_pos (by simp)]
    · have hother : first.name ≠ field.name := by
        intro hsame
        exact hfirst (List.mem_map.2 ⟨field, h, hsame.symm⟩)
      rw [List.find?_cons_of_neg (by simp [hother]), ih hrest h]

namespace Decoder

/-- The members are taken in turn, as long as no name comes a second time. -/
theorem members_fills {all fields : List (RecordField α)} {written : List (String × Json)}
    {a b : α} (h : Fills levels fields written a b) (hall : (all.map (·.name)).Nodup)
    (hknown : ∀ field ∈ fields, field ∈ all) (hnames : (fields.map (·.name)).Nodup)
    {seen : List String} (hseen : ∀ field ∈ fields, field.name ∉ seen) :
    members all levels none (Reading.ofMembers written) seen a =
      .ok ((fields.map (·.name)).reverse ++ seen, b) := by
  induction h generalizing seen with
  | nil a => rfl
  | @cons field j a next b fields written hput hrest ih =>
    obtain ⟨hfresh, hnames⟩ := List.nodup_cons.1 hnames
    have hfield : all.find? (·.name = field.name) = some field :=
      find?_name hall (hknown _ List.mem_cons_self)
    rw [Reading.ofMembers, members]
    simp only [Reading.keyText, liftFault, bind, Except.bind, hfield]
    rw [if_neg (hseen _ List.mem_cons_self), hput]
    dsimp only
    refine (ih (fun f hf => hknown f (List.mem_cons_of_mem _ hf)) hnames ?_).trans ?_
    · intro f hf hmem
      rcases List.mem_cons.1 hmem with hsame | hmem
      · exact hfresh (List.mem_map.2 ⟨f, hf, hsame⟩)
      · exact hseen f (List.mem_cons_of_mem _ hf) hmem
    · simp

theorem ofMembers_fills {fields : List (RecordField α)} {start a : α}
    {written : List (String × Json)} (hnames : (fields.map (·.name)).Nodup)
    (h : Fills levels fields written start a) :
    ofMembers fields start levels none (Reading.ofMembers written) = .ok a := by
  have hunseen : ∀ field ∈ fields, field.name ∉ ([] : List String) := fun _ _ => List.not_mem_nil
  have hmembers := members_fills h hnames (fun _ hfield => hfield) hnames hunseen
  have hmissing : checkMissing fields ((fields.map (·.name)).reverse ++ []) = .ok () := by
    rw [checkMissing]
    split
    · rename_i field hfind
      have hlacking := List.find?_some hfind
      simp only [List.append_nil, Bool.and_eq_true, Bool.not_eq_true', List.contains_eq_mem,
        List.mem_reverse, decide_eq_false_iff_not] at hlacking
      exact absurd (List.mem_map_of_mem (List.mem_of_find?_eq_some hfind)) hlacking.2
    · rfl
  rw [ofMembers, hmembers]
  change (checkMissing _ _ >>= _) = _
  rw [hmissing]
  rfl

/-- A record that is written in full is decoded. -/
theorem record_fills (name : String) {fields : List (RecordField α)} {start a : α}
    {written : List (String × Json)} (hnames : (fields.map (·.name)).Nodup)
    (h : Fills levels fields written start a) :
    Decodes (record name fields start) (levels + 1) (.object written) a := by
  rw [Decodes, Reading.ofJson, record, enter]
  simp only [Nat.add_one_ne_zero, ↓reduceIte, Nat.add_sub_cancel]
  exact ofMembers_fills hnames h

theorem splitTag_rest {tag : String} {variants : List (String × β)} (b : β)
    {written : List (String × Json)} (hsafe : ∀ member ∈ written,
      member.1 ≠ tag ∧ (Reading.ofJson member.2).valueFault levels = none) :
    splitTag tag variants levels none (Reading.ofMembers written) (some b) =
      .ok (some b, Reading.ofMembers written) := by
  induction written with
  | nil => rfl
  | cons member rest ih =>
    obtain ⟨hname, hvalue⟩ := hsafe member List.mem_cons_self
    rw [Reading.ofMembers, splitTag]
    simp only [Reading.keyText, liftFault]
    change (if member.1 = tag then _ else _) = _
    rw [if_neg hname, hvalue]
    change (splitTag tag variants levels none (Reading.ofMembers rest) (some b) >>= _) = _
    rw [ih fun other hother => hsafe other (List.mem_cons_of_mem _ hother)]
    rfl

/-- A tag in front, and the members of the record that it names, are decoded to the record. -/
theorem tagged_fills (name tag : String) {code : String} {variants : List (String × Tagged α)}
    {variant : Tagged α} {written : List (String × Json)} {a : α}
    (hcode : variants.lookup code = some variant) (hsafe : ∀ member ∈ written,
      member.1 ≠ tag ∧ (Reading.ofJson member.2).valueFault levels = none)
    (hnames : (variant.fields.map (·.name)).Nodup)
    (h : Fills levels variant.fields written variant.start a) :
    Decodes (tagged name tag variants) (levels + 1) (.object ((tag, .string code) :: written))
      a := by
  have hsplit : splitTag tag variants levels none
      (Reading.ofMembers ((tag, .string code) :: written)) none =
        .ok (some variant, Reading.ofMembers written) := by
    rw [Reading.ofMembers, splitTag]
    simp only [Reading.keyText, liftFault]
    change (if tag = tag then _ else _) = _
    rw [if_pos rfl]
    change (Decoder.variant variants code >>= _) = _
    rw [Decoder.variant, hcode]
    exact splitTag_rest variant hsafe
  rw [Decodes, Reading.ofJson, tagged, enter]
  simp only [Nat.add_one_ne_zero, ↓reduceIte, Nat.add_sub_cancel]
  change (splitTag tag variants levels none _ none >>= _) = _
  rw [hsplit]
  exact ofMembers_fills hnames h

theorem decodes_list {decoder : Decoder α} (toJson : α → Json) (as : List α)
    (h : ∀ a ∈ as, Decodes decoder levels (toJson a) a) :
    Decodes (list decoder) (levels + 1) (.array (as.map toJson)) as := by
  rw [Decodes, Reading.ofJson, list, enter]
  simp only [Nat.add_one_ne_zero, ↓reduceIte, Nat.add_sub_cancel]
  change items decoder levels none _ = _
  induction as with
  | nil => rfl
  | cons a as ih =>
    rw [List.map_cons, Reading.ofItems, items, h a List.mem_cons_self,
      ih fun b hb => h b (List.mem_cons_of_mem _ hb)]
    rfl

theorem decodes_optional {decoder : Decoder α} (toJson : α → Json) (a : Option α)
    (h : ∀ b, a = some b → Decodes decoder levels (toJson b) b)
    (hnull : ∀ b, a = some b → (Reading.ofJson (toJson b)).isNull = false) :
    Decodes (optional decoder) levels ((a.map toJson).getD .null) a := by
  cases a with
  | none => rfl
  | some b =>
    rw [Decodes, Option.map_some, Option.getD_some, optional, if_neg (by simp [hnull b rfl]),
      h b rfl]
    rfl

theorem decodes_word (n : UInt32) : Decodes word levels (.ofNat n.toNat) n := by
  have hsize : (n.toNat : Int) < UInt32.size := Int.ofNat_lt.2 n.toNat_lt
  rw [Decodes, Json.ofNat, Reading.ofJson, word, if_pos ⟨Int.natCast_nonneg _, hsize⟩,
    Int.toNat_natCast, UInt32.ofNat_toNat]

end Decoder

end QuotePress.Json
