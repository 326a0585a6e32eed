import QuotePress.Proofs.Template.Tokens
import Mathlib.Order.Bounds.Defs

/-! # Spans of a text

Stretches of a text that are cut out by byte offsets. A cut is at fault unless both of its bounds
are positions between characters, in order. ASCII that is found among the bytes of a text stands
at such a position. -/
namespace QuotePress.Text

structure Span where
  start : Nat
  stop : Nat
  deriving DecidableEq, Repr

/-- The bounds are in order and within the text, and neither of them is inside a character. -/
structure Span.Within (s : String) (span : Span) : Prop where
  ordered : span.start ≤ span.stop
  bounded : span.stop ≤ s.utf8ByteSize
  start_whole : String.Pos.Raw.IsValid s ⟨span.start⟩
  stop_whole : String.Pos.Raw.IsValid s ⟨span.stop⟩

instance (s : String) (span : Span) : Decidable (span.Within s) :=
  decidable_of_iff
    ((span.start ≤ span.stop ∧ span.stop ≤ s.utf8ByteSize) ∧
      String.Pos.Raw.IsValid s ⟨span.start⟩ ∧ String.Pos.Raw.IsValid s ⟨span.stop⟩)
    ⟨fun ⟨⟨h, hb⟩, hs, ht⟩ => ⟨h, hb, hs, ht⟩, fun ⟨h, hb, hs, ht⟩ => ⟨⟨h, hb⟩, hs, ht⟩⟩

def Span.text {s : String} (span : Span) (h : span.Within s) : String :=
  s.extract (s.pos ⟨span.start⟩ h.start_whole) (s.pos ⟨span.stop⟩ h.stop_whole)

/-- Work that cuts spans out of texts. The spans asked for are logged in order. Work ends at a
fault, which is the span that was not within its text. -/
abbrev Cutting := EStateM Span (List Span)

instance resultDecidableEq {ε σ α : Type} [DecidableEq ε] [DecidableEq σ] [DecidableEq α] :
    DecidableEq (EStateM.Result ε σ α)
  | .ok a s, .ok b t => decidable_of_iff (a = b ∧ s = t) (by simp)
  | .error e s, .error f t => decidable_of_iff (e = f ∧ s = t) (by simp)
  | .ok _ _, .error _ _ => isFalse (by simp)
  | .error _ _, .ok _ _ => isFalse (by simp)

def cut (s : String) (span : Span) : Cutting String := do
  modify (· ++ [span])
  if h : span.Within s then return span.text h else throw span

structure Span.Covers (s : String) (span : Span) (before piece after : List Char) : Prop where
  parts : s.toList = before ++ piece ++ after
  start_eq : span.start = byteCount before
  stop_eq : span.stop = byteCount before + byteCount piece

section Parts

variable {s : String} {span : Span} {before piece after : List Char}

theorem utf8ByteSize_eq_byteCount (s : String) : s.utf8ByteSize = byteCount s.toList := by
  rw [utf8ByteSize_eq_sum, byteCount_eq_sum]

theorem isValid_of_parts (h : s.toList = before ++ after) :
    String.Pos.Raw.IsValid s ⟨byteCount before⟩ := by
  rw [String.Pos.Raw.isValid_iff_exists_append]
  refine ⟨String.ofList before, String.ofList after, ?_, ?_⟩
  · rw [← String.ofList_append, ← h, String.ofList_toList]
  · rw [String.Pos.Raw.ext_iff, String.byteIdx_rawEndPos, utf8ByteSize_eq_byteCount,
      String.toList_ofList]

theorem Span.Covers.within (h : span.Covers s before piece after) : span.Within s where
  ordered := by
    rw [h.start_eq, h.stop_eq]
    exact Nat.le_add_right ..
  bounded := by
    rw [h.stop_eq, utf8ByteSize_eq_byteCount, h.parts, byteCount_append, byteCount_append]
    exact Nat.le_add_right ..
  start_whole := by
    rw [h.start_eq]
    exact isValid_of_parts (h.parts.trans (List.append_assoc ..))
  stop_whole := by
    rw [h.stop_eq, ← byteCount_append]
    exact isValid_of_parts h.parts

theorem Span.Covers.text_eq (h : span.Covers s before piece after) :
    span.text h.within = String.ofList piece := by
  have hbytes : s.toByteArray = (String.ofList before).toByteArray ++
      ((String.ofList piece).toByteArray ++ (String.ofList after).toByteArray) := by
    rw [← String.toByteArray_append, ← String.toByteArray_append, ← String.ofList_append,
      ← String.ofList_append, ← List.append_assoc, ← h.parts, String.ofList_toList]
  have hsize (cs : List Char) : (String.ofList cs).toByteArray.size = byteCount cs := by
    rw [String.size_toByteArray, utf8ByteSize_eq_byteCount, String.toList_ofList]
  have hskip (tail : ByteArray) : ((String.ofList before).toByteArray ++ tail).extract
      (byteCount before) (byteCount before + byteCount piece) =
        tail.extract 0 (byteCount piece) :=
    ByteArray.extract_append_size_add' (i := 0) (hsize before).symm
  apply String.toByteArray_inj.1
  rw [Span.text, String.toByteArray_extract, String.offset_pos, String.offset_pos, hbytes,
    h.start_eq, h.stop_eq, hskip, ByteArray.extract_append_eq_left (hsize piece).symm]

end Parts

structure Takes {α : Type} (s : String) (work : Cutting α) (spans : List Span) (a : α) : Prop where
  run : ∀ log, work log = .ok a (log ++ spans)
  within : ∀ span ∈ spans, span.Within s

namespace Takes

variable {α β : Type} {s : String} {work : Cutting α} {spans more : List Span} {a : α} {b : β}

theorem pure (s : String) (a : α) : Takes s (pure a) [] a :=
  ⟨fun log => congrArg (EStateM.Result.ok a) (List.append_nil log).symm, nofun⟩

theorem bind {next : α → Cutting β} (h : Takes s work spans a) (hnext : Takes s (next a) more b) :
    Takes s (work >>= next) (spans ++ more) b where
  run log := by
    have hbind : (work >>= next) log = next a (log ++ spans) := by
      simp only [Bind.bind, EStateM.bind, h.run]
    rw [hbind, hnext.run, List.append_assoc]
  within span hspan := (List.mem_append.1 hspan).elim (h.within span) (hnext.within span)

theorem cut {span : Span} {before piece after : List Char}
    (h : span.Covers s before piece after) :
    Takes s (Text.cut s span) [span] (String.ofList piece) where
  run log := by
    have hrun : Text.cut s span log = (if h : span.Within s then Pure.pure (span.text h)
        else throw span : Cutting String) (log ++ [span]) := rfl
    rw [hrun, dif_pos h.within, h.text_eq]
    rfl
  within other hother := by
    cases List.mem_singleton.1 hother
    exact h.within

end Takes

def FirstFrom (s : String) (word : List Char) (low n : Nat) : Prop :=
  IsLeast {p | low ≤ p ∧ encode word <+: (bytes s).drop p} n

theorem length_encode_eq_byteCount (cs : List Char) : (encode cs).length = byteCount cs := by
  rw [length_encode, byteCount_eq_sum]

theorem not_ascii_inside {w c : Char} {p : Nat} (hw : w.toNat < 128) (hp : p ≠ 0)
    (hlt : p < c.utf8Size) (word cs : List Char) :
    ¬ encode (w :: word) <+: (encode (c :: cs)).drop p := by
  intro h
  have hlength := String.length_utf8EncodeChar c
  obtain ⟨byte, rest, hrest⟩ : ∃ byte rest, (String.utf8EncodeChar c).drop p = byte :: rest :=
    List.exists_cons_of_ne_nil (by rw [ne_eq, List.drop_eq_nil_iff]; omega)
  have hparts : String.utf8EncodeChar c = (String.utf8EncodeChar c).take p ++ byte :: rest := by
    rw [← hrest, List.take_append_drop]
  have hwide := encode_inside hparts (by simp [hp])
  rw [encode_cons, encode_ascii hw, List.singleton_append, encode_cons, List.drop_append, hrest,
    List.cons_append, List.cons_prefix_cons] at h
  rw [← h.1, UInt8.toNat_ofNat'] at hwide
  omega

theorem boundary_of_ascii {word cs : List Char} {p : Nat} (hword : word ≠ [])
    (hascii : ∀ c ∈ word, c.toNat < 128) (h : encode word <+: (encode cs).drop p) :
    ∃ a b, cs = a ++ b ∧ byteCount a = p ∧ word <+: b := by
  obtain ⟨w, rest, hcons⟩ := List.exists_cons_of_ne_nil hword
  induction cs generalizing p with
  | nil =>
    rw [hcons, encode_cons, show encode [] = [] from rfl, List.drop_nil, List.prefix_nil,
      List.append_eq_nil_iff] at h
    exact absurd h.1 (encode_ne_nil w)
  | cons c cs ih =>
    by_cases hzero : p = 0
    · subst hzero
      have hmap := h.map byteChar
      rw [encode_all_ascii hascii, List.drop_zero] at hmap
      exact ⟨[], c :: cs, rfl, rfl, prefix_of_encode hascii hmap⟩
    · by_cases hlong : c.utf8Size ≤ p
      · have hlength := String.length_utf8EncodeChar c
        rw [encode_cons, List.drop_append, List.drop_of_length_le (by omega), List.nil_append,
          hlength] at h
        obtain ⟨a, b, rfl, hcount, hfront⟩ := ih h
        exact ⟨c :: a, b, rfl, by rw [byteCount, hcount]; omega, hfront⟩
      · rw [hcons] at h
        have hw := hascii w (hcons ▸ List.mem_cons_self)
        exact absurd h (not_ascii_inside hw hzero (Nat.lt_of_not_le hlong) rest cs)

/-- The first pair among the characters is the first among the bytes. -/
theorem firstFrom_of_split {s : String} {c : Char} {front cs before after : List Char}
    (hc : c.toNat < 128) (hs : s.toList = front ++ cs)
    (hsplit : splitAtPair c cs = some (before, after)) :
    FirstFrom s [c, c] (byteCount front) (byteCount front + byteCount before) := by
  have hdrop (p : Nat) : (bytes s).drop (byteCount front + p) = (encode cs).drop p := by
    rw [bytes_eq_encode, hs, encode_append, ← length_encode_eq_byteCount, List.drop_append,
      List.drop_of_length_le (Nat.le_add_right ..), Nat.add_sub_cancel_left, List.nil_append]
  constructor
  · refine ⟨Nat.le_add_right .., ?_⟩
    rw [hdrop, append_of_splitAtPair hsplit, encode_append, ← length_encode_eq_byteCount,
      List.drop_left]
    exact ⟨encode after, by rw [← encode_append]; rfl⟩
  · rintro p ⟨hlow, hpair⟩
    obtain ⟨q, rfl⟩ := Nat.exists_eq_add_of_le hlow
    rw [hdrop] at hpair
    obtain ⟨a, b, rfl, rfl, hfront⟩ := boundary_of_ascii (by simp) (by simp [hc]) hpair
    by_contra hearly
    have hparts := append_of_splitAtPair hsplit
    rcases List.append_eq_append_iff.1 hparts with ⟨d, rfl, rfl⟩ | ⟨d, rfl, -⟩
    · have hd : d ≠ [] := by
        rintro rfl
        simp at hearly
      exact splitAtPair_none_inside hsplit rfl hd hfront
    · rw [byteCount_append] at hearly
      omega

end QuotePress.Text
