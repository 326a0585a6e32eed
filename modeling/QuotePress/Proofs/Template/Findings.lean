import QuotePress.Proofs.Template.StackMachine
import Mathlib.Data.List.Perm.Subperm

/-! # What the machine has found

Findings pile up and steer nothing. Each is made at a place of its own: that of the token just read,
or that of an opening taken off the stack. -/
namespace QuotePress

def Token.offset? (t : Token) : Option Nat := t.place?.map Prod.fst

theorem Token.offset?_cons (t : Token) (rest : List Token) :
    (t :: rest).filterMap offset? = t.offset?.toList ++ rest.filterMap offset? := by
  cases h : t.offset? with
  | none => rw [List.filterMap_cons_none h, Option.toList_none, List.nil_append]
  | some offset => rw [List.filterMap_cons_some h, Option.toList_some, List.singleton_append]

def Frame.finding (f : Frame) : Diagnostic := ⟨.unclosed, f.offset, f.raw⟩

namespace Machine

def preceded (m : Machine) (found : List Diagnostic) : Machine :=
  { m with findings := found ++ m.findings }

def spill (m : Machine) (frame : Frame) : Machine :=
  (m.push (.text frame.raw)).pushAll frame.body

def offsets (m : Machine) : List Nat :=
  m.findings.map Diagnostic.offset ++ m.frames.map Frame.offset

def Fresh (m : Machine) (tokens : List Token) : Prop :=
  (m.offsets ++ tokens.filterMap Token.offset?).Nodup

theorem dissolve_enter (m : Machine) (frame : Frame) :
    (m.enter frame).dissolve = (m.spill frame).report [frame.finding] := rfl

section Preceded

variable (m : Machine) (found : List Diagnostic)

theorem push_preceded (node : Node) :
    (m.preceded found).push node = (m.push node).preceded found := by
  obtain ⟨nodes, frames, findings⟩ := m
  cases frames <;> rfl

theorem pushAll_preceded (nodes : List Node) :
    (m.preceded found).pushAll nodes = (m.pushAll nodes).preceded found := by
  induction nodes generalizing m with
  | nil => rfl
  | cons node nodes ih => rw [pushAll_cons, push_preceded, ih, pushAll_cons]

theorem report_preceded (more : List Diagnostic) :
    (m.preceded found).report more = (m.report more).preceded found := by
  simp only [report, preceded, List.append_assoc]

theorem dissolve_preceded : (m.preceded found).dissolve = m.dissolve.preceded found := by
  obtain ⟨nodes, frames, findings⟩ := m
  cases frames with
  | nil => rfl
  | cons frame outer =>
    change ((Machine.mk nodes outer findings).preceded found |>.enter frame).dissolve = _
    rw [dissolve_enter, spill, push_preceded, pushAll_preceded, report_preceded]
    rfl

theorem close_preceded : (m.preceded found).close = m.close.preceded found := by
  obtain ⟨nodes, frames, findings⟩ := m
  cases frames with
  | nil => rfl
  | cons frame outer => exact push_preceded ⟨nodes, outer, findings⟩ found _

theorem iterate_dissolve_preceded (n : Nat) :
    dissolve^[n] (m.preceded found) = (dissolve^[n] m).preceded found := by
  induction n generalizing m with
  | zero => rfl
  | succ n ih =>
    rw [Function.iterate_succ_apply, dissolve_preceded, ih, Function.iterate_succ_apply]

/-- What was found before does not steer the machine. -/
theorem step_preceded (t : Token) : (m.preceded found).step t = (m.step t).preceded found := by
  cases t with
  | text run => exact push_preceded m found _
  | directive meaning raw offset =>
    cases meaning with
    | «variable» name => exact push_preceded m found _
    | opening kind name =>
      by_cases h : m.frames.length ≥ 64
      · rw [step, step, if_pos h, ← report_preceded, ← push_preceded]
        exact if_pos h
      · rw [step, step, if_neg h]
        exact if_neg h
    | closing kind =>
      by_cases h : kind ∈ m.kinds
      · rw [step, step, if_pos h, ← close_preceded, ← iterate_dissolve_preceded]
        exact if_pos h
      · rw [step, step, if_neg h, ← report_preceded, ← push_preceded]
        exact if_neg h

theorem result_preceded (tokens : List Token) :
    (m.preceded found).result tokens = (m.result tokens).preceded found := by
  induction tokens generalizing m with
  | nil => exact iterate_dissolve_preceded m found m.frames.length
  | cons t rest ih => rw [result_cons, step_preceded, ih, result_cons]

theorem eq_preceded : m = (Machine.mk m.nodes m.frames []).preceded m.findings := by
  simp only [preceded, List.append_nil]

theorem subset_result {tokens : List Token} {d : Diagnostic} (h : d ∈ m.findings) :
    d ∈ (m.result tokens).findings := by
  rw [m.eq_preceded, result_preceded]
  exact List.mem_append_left _ h

end Preceded

section Places

variable (m : Machine)

theorem offsets_push (node : Node) : (m.push node).offsets = m.offsets := by
  obtain ⟨nodes, frames, findings⟩ := m
  cases frames <;> rfl

theorem offsets_pushAll (nodes : List Node) : (m.pushAll nodes).offsets = m.offsets := by
  induction nodes generalizing m with
  | nil => rfl
  | cons node nodes ih => rw [pushAll_cons, ih, offsets_push]

theorem offsets_report (d : Diagnostic) : (m.report [d]).offsets.Perm (d.offset :: m.offsets) := by
  rw [offsets, report, List.map_append, List.map_singleton, List.append_assoc]
  exact List.perm_middle

theorem offsets_enter (frame : Frame) :
    (m.enter frame).offsets.Perm (frame.offset :: m.offsets) :=
  List.perm_middle

theorem offsets_dissolve : m.dissolve.offsets.Perm m.offsets := by
  obtain ⟨nodes, frames, findings⟩ := m
  cases frames with
  | nil => exact .refl _
  | cons frame outer =>
    change ((Machine.mk nodes outer findings).enter frame).dissolve.offsets.Perm
      ((Machine.mk nodes outer findings).enter frame).offsets
    rw [dissolve_enter]
    refine (offsets_report _ _).trans ?_
    rw [spill, offsets_pushAll, offsets_push]
    exact (offsets_enter _ frame).symm

theorem offsets_iterate_dissolve (n : Nat) : (dissolve^[n] m).offsets.Perm m.offsets := by
  induction n generalizing m with
  | zero => exact .refl _
  | succ n ih =>
    rw [Function.iterate_succ_apply]
    exact (ih m.dissolve).trans m.offsets_dissolve

theorem offsets_close : m.close.offsets.Sublist m.offsets := by
  obtain ⟨nodes, frames, findings⟩ := m
  cases frames with
  | nil => exact .refl _
  | cons frame outer =>
    change ((Machine.mk nodes outer findings).push _).offsets.Sublist _
    rw [offsets_push]
    exact (List.Sublist.refl _).append (List.sublist_cons_self _ _)

/-- One step adds no place but that of its token. -/
theorem offsets_step (t : Token) :
    (m.step t).offsets.Subperm (t.offset?.toList ++ m.offsets) := by
  cases t with
  | text run => exact (List.Perm.of_eq (m.offsets_push _)).subperm
  | directive meaning raw offset =>
    cases meaning with
    | «variable» name =>
      rw [step, offsets_push]
      exact (List.sublist_cons_self _ _).subperm
    | opening kind name =>
      by_cases h : m.frames.length ≥ 64
      · have hreport := offsets_report (m.push (.text raw)) ⟨.depthExceeded, offset, raw⟩
        rw [offsets_push] at hreport
        rw [step, if_pos h]
        exact hreport.subperm
      · rw [step, if_neg h]
        exact (m.offsets_enter _).subperm
    | closing kind =>
      by_cases h : kind ∈ m.kinds
      · rw [step, if_pos h]
        exact ((offsets_close _).subperm.trans (m.offsets_iterate_dissolve _).subperm).trans
          (List.sublist_cons_self _ _).subperm
      · have hreport := offsets_report (m.push (.text raw)) ⟨.unmatchedClose, offset, raw⟩
        rw [offsets_push] at hreport
        rw [step, if_neg h]
        exact hreport.subperm

variable {m} {tokens rest : List Token} {t : Token} {place : Nat}

theorem Fresh.of_subperm {other : Machine} (h : m.Fresh tokens)
    (hsub : (other.offsets ++ rest.filterMap Token.offset?).Subperm
      (m.offsets ++ tokens.filterMap Token.offset?)) : other.Fresh rest := by
  obtain ⟨kept, hperm, hsub⟩ := hsub
  exact hperm.nodup_iff.1 (List.Nodup.sublist hsub h)

theorem Fresh.step (h : m.Fresh (t :: rest)) : (m.step t).Fresh rest := by
  apply h.of_subperm
  rw [Token.offset?_cons, ← List.append_assoc]
  refine (List.subperm_append_right _).2 ((m.offsets_step t).trans ?_)
  exact List.perm_append_comm.subperm

theorem Fresh.run {before : List Token} (h : m.Fresh (before ++ rest)) :
    (before.foldl Machine.step m).Fresh rest := by
  induction before generalizing m with
  | nil => exact h
  | cons t before ih => exact ih h.step

theorem Fresh.not_to_come (h : m.Fresh tokens) (hplace : place ∈ m.offsets) :
    place ∉ tokens.filterMap Token.offset? := fun hcoming =>
  (List.nodup_append.1 h).2.2 place hplace place hcoming rfl

/-- A place that has not come and is not to come is never there. -/
theorem not_mem_result (h : place ∉ m.offsets) (htokens : place ∉ tokens.filterMap Token.offset?) :
    place ∉ (m.result tokens).offsets := by
  induction tokens generalizing m with
  | nil => exact fun hmem => h ((m.offsets_iterate_dissolve _).subset hmem)
  | cons t rest ih =>
    rw [Token.offset?_cons, List.mem_append, not_or] at htokens
    refine ih (fun hmem => ?_) htokens.2
    rcases List.mem_append.1 ((m.offsets_step t).subset hmem) with hmem | hmem
    · exact htokens.1 hmem
    · exact h hmem

end Places

section Deep

variable (m : Machine) {d : Diagnostic}

theorem findings_push (node : Node) : (m.push node).findings = m.findings := by
  obtain ⟨nodes, frames, findings⟩ := m
  cases frames <;> rfl

theorem findings_pushAll (nodes : List Node) : (m.pushAll nodes).findings = m.findings := by
  induction nodes generalizing m with
  | nil => rfl
  | cons node nodes ih => rw [pushAll_cons, ih, findings_push]

theorem findings_close : m.close.findings = m.findings := by
  obtain ⟨nodes, frames, findings⟩ := m
  cases frames with
  | nil => rfl
  | cons frame outer => exact findings_push _ _

theorem findings_dissolve (h : d ∈ m.dissolve.findings) (hkind : d.kind ≠ .unclosed) :
    d ∈ m.findings := by
  obtain ⟨nodes, frames, findings⟩ := m
  cases frames with
  | nil => exact h
  | cons frame outer =>
    change d ∈ (((Machine.mk nodes outer findings).enter frame).dissolve).findings at h
    rw [dissolve_enter, report, spill, findings_pushAll, findings_push] at h
    rcases List.mem_append.1 h with h | h
    · exact h
    · rw [List.mem_singleton.1 h] at hkind
      exact absurd rfl hkind

theorem findings_iterate_dissolve (n : Nat) (h : d ∈ (dissolve^[n] m).findings)
    (hkind : d.kind ≠ .unclosed) : d ∈ m.findings := by
  induction n generalizing m with
  | zero => exact h
  | succ n ih => exact m.findings_dissolve (ih m.dissolve h) hkind

theorem findings_step {t : Token} (h : d ∈ (m.step t).findings) (hkind : d.kind ≠ .unclosed) :
    d ∈ m.findings ∨ t.offset? = some d.offset := by
  cases t with
  | text run =>
    rw [step, findings_push] at h
    exact Or.inl h
  | directive meaning raw offset =>
    cases meaning with
    | «variable» name =>
      rw [step, findings_push] at h
      exact Or.inl h
    | opening kind name =>
      by_cases hroom : m.frames.length ≥ 64
      · rw [step, if_pos hroom, report, findings_push] at h
        rcases List.mem_append.1 h with h | h
        · exact Or.inl h
        · rw [List.mem_singleton.1 h]
          exact Or.inr rfl
      · rw [step, if_neg hroom] at h
        exact Or.inl h
    | closing kind =>
      by_cases hopen : kind ∈ m.kinds
      · rw [step, if_pos hopen, findings_close] at h
        exact Or.inl (m.findings_iterate_dissolve _ h hkind)
      · rw [step, if_neg hopen, report, findings_push] at h
        rcases List.mem_append.1 h with h | h
        · exact Or.inl h
        · rw [List.mem_singleton.1 h]
          exact Or.inr rfl

theorem findings_result {tokens : List Token} (h : d ∈ (m.result tokens).findings)
    (hkind : d.kind ≠ .unclosed) : d ∈ m.findings ∨ d.offset ∈ tokens.filterMap Token.offset? := by
  induction tokens generalizing m with
  | nil => exact Or.inl (m.findings_iterate_dissolve _ h hkind)
  | cons t rest ih =>
    rw [Token.offset?_cons, List.mem_append]
    rcases ih (m.step t) h with h | h
    · rcases m.findings_step h hkind with h | h
      · exact Or.inl h
      · exact Or.inr (Or.inl (by rw [h, Option.toList_some, List.mem_singleton]))
    · exact Or.inr (Or.inr h)

end Deep

end Machine

end QuotePress
