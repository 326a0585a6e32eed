import QuotePress.Proofs.Template.Findings

/-! # Two machines, one with a frame more

The frame of an opening that is never closed only waits. A machine that has taken the opening for
text goes along with the one that has the frame, until the frame is given up and they are alike. But
the frame takes room: at the cap the other machine opens a block where this one does not. -/
namespace QuotePress

def Token.isOpening : Token → Bool
  | .directive (.opening ..) _ _ => true
  | _ => false

namespace Machine

/-- Some opening finds no room on the stack while the block whose opening stands at `place` is
open. -/
def crowded (m : Machine) (place : Nat) : List Token → Bool
  | [] => false
  | t :: rest =>
    (t.isOpening && decide (m.frames.length ≥ 64) && decide (place ∈ m.frames.map Frame.offset)) ||
      (m.step t).crowded place rest

/-- Two machines in step. The first has a frame more, below `inner` and above `outer`; the second
has taken it for text. -/
inductive Relieved (opening : Frame) (outer : List BlockKind) :
    List BlockKind → Machine → Machine → Prop where
  | base {m : Machine} (body : List Node) (h : m.kinds = outer) :
      Relieved opening outer [] (m.enter { opening with body := body })
        (m.spill { opening with body := body })
  | enter {inner : List BlockKind} {full light : Machine} (frame : Frame)
      (h : Relieved opening outer inner full light) :
      Relieved opening outer (frame.kind :: inner) (full.enter frame) (light.enter frame)

structure Ahead (d : Diagnostic) (full light : Machine) : Prop where
  nodes : full.nodes = light.nodes
  frames : full.frames = light.frames
  findings : full.findings.Perm (d :: light.findings)

namespace Ahead

variable {d : Diagnostic} {full light : Machine}

theorem report (m : Machine) (d : Diagnostic) : Ahead d (m.report [d]) m :=
  ⟨rfl, rfl, List.perm_append_singleton d m.findings⟩

/-- Machines that differ in what was found before go on alike. -/
theorem preceded {other : Machine} (h : Ahead d full light) :
    Ahead d (other.preceded full.findings) (other.preceded light.findings) :=
  ⟨rfl, rfl, h.findings.append_right other.findings⟩

theorem step (h : Ahead d full light) (t : Token) : Ahead d (full.step t) (light.step t) := by
  rw [full.eq_preceded, light.eq_preceded, step_preceded, step_preceded, h.nodes, h.frames]
  exact h.preceded

theorem result (h : Ahead d full light) (tokens : List Token) :
    Ahead d (full.result tokens) (light.result tokens) := by
  rw [full.eq_preceded, light.eq_preceded, result_preceded, result_preceded, h.nodes, h.frames]
  exact h.preceded

end Ahead

section Steps

variable {m : Machine} {opened : List BlockKind} {kind : BlockKind} {raw : String} {offset : Nat}

theorem step_deep (h : m.frames.length ≥ 64) (name : String) :
    m.step (.directive (.opening kind name) raw offset) =
      (m.push (.text raw)).report [⟨.depthExceeded, offset, raw⟩] := by
  rw [step, if_pos h]

theorem step_unmatched (hkinds : m.kinds = opened) (h : kind ∉ opened) :
    m.step (.directive (.closing kind) raw offset) =
      (m.push (.text raw)).report [⟨.unmatchedClose, offset, raw⟩] := by
  rw [step, if_neg (hkinds ▸ h)]

end Steps

theorem pushAll_push (m : Machine) (nodes : List Node) (node : Node) :
    m.pushAll (Node.push nodes node) = (m.pushAll nodes).push node := by
  unfold Node.push
  split
  · rename_i last run hlast
    obtain ⟨front, rfl⟩ := List.getLast?_eq_some_iff.1 hlast
    rw [List.dropLast_concat, pushAll, List.foldl_concat, pushAll, List.foldl_concat,
      push_push_text]
  · exact List.foldl_concat ..

theorem result_append (m : Machine) (before after : List Token) :
    m.result (before ++ after) = (before.foldl step m).result after := by
  rw [result, List.foldl_append]
  rfl

namespace Relieved

variable {opening : Frame} {inner outer : List BlockKind} {full light : Machine}

theorem kinds_full (h : Relieved opening outer inner full light) :
    full.kinds = inner ++ opening.kind :: outer := by
  induction h with
  | base body h => exact congrArg _ h
  | enter frame h ih => exact congrArg _ ih

theorem kinds_light (h : Relieved opening outer inner full light) :
    light.kinds = inner ++ outer := by
  induction h with
  | base body h => rw [spill, kinds_pushAll, kinds_push, h, List.nil_append]
  | enter frame h ih => exact congrArg _ ih

theorem length_frames (h : Relieved opening outer inner full light) :
    full.frames.length = light.frames.length + 1 := by
  rw [Machine.length_frames h.kinds_full, Machine.length_frames h.kinds_light, List.length_append,
    List.length_append, List.length_cons, Nat.add_assoc]

theorem findings (h : Relieved opening outer inner full light) :
    full.findings = light.findings := by
  induction h with
  | base body h =>
    rw [spill, findings_pushAll, findings_push]
    rfl
  | enter frame h ih => exact ih

theorem mem_frames (h : Relieved opening outer inner full light) :
    opening.offset ∈ full.frames.map Frame.offset := by
  induction h with
  | base body h => exact List.mem_cons_self
  | enter frame h ih => exact List.mem_cons_of_mem _ ih

theorem push (h : Relieved opening outer inner full light) (node : Node) :
    Relieved opening outer inner (full.push node) (light.push node) := by
  cases h with
  | @base m body h =>
    have hbase : Relieved opening outer [] _ _ := .base (Node.push body node) h
    rwa [spill, pushAll_push] at hbase
  | enter frame h => exact h.enter { frame with body := Node.push frame.body node }

theorem pushAll (h : Relieved opening outer inner full light) (nodes : List Node) :
    Relieved opening outer inner (full.pushAll nodes) (light.pushAll nodes) := by
  induction nodes generalizing full light with
  | nil => exact h
  | cons node nodes ih => exact ih (h.push node)

theorem report (h : Relieved opening outer inner full light) (found : List Diagnostic) :
    Relieved opening outer inner (full.report found) (light.report found) := by
  induction h with
  | @base m body h =>
    have hbase :
        Relieved opening outer [] ((m.report found).enter { opening with body := body }) _ :=
      .base body h
    rwa [spill, push_report, pushAll_report] at hbase
  | enter frame h ih => exact ih.enter frame

theorem dissolve {kind : BlockKind} (h : Relieved opening outer (kind :: inner) full light) :
    Relieved opening outer inner full.dissolve light.dissolve := by
  cases h with
  | enter frame h => exact ((h.push _).pushAll _).report _

theorem close {kind : BlockKind} (h : Relieved opening outer (kind :: inner) full light) :
    Relieved opening outer inner full.close light.close := by
  cases h with
  | enter frame h => exact h.push _

theorem ahead (h : Relieved opening outer [] full light) :
    Ahead opening.finding full.dissolve light := by
  cases h with
  | base body h => exact .report _ _

theorem result_nil (h : Relieved opening outer inner full light) :
    Ahead opening.finding (full.result []) (light.result []) := by
  induction inner generalizing full light with
  | nil =>
    rw [result_dissolve h.kinds_full .ended]
    exact h.ahead.result []
  | cons kind inner ih =>
    rw [result_dissolve h.kinds_full .ended, result_dissolve h.kinds_light .ended]
    exact ih h.dissolve

/-- The close that the additional frame waits for takes it off, and its place is never heard of
again. -/
theorem own_close (h : Relieved opening outer inner full light) (hinner : opening.kind ∉ inner)
    (hnodup : full.offsets.Nodup) (raw : String) (offset : Nat) :
    opening.offset ∉ (full.step (.directive (.closing opening.kind) raw offset)).offsets := by
  induction inner generalizing full light with
  | nil =>
    rw [step_own h.kinds_full]
    cases h with
    | @base m body h =>
      have hplaces := (offsets_enter m { opening with body := body }).nodup_iff.1 hnodup
      change opening.offset ∉ (m.push _).offsets
      rw [offsets_push]
      exact (List.nodup_cons.1 hplaces).1
  | cons top inner ih =>
    obtain ⟨htop, hinner⟩ := not_or.1 (List.mem_cons.not.1 hinner)
    have hmem : opening.kind ∈ inner ++ opening.kind :: outer := by simp
    rw [step_outer h.kinds_full (Ne.symm htop) hmem]
    exact ih h.dissolve hinner (full.offsets_dissolve.nodup_iff.2 hnodup)

/-- A close of another block leaves the additional frame where it is, or takes it off as text. -/
theorem other_close (h : Relieved opening outer inner full light) {kind : BlockKind}
    (hkind : kind = opening.kind → kind ∈ inner) (raw : String) (offset : Nat) :
    let t := Token.directive (.closing kind) raw offset
    (∃ inner outer, Relieved opening outer inner (full.step t) (light.step t)) ∨
      Ahead opening.finding (full.step t) (light.step t) := by
  intro t
  by_cases hopen : kind ∈ inner ++ outer
  · induction inner generalizing full light with
    | nil =>
      have hne : opening.kind ≠ kind := fun heq => absurd (hkind heq.symm) List.not_mem_nil
      rw [step_outer h.kinds_full hne hopen]
      exact Or.inr (h.ahead.step t)
    | cons top inner ih =>
      by_cases htop : top = kind
      · subst htop
        rw [step_own h.kinds_full, step_own h.kinds_light]
        exact Or.inl ⟨_, _, h.close⟩
      · have hkind' : kind = opening.kind → kind ∈ inner := fun heq =>
          (List.mem_cons.1 (hkind heq)).resolve_left (Ne.symm htop)
        have hlight : kind ∈ inner ++ outer := (List.mem_cons.1 hopen).resolve_left (Ne.symm htop)
        have hfull : kind ∈ inner ++ opening.kind :: outer := by
          rw [List.mem_append] at hlight ⊢
          exact hlight.imp_right (List.mem_cons_of_mem _)
        rw [step_outer h.kinds_full htop hfull, step_outer h.kinds_light htop hlight]
        exact ih h.dissolve hkind' hlight
  · have hfull : kind ∉ inner ++ opening.kind :: outer := by
      rw [List.mem_append, List.mem_cons]
      rintro (hmem | rfl | hmem)
      · exact hopen (List.mem_append_left _ hmem)
      · exact hopen (List.mem_append_left _ (hkind rfl))
      · exact hopen (List.mem_append_right _ hmem)
    rw [step_unmatched h.kinds_full hfull, step_unmatched h.kinds_light hopen]
    exact Or.inl ⟨_, _, (h.push _).report _⟩

/-- With room for openings a step keeps the additional frame, or takes it off as its block, or takes
it off as text. -/
theorem step (h : Relieved opening outer inner full light) {t : Token}
    (hroom : t.isOpening = true → ¬ full.frames.length ≥ 64) :
    (∃ inner outer, Relieved opening outer inner (full.step t) (light.step t)) ∨
    (full.offsets.Nodup → opening.offset ∉ (full.step t).offsets) ∨
    Ahead opening.finding (full.step t) (light.step t) := by
  cases t with
  | text run => exact Or.inl ⟨_, _, h.push _⟩
  | directive meaning raw offset =>
    cases meaning with
    | «variable» name => exact Or.inl ⟨_, _, h.push _⟩
    | opening kind name =>
      have hfull := hroom rfl
      have hlight : ¬ light.frames.length ≥ 64 := by
        have hlength := h.length_frames
        omega
      rw [Machine.step, Machine.step, if_neg hfull, if_neg hlight]
      exact Or.inl ⟨_, _, h.enter ⟨kind, name, raw, offset, []⟩⟩
    | closing kind =>
      by_cases hown : kind = opening.kind ∧ kind ∉ inner
      · obtain ⟨rfl, hinner⟩ := hown
        exact Or.inr (Or.inl fun hnodup => h.own_close hinner hnodup raw offset)
      · have hkind : kind = opening.kind → kind ∈ inner := fun heq =>
          by_contra fun hinner => hown ⟨heq, hinner⟩
        exact (h.other_close hkind raw offset).imp_right Or.inr

end Relieved

section Runs

variable {m : Machine} {place : Nat} {tokens rest : List Token} {t : Token}

theorem crowded_cons : m.crowded place (t :: rest) = true ↔
    (t.isOpening = true ∧ m.frames.length ≥ 64 ∧ place ∈ m.frames.map Frame.offset) ∨
      (m.step t).crowded place rest = true := by
  simp only [crowded, Bool.or_eq_true, Bool.and_eq_true, decide_eq_true_eq, and_assoc]

theorem mem_frames_step (h : place ∈ (m.step t).frames.map Frame.offset) :
    t.offset? = some place ∨ place ∈ m.frames.map Frame.offset := by
  rw [m.eq_preceded, step_preceded] at h
  have hmem : place ∈ ((Machine.mk m.nodes m.frames []).step t).offsets :=
    List.mem_append_right _ h
  rcases List.mem_append.1 ((offsets_step _ t).subset hmem) with hmem | hmem
  · exact Or.inl (Option.mem_toList.1 hmem)
  · exact Or.inr hmem

theorem not_crowded (hframes : place ∉ m.frames.map Frame.offset)
    (htokens : place ∉ tokens.filterMap Token.offset?) : ¬ m.crowded place tokens = true := by
  induction tokens generalizing m with
  | nil => exact Bool.false_ne_true
  | cons t rest ih =>
    rw [Token.offset?_cons, List.mem_append, not_or] at htokens
    rw [crowded_cons, not_or]
    refine ⟨fun h => hframes h.2.2, ih (fun hmem => ?_) htokens.2⟩
    rcases mem_frames_step hmem with ht | hmem
    · exact htokens.1 (Option.mem_toList.2 ht)
    · exact hframes hmem

theorem crowded_append {before : List Token} (hframes : place ∉ m.frames.map Frame.offset)
    (hbefore : place ∉ before.filterMap Token.offset?) :
    m.crowded place (before ++ rest) = (before.foldl step m).crowded place rest := by
  induction before generalizing m with
  | nil => rfl
  | cons t before ih =>
    rw [Token.offset?_cons, List.mem_append, not_or] at hbefore
    have hstep : place ∉ (m.step t).frames.map Frame.offset := fun hmem =>
      (mem_frames_step hmem).elim (fun ht => hbefore.1 (Option.mem_toList.2 ht)) hframes
    rw [List.cons_append, crowded, decide_eq_false hframes, Bool.and_false, Bool.false_or,
      ih hstep hbefore.2, List.foldl_cons]

theorem length_dissolve_le (m : Machine) : m.dissolve.frames.length ≤ m.frames.length := by
  rw [length_frames m.kinds_dissolve, List.length_tail, length_frames rfl]
  exact Nat.sub_le _ _

theorem length_iterate_dissolve_le (m : Machine) (n : Nat) :
    (dissolve^[n] m).frames.length ≤ m.frames.length := by
  induction n generalizing m with
  | zero => exact Nat.le_refl _
  | succ n ih =>
    rw [Function.iterate_succ_apply]
    exact (ih m.dissolve).trans m.length_dissolve_le

theorem length_push (m : Machine) (node : Node) :
    (m.push node).frames.length = m.frames.length := by
  rw [length_frames (m.kinds_push node), length_frames rfl]

theorem length_close_le (m : Machine) : m.close.frames.length ≤ m.frames.length := by
  obtain ⟨nodes, frames, findings⟩ := m
  cases frames with
  | nil => exact Nat.le_refl _
  | cons frame outer =>
    exact (length_push ⟨nodes, outer, findings⟩ _).le.trans (Nat.le_succ _)

/-- The stack holds sixty-four frames at most. -/
theorem length_step_le (h : m.frames.length ≤ 64) (t : Token) : (m.step t).frames.length ≤ 64 := by
  cases t with
  | text run => rwa [step, length_push]
  | directive meaning raw offset =>
    cases meaning with
    | «variable» name => rwa [step, length_push]
    | opening kind name =>
      by_cases hfull : m.frames.length ≥ 64
      · rw [step, if_pos hfull, report, length_push]
        exact h
      · rw [step, if_neg hfull, enter, List.length_cons]
        omega
    | closing kind =>
      by_cases hopen : kind ∈ m.kinds
      · rw [step, if_pos hopen]
        exact ((length_close_le _).trans (m.length_iterate_dissolve_le _)).trans h
      · rw [step, if_neg hopen, report, length_push]
        exact h

theorem length_run_le (h : m.frames.length ≤ 64) (tokens : List Token) :
    (tokens.foldl step m).frames.length ≤ 64 := by
  induction tokens generalizing m with
  | nil => exact h
  | cons t rest ih => exact ih (length_step_le h t)

end Runs

namespace Relieved

variable {opening : Frame} {inner outer : List BlockKind} {full light : Machine}
  {tokens : List Token}

/-- Where its opening is found to be unclosed and took no other's room, the additional frame has
changed nothing else. -/
theorem result (h : Relieved opening outer inner full light) (hfresh : full.Fresh tokens)
    (hroom : ¬ full.crowded opening.offset tokens = true)
    (hfound : opening.offset ∈ (full.result tokens).offsets) :
    Ahead opening.finding (full.result tokens) (light.result tokens) := by
  induction tokens generalizing inner outer full light with
  | nil => exact h.result_nil
  | cons t rest ih =>
    rw [crowded_cons, not_or] at hroom
    have hstep : t.isOpening = true → ¬ full.frames.length ≥ 64 := fun hopens hfull =>
      hroom.1 ⟨hopens, hfull, h.mem_frames⟩
    have hcoming := hfresh.not_to_come (List.mem_append_right _ h.mem_frames)
    rw [Token.offset?_cons, List.mem_append, not_or] at hcoming
    rcases h.step hstep with ⟨_, _, hnext⟩ | hclosed | hahead
    · exact ih hnext hfresh.step hroom.2 hfound
    · have hplace := hclosed (List.nodup_append.1 hfresh).1
      rw [result_cons] at hfound
      exact absurd hfound (not_mem_result hplace hcoming.2)
    · exact hahead.result rest

theorem deep (h : Relieved opening outer inner full light) {t : Token} {rest : List Token}
    (hopens : t.isOpening = true) (hfull : full.frames.length = 64)
    (hfresh : full.Fresh (t :: rest)) :
    ∃ d ∈ (full.step t).findings, d.kind = .depthExceeded ∧
      d ∉ ((light.step t).result rest).findings := by
  cases t with
  | text run => cases hopens
  | directive meaning raw offset =>
    cases meaning with
    | «variable» name => cases hopens
    | closing kind => cases hopens
    | opening kind name =>
      have hlight : ¬ light.frames.length ≥ 64 := by
        have hlength := h.length_frames
        omega
      refine ⟨⟨.depthExceeded, offset, raw⟩, ?_, rfl, ?_⟩
      · rw [step_deep hfull.ge]
        exact List.mem_append_right _ List.mem_cons_self
      · rw [Machine.step, if_neg hlight]
        intro hmem
        obtain ⟨-, htokens, hapart⟩ := List.nodup_append.1 hfresh
        have hkind : Diagnostic.Kind.depthExceeded ≠ .unclosed := by decide
        rcases findings_result _ hmem hkind with hmem | hmem
        · have hbefore : offset ∈ full.offsets := by
            apply List.mem_append_left
            rw [h.findings]
            exact List.mem_map.2 ⟨_, hmem, rfl⟩
          exact hapart offset hbefore offset List.mem_cons_self rfl
        · exact (List.nodup_cons.1 htokens).1 hmem

/-- Where it takes the room of another opening, that one is too deep with the additional frame
only. -/
theorem crowded (h : Relieved opening outer inner full light) (hfresh : full.Fresh tokens)
    (hlength : full.frames.length ≤ 64) (hcrowded : full.crowded opening.offset tokens = true) :
    ∃ d ∈ (full.result tokens).findings, d.kind = .depthExceeded ∧
      d ∉ (light.result tokens).findings := by
  induction tokens generalizing inner outer full light with
  | nil => cases hcrowded
  | cons t rest ih =>
    have hcoming := hfresh.not_to_come (List.mem_append_right _ h.mem_frames)
    rw [Token.offset?_cons, List.mem_append, not_or] at hcoming
    by_cases hnow : t.isOpening = true ∧ full.frames.length ≥ 64
    · obtain ⟨d, hd, hkind, hlight⟩ := h.deep hnow.1 (Nat.le_antisymm hlength hnow.2) hfresh
      exact ⟨d, (full.step t).subset_result hd, hkind, hlight⟩
    · have hrest : (full.step t).crowded opening.offset rest = true := by
        refine (crowded_cons.1 hcrowded).resolve_left ?_
        exact fun ⟨hopens, hfull, _⟩ => hnow ⟨hopens, hfull⟩
      rcases h.step (fun hopens hfull => hnow ⟨hopens, hfull⟩) with ⟨_, _, hnext⟩ | hclosed | hahead
      · exact ih hnext hfresh.step (length_step_le hlength t) hrest
      · have hplace := hclosed (List.nodup_append.1 hfresh).1
        have hframes := fun hmem => hplace (List.mem_append_right _ hmem)
        exact absurd hrest (not_crowded hframes hcoming.2)
      · -- The frame is gone for good, since it stands among the findings.
        have hfinding : opening.offset ∈ (full.step t).findings.map Diagnostic.offset :=
          List.mem_map.2 ⟨opening.finding, hahead.findings.mem_iff.2 List.mem_cons_self, rfl⟩
        have hnodup := (List.nodup_append.1 hfresh.step).1
        have hframes := fun hmem =>
          (List.nodup_append.1 hnodup).2.2 _ hfinding opening.offset hmem rfl
        exact absurd hrest (not_crowded hframes hcoming.2)

end Relieved

end Machine

end QuotePress
