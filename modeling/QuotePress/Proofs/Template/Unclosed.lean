import QuotePress.Proofs.Template.Branches
import QuotePress.Proofs.Template.Relieved
import QuotePress.Proofs.Template.Tags
import QuotePress.Template.Render

/-! # Openings that are never closed

While an opening that is never closed waits for its close, it stands on the stack like any other.
Taken for text from the start it would change nothing else, unless an opening behind it missed the
room that it takes. -/
namespace QuotePress

def Token.literalAt (place : Nat) : Token → Token
  | .text run => .text run
  | .directive meaning raw offset =>
    if offset = place then .text raw else .directive meaning raw offset

namespace Template

open Token (scan literalAt)

def ofTokens (tokens : List Token) : Template :=
  let whole := Node.stretch none [] tokens
  ⟨whole.nodes, whole.findings⟩

theorem ofTokens_scan (source : String) : ofTokens (scan source) = parse source := rfl

/-- Tokens are read as the machine reads them; it finds the same, if later. -/
theorem ofTokens_machine (tokens : List Token) :
    (ofTokens tokens).nodes = (Machine.start.result tokens).nodes ∧
      (Machine.start.result tokens).findings.Perm (ofTokens tokens).diagnostics := by
  obtain ⟨tail, found, hstop, hfound, hrun⟩ := Machine.start.result_read none [] tokens rfl rfl
  obtain rfl := hstop.outermost
  have hnodes : (Node.read none [] tokens).nodes.foldl Node.push [] =
      (Node.read none [] tokens).nodes := Node.foldl_push [] (Node.read_apart none [] tokens)
  rw [Machine.start, Machine.pushAll_outside, hnodes] at hrun
  rw [Machine.start, hrun]
  exact ⟨rfl, hfound⟩

theorem findings_unique {found others : List Diagnostic} (h : found.Perm others)
    (hfound : found.Pairwise fun a b => a.offset < b.offset)
    (hothers : others.Pairwise fun a b => a.offset < b.offset) : found = others :=
  h.eq_of_pairwise (fun _ _ _ _ hab hba => absurd hba (Nat.lt_asymm hab)) hfound hothers

end Template

namespace Token

variable {place : Nat} {tokens : List Token}

theorem literalAt_other (h : place ∉ tokens.filterMap offset?) :
    tokens.map (literalAt place) = tokens := by
  induction tokens with
  | nil => rfl
  | cons t rest ih =>
    rw [offset?_cons, List.mem_append, not_or] at h
    rw [List.map_cons, ih h.2]
    cases t with
    | text run => rfl
    | directive meaning raw offset =>
      have hne : offset ≠ place := fun heq => h.1 (heq ▸ List.mem_cons_self)
      rw [literalAt, if_neg hne]

theorem places_literalAt (tokens : List Token) :
    ((tokens.map (literalAt place)).filterMap place?).Sublist (tokens.filterMap place?) := by
  induction tokens with
  | nil => exact .refl _
  | cons t rest ih =>
    cases t with
    | text run => exact ih
    | directive meaning raw offset =>
      rw [List.map_cons, literalAt]
      split
      · exact ih.cons _
      · exact ih.cons_cons _

end Token

theorem Machine.fresh_scan (source : String) : start.Fresh (Token.scan source) := by
  have hplaces : ((Token.scan source).filterMap Token.place?).map Prod.fst =
      (Token.scan source).filterMap Token.offset? := by
    rw [List.map_filterMap]
    rfl
  rw [Fresh, ← hplaces]
  exact List.pairwise_map.2 ((scan_ascending source).imp Nat.ne_of_lt)

namespace Template

open Token (scan literalAt)

variable {source : String} {d : Diagnostic}

/-- An opening that is found to be unclosed stands among the tokens, and had room on the stack. -/
theorem opening_of_unclosed (hd : d ∈ (parse source).diagnostics) (hkind : d.kind = .unclosed) :
    ∃ before kind name after,
      scan source = before ++ .directive (.opening kind name) d.token d.offset :: after ∧
      ¬ (before.foldl Machine.step Machine.start).frames.length ≥ 64 := by
  obtain ⟨branches, htokens, -, hfindings⟩ := Branch.of_parse source
  obtain ⟨t, ht, hreports⟩ := Branch.reports_of_mem (hfindings ▸ hd)
  rw [htokens] at ht
  cases t with
  | text run => cases hreports
  | directive meaning raw offset =>
    simp only [Diagnostic.reports, Bool.and_eq_true, decide_eq_true_eq] at hreports
    obtain ⟨⟨rfl, rfl⟩, hfits⟩ := hreports
    rw [hkind] at hfits
    cases meaning with
    | «variable» name => cases hfits
    | closing kind => cases hfits
    | opening kind name =>
      obtain ⟨before, after, hsplit⟩ := List.append_of_mem ht
      refine ⟨before, kind, name, after, hsplit, ?_⟩
      intro hfull
      let deep : Diagnostic := ⟨.depthExceeded, d.offset, d.token⟩
      have hdeep : deep ∈ (Machine.start.result (scan source)).findings := by
        rw [hsplit, Machine.result_append, Machine.result_cons, Machine.step_deep hfull]
        exact Machine.subset_result _ (List.mem_append_right _ List.mem_cons_self)
      have hmem : deep ∈ (parse source).diagnostics :=
        (ofTokens_machine (scan source)).2.subset hdeep
      have hnodup : ((parse source).diagnostics.map Diagnostic.offset).Nodup :=
        List.pairwise_map.2 ((parse_ascending source).imp Nat.ne_of_lt)
      have hsame : deep = d := List.inj_on_of_nodup_map hnodup hmem hd rfl
      rw [← hsame] at hkind
      cases hkind

/-- The machines that read on behind an opening that is found to be unclosed, one with its frame and
one with its text. -/
theorem relieved_of_unclosed (hd : d ∈ (parse source).diagnostics) (hkind : d.kind = .unclosed) :
    ∃ opening outer full light after, opening.finding = d ∧
      Machine.Relieved opening outer [] full light ∧ full.Fresh after ∧ full.frames.length ≤ 64 ∧
      Machine.start.result (scan source) = full.result after ∧
      Machine.start.result ((scan source).map (literalAt d.offset)) = light.result after ∧
      Machine.start.crowded d.offset (scan source) = full.crowded d.offset after := by
  obtain ⟨before, kind, name, after, hsplit, hroom⟩ := opening_of_unclosed hd hkind
  have hfresh : Machine.start.Fresh (scan source) := Machine.fresh_scan source
  rw [hsplit] at hfresh
  have hbehind := hfresh.run
  have hcoming : d.offset ∉ before.filterMap Token.offset? ∧
      d.offset ∉ after.filterMap Token.offset? := by
    have hplaces := (List.nodup_append.1 hfresh).2.1
    have hplace : (Token.directive (.opening kind name) d.token d.offset).offset? =
        some d.offset := rfl
    rw [List.filterMap_append, List.filterMap_cons_some hplace, List.nodup_middle,
      List.nodup_cons, List.mem_append, not_or] at hplaces
    exact hplaces.1
  generalize hm : before.foldl Machine.step Machine.start = m at hroom hbehind
  let opening : Frame := ⟨kind, name, d.token, d.offset, []⟩
  have hstep : m.step (.directive (.opening kind name) d.token d.offset) = m.enter opening := by
    rw [Machine.step, if_neg hroom]
  have hout : d.offset ∉ m.frames.map Frame.offset := fun hmem =>
    hbehind.not_to_come (List.mem_append_right _ hmem) List.mem_cons_self
  refine ⟨opening, m.kinds, m.enter opening, m.push (.text d.token), after, ?_, .base [] rfl, ?_,
    ?_, ?_, ?_, ?_⟩
  · rw [Frame.finding, ← hkind]
  · rw [← hstep]
    exact hbehind.step
  · rw [← hstep, ← hm]
    exact Machine.length_step_le (Machine.length_run_le (Nat.zero_le _) before) _
  · rw [hsplit, Machine.result_append, hm, Machine.result_cons, hstep]
  · rw [hsplit, List.map_append, List.map_cons, Token.literalAt_other hcoming.1,
      Token.literalAt_other hcoming.2, literalAt, if_pos rfl, Machine.result_append, hm,
      Machine.result_cons]
    rfl
  · rw [hsplit, Machine.crowded_append List.not_mem_nil hcoming.1, hm, Machine.crowded, hstep,
      decide_eq_false hout, Bool.and_false, Bool.false_or]

/-- Without room for both, the opening that is too deep beside an unclosed one is not too deep
beside its text. -/
theorem diagnostics_ne_of_crowded (hd : d ∈ (parse source).diagnostics) (hkind : d.kind = .unclosed)
    (hcrowded : Machine.start.crowded d.offset (scan source) = true) :
    (ofTokens ((scan source).map (literalAt d.offset))).diagnostics ≠
      (parse source).diagnostics.erase d := by
  obtain ⟨opening, outer, full, light, after, rfl, h, hfresh, hlength, hfull, hlight, hsame⟩ :=
    relieved_of_unclosed hd hkind
  have hfindings := (ofTokens_machine (scan source)).2
  have hplain := (ofTokens_machine ((scan source).map (literalAt opening.finding.offset))).2
  rw [hfull] at hfindings
  rw [hlight] at hplain
  rw [hsame] at hcrowded
  obtain ⟨found, hfound, hdeep, hnot⟩ := h.crowded hfresh hlength hcrowded
  have hother : found ≠ opening.finding := by
    rintro rfl
    cases hdeep
  have hkept : found ∈ (parse source).diagnostics.erase opening.finding :=
    (List.mem_erase_of_ne hother).2 (hfindings.subset hfound)
  intro heq
  rw [← heq] at hkept
  exact hnot (hplain.mem_iff.2 hkept)

/-- An opening that is never closed changes nothing but its own text, if no opening behind it missed
the room that it took on the stack. Otherwise other findings differ too. -/
theorem unclosed_as_text (source : String) (d : Diagnostic) (hd : d ∈ (parse source).diagnostics)
    (hkind : d.kind = .unclosed) :
    let plain := ofTokens ((scan source).map (literalAt d.offset))
    (Machine.start.crowded d.offset (scan source) = false →
      plain.nodes = (parse source).nodes ∧
      plain.diagnostics = (parse source).diagnostics.erase d ∧
      ∀ scope, plain.render scope = (parse source).render scope) ∧
    (Machine.start.crowded d.offset (scan source) = true →
      plain.diagnostics ≠ (parse source).diagnostics.erase d) := by
  intro plain
  refine ⟨?_, diagnostics_ne_of_crowded hd hkind⟩
  intro hroom
  obtain ⟨opening, outer, full, light, after, rfl, h, hfresh, -, hfull, hlight, hcrowded⟩ :=
    relieved_of_unclosed hd hkind
  obtain ⟨hnodes, hfindings⟩ := ofTokens_machine (scan source)
  obtain ⟨hplainNodes, hplainFindings⟩ :=
    ofTokens_machine ((scan source).map (literalAt opening.finding.offset))
  rw [hfull] at hnodes hfindings
  rw [hlight] at hplainNodes hplainFindings
  rw [hcrowded] at hroom
  have hfound : opening.offset ∈ (full.result after).offsets :=
    List.mem_append_left _ (List.mem_map.2 ⟨opening.finding, hfindings.mem_iff.2 hd, rfl⟩)
  have hahead := h.result hfresh (Bool.eq_false_iff.1 hroom) hfound
  have hsame : plain.nodes = (parse source).nodes := by
    rw [← ofTokens_scan, hnodes, hahead.nodes]
    exact hplainNodes
  refine ⟨hsame, ?_, ?_⟩
  · have hperm : (opening.finding :: plain.diagnostics).Perm (parse source).diagnostics :=
      ((hplainFindings.cons _).symm.trans hahead.findings.symm).trans hfindings
    apply findings_unique (List.cons_perm_iff_perm_erase.1 hperm).2
    · exact Node.read_ascending ((scan_ascending source).sublist (Token.places_literalAt _))
    · exact (parse_ascending source).sublist List.erase_sublist
  · intro scope
    rw [render, hsame, render]

theorem unclosed_as_text_within :
    let source := "\x7b\x7b#each a\x7d\x7d\x7b\x7b#if b\x7d\x7dx\x7b\x7b/each\x7d\x7d"
    let d : Diagnostic := ⟨.unclosed, 11, "\x7b\x7b#if b\x7d\x7d"⟩
    (d ∈ (parse source).diagnostics ∧ d.kind = .unclosed ∧
      Machine.start.crowded d.offset (scan source) = false) ∧
    let plain := ofTokens ((scan source).map (literalAt d.offset))
    plain.nodes = (parse source).nodes ∧
      plain.diagnostics = (parse source).diagnostics.erase d ∧
      ∀ scope, plain.render scope = (parse source).render scope := by
  intro source d
  have hd : d ∈ (parse source).diagnostics := by decide +kernel
  have hroom : Machine.start.crowded d.offset (scan source) = false := by decide +kernel
  exact ⟨⟨hd, rfl, hroom⟩, (unclosed_as_text source d hd rfl).1 hroom⟩

def crowdedTokens : List Token :=
  .directive (.opening .loop "u") (BlockKind.loop.openTag " " "u") 0 ::
    (List.replicate 64
        (.directive (.opening .conditional "a") (BlockKind.conditional.openTag " " "a") 0) ++
      List.replicate 64 (.directive (.closing .conditional) BlockKind.conditional.closeTag 0))

theorem settled_crowdedTokens : Token.Settled crowdedTokens := by
  constructor
  · intro t ht
    simp only [crowdedTokens, List.mem_cons, List.mem_append, List.mem_replicate] at ht
    rcases ht with rfl | ⟨-, rfl⟩ | ⟨-, rfl⟩
    · exact Directive.written_opening_iff.2 ⟨by decide +kernel, " ", isGap_space, rfl⟩
    · exact Directive.written_opening_iff.2 ⟨by decide +kernel, " ", isGap_space, rfl⟩
    · exact Directive.written_closing_iff.2 rfl
  · unfold Apart
    decide +kernel

/-- The innermost conditional has room only where the loop in front is text. -/
theorem unclosed_takes_room :
    ¬ ∀ (source : String) (d : Diagnostic), d ∈ (parse source).diagnostics → d.kind = .unclosed →
      let plain := ofTokens ((scan source).map (literalAt d.offset))
      plain.nodes = (parse source).nodes ∧
        plain.diagnostics = (parse source).diagnostics.erase d ∧
        ∀ scope, plain.render scope = (parse source).render scope := by
  intro h
  let source := Token.joined crowdedTokens
  let d : Diagnostic := ⟨.unclosed, 0, BlockKind.loop.openTag " " "u"⟩
  have htokens : scan source = Token.placed 0 crowdedTokens := scan_joined settled_crowdedTokens
  have hd : d ∈ (parse source).diagnostics := by
    apply (ofTokens_machine (scan source)).2.subset
    rw [htokens]
    decide +kernel
  have hcrowded : Machine.start.crowded d.offset (scan source) = true := by
    rw [htokens]
    decide +kernel
  exact diagnostics_ne_of_crowded hd rfl hcrowded (h source d hd rfl).2.1

end Template

end QuotePress
