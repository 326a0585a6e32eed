import QuotePress.Proofs.Template.Seams

/-! # Where the tokens of a template went

A tree that keeps every token: a block has its opening and its close, and a directive that stayed in
the text has what it is reported as. The tokens, the nodes and the findings of a template are read
off one such tree, so each block token is accounted for once. -/
namespace QuotePress

def Diagnostic.Kind.fits : Diagnostic.Kind → Directive → Bool
  | .unmatchedClose, .closing _ => true
  | .unclosed, .opening .. => true
  | .depthExceeded, .opening .. => true
  | _, _ => false

def Diagnostic.reports (d : Diagnostic) : Token → Bool
  | .text _ => false
  | .directive meaning raw offset => d.offset = offset && d.token = raw && d.kind.fits meaning

def Token.isBlockToken : Token → Bool
  | .text _ => false
  | .directive (.variable _) _ _ => false
  | .directive (.opening ..) _ _ => true
  | .directive (.closing _) _ _ => true

theorem isBlockToken_of_fits {kind : Diagnostic.Kind} {meaning : Directive}
    (h : kind.fits meaning = true) (raw : String) (offset : Nat) :
    (Token.directive meaning raw offset).isBlockToken = true := by
  cases meaning with
  | «variable» name => cases kind <;> cases h
  | opening kind name => rfl
  | closing kind => rfl

mutual

def Node.blockCount : Node → Nat
  | .text _ => 0
  | .variable _ => 0
  | .block _ _ body => Node.blockCountAll body + 1

def Node.blockCountAll : List Node → Nat
  | [] => 0
  | node :: rest => node.blockCount + Node.blockCountAll rest

end

/-- A part of a template with the tokens it comes from. A stray directive is one that stayed in the
text. -/
inductive Branch where
  | text (run : String)
  | substitution (name raw : String) (offset : Nat)
  | stray (meaning : Directive) (raw : String) (offset : Nat) (kind : Diagnostic.Kind)
      (fits : kind.fits meaning = true)
  | block (kind : BlockKind) (name raw : String) (offset : Nat) (body : List Branch)
      (rawClose : String) (offsetClose : Nat)

namespace Branch

mutual

def tokens : Branch → List Token
  | .text run => [.text run]
  | .substitution name raw offset => [.directive (.variable name) raw offset]
  | .stray meaning raw offset _ _ => [.directive meaning raw offset]
  | .block kind name raw offset body rawClose offsetClose =>
    .directive (.opening kind name) raw offset ::
      (tokensAll body ++ [.directive (.closing kind) rawClose offsetClose])

def tokensAll : List Branch → List Token
  | [] => []
  | b :: rest => b.tokens ++ tokensAll rest

end

mutual

/-- Puts the node of a branch in front of nodes. Stray directives are text, and texts that meet are
one node. -/
def grow : Branch → List Node → List Node
  | .text run, after => Node.consText run after
  | .substitution name _ _, after => .variable name :: after
  | .stray _ raw _ _ _, after => Node.consText raw after
  | .block kind name _ _ body _ _, after => .block kind name (nodesAll body) :: after

def nodesAll : List Branch → List Node
  | [] => []
  | b :: rest => b.grow (nodesAll rest)

end

mutual

def findings : Branch → List Diagnostic
  | .text _ => []
  | .substitution .. => []
  | .stray _ raw offset kind _ => [⟨kind, offset, raw⟩]
  | .block _ _ _ _ body _ _ => findingsAll body

def findingsAll : List Branch → List Diagnostic
  | [] => []
  | b :: rest => b.findings ++ findingsAll rest

end

mutual

def ends : Branch → List (Token × Token)
  | .text _ => []
  | .substitution .. => []
  | .stray .. => []
  | .block kind name raw offset body rawClose offsetClose =>
    (.directive (.opening kind name) raw offset, .directive (.closing kind) rawClose offsetClose) ::
      endsAll body

def endsAll : List Branch → List (Token × Token)
  | [] => []
  | b :: rest => b.ends ++ endsAll rest

end

/-- Induction over branches from the last to the first, with the body of a block before what follows
the block. -/
@[elab_as_elim]
theorem forest_induction {motive : List Branch → Prop} (nil : motive [])
    (text : ∀ run rest, motive rest → motive (.text run :: rest))
    (substitution : ∀ name raw offset rest, motive rest →
      motive (.substitution name raw offset :: rest))
    (stray : ∀ meaning raw offset kind fits rest, motive rest →
      motive (.stray meaning raw offset kind fits :: rest))
    (block : ∀ kind name raw offset body rawClose offsetClose rest, motive body → motive rest →
      motive (.block kind name raw offset body rawClose offsetClose :: rest))
    (branches : List Branch) : motive branches :=
  @Branch.rec_1 (fun b => ∀ rest, motive rest → motive (b :: rest)) motive text substitution stray
    (fun kind name raw offset body rawClose offsetClose hbody rest =>
      block kind name raw offset body rawClose offsetClose rest hbody)
    nil (fun _ rest hbranch hrest => hbranch rest hrest) branches

theorem tokensAll_append (front back : List Branch) :
    tokensAll (front ++ back) = tokensAll front ++ tokensAll back := by
  induction front with
  | nil => rfl
  | cons b front ih => rw [List.cons_append, tokensAll, tokensAll, ih, List.append_assoc]

theorem findingsAll_append (front back : List Branch) :
    findingsAll (front ++ back) = findingsAll front ++ findingsAll back := by
  induction front with
  | nil => rfl
  | cons b front ih => rw [List.cons_append, findingsAll, findingsAll, ih, List.append_assoc]

end Branch

namespace Node

theorem consText_consText (run next : String) (nodes : List Node) :
    consText run (consText next nodes) = consText (run ++ next) nodes := by
  fun_cases consText next nodes with
  | case1 more rest => simp only [consText, String.append_assoc]
  | case2 nodes hother => rw [consText, consText.eq_2 (run ++ next) nodes hother]

theorem splice_consText (run : String) (nodes after : List Node) :
    splice (consText run nodes) after = consText run (splice nodes after) := by
  fun_induction splice nodes after with
  | case1 after => rfl
  | case2 next after => rw [consText, splice, consText_consText]
  | case3 node rest after hlast ih =>
    cases node with
    | text next =>
      have hrest : rest ≠ [] := fun hnil => hlast next rfl hnil
      rw [consText, consText, splice.eq_3]
      exact fun _ _ hnil => hrest hnil
    | «variable» name => rfl
    | block kind name body => rfl

theorem blockCountAll_consText (run : String) (nodes : List Node) :
    blockCountAll (consText run nodes) = blockCountAll nodes := by
  fun_cases consText run nodes with
  | case1 next rest => simp only [blockCountAll, blockCount]
  | case2 => simp only [blockCountAll, blockCount, Nat.zero_add]

end Node

namespace Branch

open Node (Stop read consText splice)

theorem nodesAll_append (front back : List Branch) :
    nodesAll (front ++ back) = splice (nodesAll front) (nodesAll back) := by
  induction front with
  | nil => rfl
  | cons b front ih =>
    rw [List.cons_append, nodesAll, nodesAll, ih]
    cases b with
    | text run => rw [grow, grow, Node.splice_consText]
    | substitution name raw offset => rfl
    | stray meaning raw offset kind fits => rw [grow, grow, Node.splice_consText]
    | block kind name raw offset body rawClose offsetClose => rfl

/-- What a reading takes are the tokens of branches that have its nodes and its findings. -/
theorem of_read (awaited : Option BlockKind) (opened : List BlockKind) (tokens : List Token) :
    ∃ branches tail, tokens = tokensAll branches ++ tail ∧
      nodesAll branches = (read awaited opened tokens).nodes ∧
      findingsAll branches = (read awaited opened tokens).findings ∧
      Stop awaited opened tail (read awaited opened tokens).closed
        (read awaited opened tokens).rest := by
  induction awaited, opened, tokens using Node.read_induction with
  | nil awaited opened =>
    rw [Node.read_nil]
    exact ⟨[], [], rfl, rfl, rfl, .ended⟩
  | text awaited opened run rest ih =>
    obtain ⟨branches, tail, hsplit, hnodes, hfindings, hstop⟩ := ih
    rw [Node.read_text]
    exact ⟨.text run :: branches, tail, congrArg _ hsplit, congrArg _ hnodes, hfindings, hstop⟩
  | substitution awaited opened name raw offset rest ih =>
    obtain ⟨branches, tail, hsplit, hnodes, hfindings, hstop⟩ := ih
    rw [Node.read_variable]
    exact ⟨.substitution name raw offset :: branches, tail, congrArg _ hsplit, congrArg _ hnodes,
      hfindings, hstop⟩
  | deep awaited opened kind name raw offset rest h ih =>
    obtain ⟨branches, tail, hsplit, hnodes, hfindings, hstop⟩ := ih
    rw [Node.read_deep h]
    exact ⟨.stray (.opening kind name) raw offset .depthExceeded rfl :: branches, tail,
      congrArg _ hsplit, congrArg _ hnodes, congrArg _ hfindings, hstop⟩
  | closed awaited opened kind name raw offset rest h hclosed ih ihAfter =>
    obtain ⟨body, close, hsplit, hnodes, hfindings, hown⟩ := ih
    obtain ⟨branches, tail, hafter, hnodesAfter, hfindingsAfter, hstop⟩ := ihAfter
    rw [Node.read_closed h hclosed]
    rw [hclosed] at hown
    generalize read (some kind) (kind :: opened) rest = inner at *
    cases hown with
    | @own _ rawClose offsetClose _ hkind =>
      cases hkind
      refine ⟨.block kind name raw offset body rawClose offsetClose :: branches, tail, ?_, ?_, ?_,
        hstop⟩
      · rw [hsplit, hafter]
        simp [tokensAll, tokens]
      · rw [nodesAll, grow, hnodes, hnodesAfter]
      · rw [findingsAll, findings, hfindings, hfindingsAfter]
  | unclosed awaited opened kind name raw offset rest h hclosed ih ihAfter =>
    obtain ⟨body, close, hsplit, hnodes, hfindings, hstopBody⟩ := ih
    obtain ⟨branches, tail, hafter, hnodesAfter, hfindingsAfter, hstop⟩ := ihAfter
    rw [Node.read_unclosed h hclosed]
    rw [hclosed] at hstopBody
    refine ⟨.stray (.opening kind name) raw offset .unclosed rfl :: (body ++ branches), tail, ?_,
      ?_, ?_, hstop⟩
    · rw [hsplit, hstopBody.unclosed, hafter]
      simp only [tokensAll, tokensAll_append, Branch.tokens, List.cons_append, List.nil_append,
        List.append_assoc]
    · rw [nodesAll, nodesAll_append, hnodes, hnodesAfter]
      rfl
    · rw [findingsAll, findingsAll_append, hfindings, hfindingsAfter]
      rfl
  | own opened kind raw offset rest =>
    rw [Node.read_own_close]
    exact ⟨[], _, rfl, rfl, rfl, .own rfl⟩
  | outer awaited opened kind raw offset rest h hmem =>
    rw [Node.read_outer_close h hmem]
    exact ⟨[], _, rfl, rfl, rfl, .outer h hmem⟩
  | unmatched awaited opened kind raw offset rest h hmem ih =>
    obtain ⟨branches, tail, hsplit, hnodes, hfindings, hstop⟩ := ih
    rw [Node.read_unmatched_close h hmem]
    exact ⟨.stray (.closing kind) raw offset .unmatchedClose rfl :: branches, tail,
      congrArg _ hsplit, congrArg _ hnodes, congrArg _ hfindings, hstop⟩

theorem of_parse (source : String) : ∃ branches, tokensAll branches = Token.scan source ∧
    nodesAll branches = (Template.parse source).nodes ∧
    findingsAll branches = (Template.parse source).diagnostics := by
  obtain ⟨branches, tail, hsplit, hnodes, hfindings, hstop⟩ := of_read none [] (Token.scan source)
  rw [hstop.outermost, List.append_nil] at hsplit
  exact ⟨branches, hsplit.symm, hnodes, hfindings⟩

theorem reports_of_mem {branches : List Branch} {d : Diagnostic} (h : d ∈ findingsAll branches) :
    ∃ t ∈ tokensAll branches, d.reports t = true := by
  induction branches using forest_induction with
  | nil => cases h
  | text run rest ih =>
    obtain ⟨t, ht, hreports⟩ := ih h
    exact ⟨t, List.mem_append_right _ ht, hreports⟩
  | substitution name raw offset rest ih =>
    obtain ⟨t, ht, hreports⟩ := ih h
    exact ⟨t, List.mem_append_right _ ht, hreports⟩
  | stray meaning raw offset kind fits rest ih =>
    rcases List.mem_cons.1 h with rfl | h
    · exact ⟨.directive meaning raw offset, List.mem_cons_self, by simp [Diagnostic.reports, fits]⟩
    · obtain ⟨t, ht, hreports⟩ := ih h
      exact ⟨t, List.mem_cons_of_mem _ ht, hreports⟩
  | block kind name raw offset body rawClose offsetClose rest ihBody ih =>
    rcases List.mem_append.1 h with h | h
    · obtain ⟨t, ht, hreports⟩ := ihBody h
      refine ⟨t, ?_, hreports⟩
      simp [tokensAll, tokens, ht]
    · obtain ⟨t, ht, hreports⟩ := ih h
      exact ⟨t, List.mem_append_right _ ht, hreports⟩

theorem reports_stray {meaning : Directive} {raw : String} {offset : Nat} {kind : Diagnostic.Kind}
    {t : Token} (fits : kind.fits meaning = true)
    (hplace : (Token.directive meaning raw offset).place? = t.place? →
      Token.directive meaning raw offset = t) :
    (Diagnostic.mk kind offset raw).reports t = true ↔ Token.directive meaning raw offset = t := by
  constructor
  · intro h
    cases t with
    | text run => cases h
    | directive other written place =>
      simp only [Diagnostic.reports, Bool.and_eq_true, decide_eq_true_eq] at h
      obtain ⟨⟨rfl, rfl⟩, -⟩ := h
      exact hplace rfl
  · rintro rfl
    simp [Diagnostic.reports, fits]

/-- A block token that has its place for itself stands in the text as often as it ends a block or
is reported. -/
theorem count_tokensAll {branches : List Branch} {t : Token} (hblock : t.isBlockToken = true)
    (hplace : ∀ s ∈ tokensAll branches, s.place? = t.place? → s = t) :
    (tokensAll branches).count t =
      (endsAll branches).countP (fun ends => ends.1 = t ∨ ends.2 = t) +
        (findingsAll branches).countP (·.reports t) := by
  induction branches using forest_induction with
  | nil => rfl
  | text run rest ih =>
    have hother : Token.text run ≠ t := by
      rintro rfl
      cases hblock
    simp only [tokensAll, tokens, endsAll, ends, findingsAll, findings, List.nil_append,
      List.singleton_append, List.count_cons_of_ne hother] at hplace ⊢
    exact ih fun s hs => hplace s (List.mem_cons_of_mem _ hs)
  | substitution name raw offset rest ih =>
    have hother : Token.directive (.variable name) raw offset ≠ t := by
      rintro rfl
      cases hblock
    simp only [tokensAll, tokens, endsAll, ends, findingsAll, findings, List.nil_append,
      List.singleton_append, List.count_cons_of_ne hother] at hplace ⊢
    exact ih fun s hs => hplace s (List.mem_cons_of_mem _ hs)
  | stray meaning raw offset kind fits rest ih =>
    simp only [tokensAll, tokens, endsAll, ends, findingsAll, findings, List.nil_append,
      List.singleton_append, List.count_cons, List.countP_cons, beq_iff_eq,
      reports_stray fits (hplace _ List.mem_cons_self)] at hplace ⊢
    rw [ih fun s hs => hplace s (List.mem_cons_of_mem _ hs)]
    omega
  | block kind name raw offset body rawClose offsetClose rest ihBody ih =>
    have hbody := ihBody fun s hs => hplace s (by simp [tokensAll, tokens, hs])
    have hrest := ih fun s hs => hplace s (List.mem_append_right _ hs)
    simp only [tokensAll, tokens, endsAll, ends, findingsAll, findings, List.cons_append,
      List.append_assoc, List.nil_append, List.count_cons, List.count_append, List.countP_cons,
      List.countP_append, hbody, hrest, beq_iff_eq, decide_eq_true_eq]
    by_cases hopen : Token.directive (.opening kind name) raw offset = t
    · have hclose : Token.directive (.closing kind) rawClose offsetClose ≠ t := by
        rw [← hopen]
        nofun
      rw [if_pos hopen, if_pos (Or.inl hopen), if_neg hclose]
      omega
    · simp only [hopen, false_or, if_false]
      omega

theorem countP_tokensAll (branches : List Branch) :
    (tokensAll branches).countP Token.isBlockToken =
      2 * Node.blockCountAll (nodesAll branches) + (findingsAll branches).length := by
  induction branches using forest_induction with
  | nil => rfl
  | text run rest ih =>
    simpa [tokensAll, tokens, nodesAll, grow, findingsAll, findings, Token.isBlockToken,
      Node.blockCountAll_consText] using ih
  | substitution name raw offset rest ih =>
    simpa [tokensAll, tokens, nodesAll, grow, findingsAll, findings, Token.isBlockToken,
      Node.blockCountAll, Node.blockCount] using ih
  | stray meaning raw offset kind fits rest ih =>
    have hstray := isBlockToken_of_fits fits raw offset
    simp only [tokensAll, tokens, nodesAll, grow, findingsAll, findings, List.singleton_append,
      List.countP_cons, hstray, Node.blockCountAll_consText, ih, List.length_cons, if_true]
    omega
  | block kind name raw offset body rawClose offsetClose rest ihBody ih =>
    simp only [tokensAll, tokens, nodesAll, grow, findingsAll, findings, List.cons_append,
      List.append_assoc, List.nil_append, List.countP_cons, List.countP_append, Token.isBlockToken,
      Node.blockCountAll, Node.blockCount, ihBody, ih, List.length_append, if_true]
    omega

end Branch

namespace Token

variable {tokens : List Token} {s t : Token} {p q : Nat × String}

/-- Of tokens that ascend by their places no two stand at one offset. -/
theorem eq_of_offset (h : (tokens.filterMap place?).Pairwise fun a b => a.1 < b.1)
    (hs : s ∈ tokens) (ht : t ∈ tokens) (hp : s.place? = some p) (hq : t.place? = some q)
    (hsame : p.1 = q.1) : s = t := by
  induction tokens with
  | nil => cases hs
  | cons first rest ih =>
    have hrest : (rest.filterMap place?).Pairwise fun a b => a.1 < b.1 :=
      h.sublist ((List.sublist_cons_self first rest).filterMap place?)
    rcases List.mem_cons.1 hs with rfl | hsRest
    · rcases List.mem_cons.1 ht with rfl | htRest
      · rfl
      · rw [List.filterMap_cons_some hp, List.pairwise_cons] at h
        have hlt := h.1 q (List.mem_filterMap.2 ⟨t, htRest, hq⟩)
        omega
    · rcases List.mem_cons.1 ht with rfl | htRest
      · rw [List.filterMap_cons_some hq, List.pairwise_cons] at h
        have hlt := h.1 p (List.mem_filterMap.2 ⟨s, hsRest, hp⟩)
        omega
      · exact ih hrest hsRest htRest

theorem count_directive (h : (tokens.filterMap place?).Pairwise fun a b => a.1 < b.1)
    (ht : t ∈ tokens) (hp : t.place? = some p) : tokens.count t = 1 := by
  have htwice : ¬ 2 ≤ tokens.count t := by
    intro hcount
    have hsub := (List.replicate_sublist_iff.2 hcount).filterMap place?
    have hpair := h.sublist hsub
    simp [List.replicate, hp] at hpair
  have hpos := List.count_pos_iff.2 ht
  omega

theorem utf8ByteSize_joined (tokens : List Token) :
    (joined tokens).utf8ByteSize = Token.size tokens := by
  induction tokens with
  | nil => rfl
  | cons t tokens ih =>
    rw [joined_cons, String.utf8ByteSize_append, ih, Token.size, Token.size, List.map_cons,
      List.sum_cons]

/-- The bytes of a template at the place of a directive are those of the directive as written. -/
theorem bytes_at {source raw : String} {meaning : Directive} {offset : Nat}
    (h : .directive meaning raw offset ∈ scan source) :
    ((Text.bytes source).drop offset).take raw.utf8ByteSize = Text.bytes raw := by
  obtain ⟨before, after, hsplit⟩ := List.append_of_mem h
  have hsize (s : String) : (Text.bytes s).length = s.utf8ByteSize := by
    rw [Text.bytes_eq_encode, Text.length_encode, utf8ByteSize_eq_sum]
  have hsource : Text.bytes source =
      Text.bytes (joined before) ++ (Text.bytes raw ++ Text.bytes (joined after)) := by
    have hjoined := joined_scan source
    rw [hsplit, joined_append, joined_cons] at hjoined
    rw [← hjoined]
    simp only [Text.bytes_eq_encode, String.toList_append, Text.encode_append]
    rfl
  have hoffset : offset = (Text.bytes (joined before)).length := by
    rw [scan_offset hsplit, hsize, utf8ByteSize_joined]
  rw [hsource, hoffset, List.drop_left, ← hsize, List.take_left]

end Token

namespace Template

open Branch (tokensAll nodesAll findingsAll endsAll)
open Token (scan)

/-- Every block token of a template is the opening or the close of one block, or is reported by one
finding: an opening as unclosed or too deep, a close as unmatched. The findings come in the order of
the text, and each has the bytes that stand at its place. -/
theorem blockTokens_accounted (source : String) :
    ((parse source).diagnostics.Pairwise fun a b => a.offset < b.offset) ∧
    (∀ d ∈ (parse source).diagnostics,
      ((Text.bytes source).drop d.offset).take d.token.utf8ByteSize = Text.bytes d.token ∧
        ∃ t ∈ scan source, d.reports t = true) ∧
    (∃ branches, tokensAll branches = scan source ∧ nodesAll branches = (parse source).nodes ∧
      findingsAll branches = (parse source).diagnostics ∧
      ∀ t ∈ scan source, t.isBlockToken = true →
        (endsAll branches).countP (fun ends => ends.1 = t ∨ ends.2 = t) +
          (parse source).diagnostics.countP (·.reports t) = 1) ∧
    (scan source).countP Token.isBlockToken =
      2 * Node.blockCountAll (parse source).nodes + (parse source).diagnostics.length := by
  obtain ⟨branches, htokens, hnodes, hfindings⟩ := Branch.of_parse source
  have hascending := scan_ascending source
  refine ⟨parse_ascending source, ?_, ⟨branches, htokens, hnodes, hfindings, ?_⟩, ?_⟩
  · intro d hd
    obtain ⟨t, ht, hreports⟩ := Branch.reports_of_mem (hfindings ▸ hd)
    rw [htokens] at ht
    refine ⟨?_, t, ht, hreports⟩
    cases t with
    | text run => cases hreports
    | directive meaning raw offset =>
      simp only [Diagnostic.reports, Bool.and_eq_true, decide_eq_true_eq] at hreports
      obtain ⟨⟨hoffset, hraw⟩, -⟩ := hreports
      rw [hoffset, hraw]
      exact Token.bytes_at ht
  · intro t ht hblock
    cases t with
    | text run => cases hblock
    | directive meaning raw offset =>
      have hplace : ∀ s ∈ tokensAll branches,
          s.place? = some (offset, raw) → s = .directive meaning raw offset := by
        intro s hs hsame
        rw [htokens] at hs
        exact Token.eq_of_offset hascending hs ht hsame rfl rfl
      rw [← hfindings, ← Branch.count_tokensAll hblock hplace, htokens]
      exact Token.count_directive hascending ht rfl
  · rw [← htokens, ← hnodes, ← hfindings, Branch.countP_tokensAll]

/-- The close of a loop in the body of a condition is reported, and the condition is a block. -/
theorem blockTokens_accounted_stray :
    let source := "\x7b\x7b#if a\x7d\x7d\x7b\x7b/each\x7d\x7d\x7b\x7b/if\x7d\x7d"
    let d : Diagnostic := ⟨.unmatchedClose, 9, "\x7b\x7b/each\x7d\x7d"⟩
    (parse source).diagnostics = [d] ∧ (∃ t ∈ scan source, d.reports t = true) ∧
      (scan source).countP Token.isBlockToken =
        2 * Node.blockCountAll (parse source).nodes + 1 := by
  intro source d
  have hfound : (parse source).diagnostics = [d] := by
    unfold source d
    decide +kernel
  obtain ⟨-, hplaces, -, hcount⟩ := blockTokens_accounted source
  rw [hfound] at hplaces hcount
  exact ⟨hfound, (hplaces _ (List.mem_singleton_self _)).2, hcount⟩

end Template

end QuotePress
