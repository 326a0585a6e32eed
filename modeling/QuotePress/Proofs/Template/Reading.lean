import QuotePress.Template.Node
import QuotePress.Proofs.Template.Tokens

/-! # How a tree is read from tokens

The cases of reading a stretch of tokens, one equation for each, and the induction that follows
them: an opening is read with its body first, and what follows the body after it. -/
namespace QuotePress

def Diagnostic.place (d : Diagnostic) : Nat × String := (d.offset, d.token)

namespace Node

structure Reading where
  nodes : List Node
  findings : List Diagnostic
  closed : Bool
  rest : List Token

def read (awaited : Option BlockKind) (opened : List BlockKind) (tokens : List Token) : Reading :=
  let s := stretch awaited opened tokens
  ⟨s.nodes, s.findings, s.closed, s.rest⟩

variable {awaited : Option BlockKind} {opened : List BlockKind} {rest : List Token}
  {kind : BlockKind} {name run raw : String} {offset : Nat}

theorem read_nil : read awaited opened [] = ⟨[], [], false, []⟩ := by
  rw [read, stretch]

theorem read_text : read awaited opened (.text run :: rest) =
    { read awaited opened rest with nodes := consText run (read awaited opened rest).nodes } := by
  rw [read, stretch]
  rfl

theorem read_variable : read awaited opened (.directive (.variable name) raw offset :: rest) =
    { read awaited opened rest with
      nodes := .variable name :: (read awaited opened rest).nodes } := by
  rw [read, stretch]
  rfl

theorem read_deep (h : opened.length ≥ maxNesting) :
    read awaited opened (.directive (.opening kind name) raw offset :: rest) =
      { read awaited opened rest with
        nodes := consText raw (read awaited opened rest).nodes
        findings := ⟨.depthExceeded, offset, raw⟩ :: (read awaited opened rest).findings } := by
  rw [read, stretch, if_pos h]
  rfl

theorem read_closed (h : ¬ opened.length ≥ maxNesting)
    (hclosed : (read (some kind) (kind :: opened) rest).closed = true) :
    read awaited opened (.directive (.opening kind name) raw offset :: rest) =
      let body := read (some kind) (kind :: opened) rest
      let after := read awaited opened body.rest
      ⟨.block kind name body.nodes :: after.nodes, body.findings ++ after.findings, after.closed,
        after.rest⟩ := by
  simp only [read] at hclosed
  rw [read, stretch, if_neg h]
  simp only [hclosed, if_true]
  rfl

theorem read_unclosed (h : ¬ opened.length ≥ maxNesting)
    (hclosed : (read (some kind) (kind :: opened) rest).closed = false) :
    read awaited opened (.directive (.opening kind name) raw offset :: rest) =
      let body := read (some kind) (kind :: opened) rest
      let after := read awaited opened body.rest
      ⟨consText raw (splice body.nodes after.nodes),
        ⟨.unclosed, offset, raw⟩ :: (body.findings ++ after.findings), after.closed,
        after.rest⟩ := by
  simp only [read] at hclosed
  rw [read, stretch, if_neg h]
  simp only [hclosed]
  rfl

theorem read_own_close :
    read (some kind) opened (.directive (.closing kind) raw offset :: rest) =
      ⟨[], [], true, rest⟩ := by
  rw [read, stretch, if_pos rfl]

theorem read_outer_close (h : awaited ≠ some kind) (hmem : kind ∈ opened) :
    read awaited opened (.directive (.closing kind) raw offset :: rest) =
      ⟨[], [], false, .directive (.closing kind) raw offset :: rest⟩ := by
  rw [read, stretch, if_neg h, if_pos hmem]

theorem read_unmatched_close (h : awaited ≠ some kind) (hmem : kind ∉ opened) :
    read awaited opened (.directive (.closing kind) raw offset :: rest) =
      { read awaited opened rest with
        nodes := consText raw (read awaited opened rest).nodes
        findings := ⟨.unmatchedClose, offset, raw⟩ :: (read awaited opened rest).findings } := by
  rw [read, stretch, if_neg h, if_neg hmem]
  rfl

/-- Induction along the reading of a stretch. An opening that is not too deep comes with its body
and with what follows the body. -/
@[elab_as_elim]
theorem read_induction {motive : Option BlockKind → List BlockKind → List Token → Prop}
    (nil : ∀ awaited opened, motive awaited opened [])
    (text : ∀ awaited opened run rest, motive awaited opened rest →
      motive awaited opened (.text run :: rest))
    (substitution : ∀ awaited opened name raw offset rest, motive awaited opened rest →
      motive awaited opened (.directive (.variable name) raw offset :: rest))
    (deep : ∀ awaited opened kind name raw offset rest, opened.length ≥ maxNesting →
      motive awaited opened rest →
        motive awaited opened (.directive (.opening kind name) raw offset :: rest))
    (closed : ∀ awaited opened kind name raw offset rest, ¬ opened.length ≥ maxNesting →
      (read (some kind) (kind :: opened) rest).closed = true →
      motive (some kind) (kind :: opened) rest →
      motive awaited opened (read (some kind) (kind :: opened) rest).rest →
        motive awaited opened (.directive (.opening kind name) raw offset :: rest))
    (unclosed : ∀ awaited opened kind name raw offset rest, ¬ opened.length ≥ maxNesting →
      (read (some kind) (kind :: opened) rest).closed = false →
      motive (some kind) (kind :: opened) rest →
      motive awaited opened (read (some kind) (kind :: opened) rest).rest →
        motive awaited opened (.directive (.opening kind name) raw offset :: rest))
    (own : ∀ opened kind raw offset rest,
      motive (some kind) opened (.directive (.closing kind) raw offset :: rest))
    (outer : ∀ awaited opened kind raw offset rest, awaited ≠ some kind → kind ∈ opened →
      motive awaited opened (.directive (.closing kind) raw offset :: rest))
    (unmatched : ∀ awaited opened kind raw offset rest, awaited ≠ some kind → kind ∉ opened →
      motive awaited opened rest →
        motive awaited opened (.directive (.closing kind) raw offset :: rest))
    (awaited : Option BlockKind) (opened : List BlockKind) (tokens : List Token) :
    motive awaited opened tokens := by
  induction awaited, opened, tokens using stretch.induct with
  | case1 awaited opened => exact nil awaited opened
  | case2 awaited opened run rest ih => exact text awaited opened run rest ih
  | case3 awaited opened name raw offset rest ih =>
    exact substitution awaited opened name raw offset rest ih
  | case4 awaited opened kind name raw offset rest h ih =>
    exact deep awaited opened kind name raw offset rest h ih
  | case5 awaited opened kind name raw offset rest h body found tail htail after hafter hbody ih
      ihAfter =>
    refine closed awaited opened kind name raw offset rest h ?_ ih ?_
    · simp only [read, hbody]
    · simpa only [read, hbody] using ihAfter
  | case6 awaited opened kind name raw offset rest h body found isClosed tail htail hbody after
      hafter hopen ih ihAfter =>
    refine unclosed awaited opened kind name raw offset rest h ?_ ih ?_
    · simpa only [read, hbody, Bool.not_eq_true] using hopen
    · simpa only [read, hbody] using ihAfter
  | case7 opened kind raw offset rest => exact own opened kind raw offset rest
  | case8 awaited opened kind raw offset rest h hmem =>
    exact outer awaited opened kind raw offset rest h hmem
  | case9 awaited opened kind raw offset rest h hmem ih =>
    exact unmatched awaited opened kind raw offset rest h hmem ih

inductive Stop (awaited : Option BlockKind) (opened : List BlockKind) :
    List Token → Bool → List Token → Prop where
  | ended : Stop awaited opened [] false []
  | own {kind : BlockKind} {raw : String} {offset : Nat} {rest : List Token}
      (h : awaited = some kind) :
      Stop awaited opened (.directive (.closing kind) raw offset :: rest) true rest
  | outer {kind : BlockKind} {raw : String} {offset : Nat} {rest : List Token}
      (h : awaited ≠ some kind) (hmem : kind ∈ opened) :
      Stop awaited opened (.directive (.closing kind) raw offset :: rest) false
        (.directive (.closing kind) raw offset :: rest)

theorem Stop.read {tail : List Token} {closed : Bool} (h : Stop awaited opened tail closed rest) :
    Node.read awaited opened tail = ⟨[], [], closed, rest⟩ := by
  cases h with
  | ended => exact read_nil
  | own h =>
    subst h
    exact read_own_close
  | outer h hmem => exact read_outer_close h hmem

theorem Stop.unclosed {tail : List Token} (h : Stop awaited opened tail false rest) :
    tail = rest := by
  cases h <;> rfl

theorem Stop.outermost {tail : List Token} {closed : Bool} (h : Stop none [] tail closed rest) :
    tail = [] := by
  cases h with
  | ended => rfl
  | own h => cases h
  | outer h hmem => cases hmem

def isText : Node → Bool
  | .text _ => true
  | .variable _ => false
  | .block .. => false

theorem isText_iff {node : Node} : node.isText = true ↔ ∃ run, node = .text run := by
  cases node <;> simp [isText]

theorem head_consText (run : String) (nodes : List Node) :
    ∃ text, (consText run nodes).head? = some (.text text) := by
  fun_cases consText run nodes with
  | case1 next rest => exact ⟨run ++ next, rfl⟩
  | case2 nodes h => exact ⟨run, rfl⟩

theorem apart_consText {run : String} {nodes : List Node} (h : Apart isText nodes) :
    Apart isText (consText run nodes) := by
  fun_cases consText run nodes with
  | case1 next rest =>
    obtain ⟨hhead, htail⟩ := List.isChain_cons.1 h
    exact List.isChain_cons.2 ⟨hhead, htail⟩
  | case2 nodes hother =>
    refine List.isChain_cons.2 ⟨?_, h⟩
    rintro node hnode ⟨-, htext⟩
    obtain ⟨next, rfl⟩ := isText_iff.1 htext
    obtain ⟨rest, rfl⟩ := List.head?_eq_some_iff.1 hnode
    exact hother next rest rfl

theorem head_splice {nodes after : List Node} {node first : Node} (h : nodes.head? = some node)
    (hfirst : (splice nodes after).head? = some first) : first.isText = node.isText := by
  induction nodes, after using splice.induct with
  | case1 => cases h
  | case2 run after =>
    obtain ⟨text, htext⟩ := head_consText run after
    rw [splice, htext] at hfirst
    cases h
    cases hfirst
    rfl
  | case3 other rest after hlast =>
    rw [splice.eq_3 after other rest hlast] at hfirst
    cases h
    cases hfirst
    rfl

theorem apart_splice {nodes after : List Node} (h : Apart isText nodes)
    (hafter : Apart isText after) : Apart isText (splice nodes after) := by
  fun_induction splice nodes after with
  | case1 => exact hafter
  | case2 run after => exact apart_consText hafter
  | case3 node rest after hlast ih =>
    obtain ⟨hhead, htail⟩ := List.isChain_cons.1 h
    refine List.isChain_cons.2 ⟨?_, ih htail hafter⟩
    rintro first hfirst ⟨hnode, htext⟩
    cases rest with
    | nil =>
      obtain ⟨run, rfl⟩ := isText_iff.1 hnode
      exact hlast run rfl rfl
    | cons second rest =>
      rw [head_splice rfl hfirst] at htext
      exact hhead second rfl ⟨hnode, htext⟩

theorem read_apart (awaited : Option BlockKind) (opened : List BlockKind) (tokens : List Token) :
    Apart isText (read awaited opened tokens).nodes := by
  induction awaited, opened, tokens using read_induction with
  | nil awaited opened =>
    rw [read_nil]
    exact List.isChain_nil
  | text awaited opened run rest ih =>
    rw [read_text]
    exact apart_consText ih
  | substitution awaited opened name raw offset rest ih =>
    rw [read_variable]
    exact List.isChain_cons.2 ⟨by simp [isText], ih⟩
  | deep awaited opened kind name raw offset rest h ih =>
    rw [read_deep h]
    exact apart_consText ih
  | closed awaited opened kind name raw offset rest h hclosed ih ihAfter =>
    rw [read_closed h hclosed]
    exact List.isChain_cons.2 ⟨by simp [isText], ihAfter⟩
  | unclosed awaited opened kind name raw offset rest h hclosed ih ihAfter =>
    rw [read_unclosed h hclosed]
    exact apart_consText (apart_splice ih ihAfter)
  | own opened kind raw offset rest =>
    rw [read_own_close]
    exact List.isChain_nil
  | outer awaited opened kind raw offset rest h hmem =>
    rw [read_outer_close h hmem]
    exact List.isChain_nil
  | unmatched awaited opened kind raw offset rest h hmem ih =>
    rw [read_unmatched_close h hmem]
    exact apart_consText ih

/-- What a reading reports stands among the tokens that it takes, in their order. -/
theorem read_places (awaited : Option BlockKind) (opened : List BlockKind) (tokens : List Token) :
    ∃ taken, tokens = taken ++ (read awaited opened tokens).rest ∧
      ((read awaited opened tokens).findings.map Diagnostic.place).Sublist
        (taken.filterMap Token.place?) := by
  induction awaited, opened, tokens using read_induction with
  | nil awaited opened =>
    rw [read_nil]
    exact ⟨[], rfl, List.Sublist.refl _⟩
  | text awaited opened run rest ih =>
    obtain ⟨taken, hsplit, hplaces⟩ := ih
    rw [read_text]
    exact ⟨.text run :: taken, congrArg _ hsplit, hplaces⟩
  | substitution awaited opened name raw offset rest ih =>
    obtain ⟨taken, hsplit, hplaces⟩ := ih
    rw [read_variable]
    exact ⟨_ :: taken, congrArg _ hsplit, hplaces.cons _⟩
  | deep awaited opened kind name raw offset rest h ih =>
    obtain ⟨taken, hsplit, hplaces⟩ := ih
    rw [read_deep h]
    exact ⟨_ :: taken, congrArg _ hsplit, hplaces.cons_cons _⟩
  | closed awaited opened kind name raw offset rest h hclosed ih ihAfter =>
    obtain ⟨body, hbody, hplaces⟩ := ih
    obtain ⟨taken, hsplit, hafter⟩ := ihAfter
    rw [read_closed h hclosed]
    refine ⟨.directive (.opening kind name) raw offset :: (body ++ taken), ?_, ?_⟩
    · rw [List.cons_append, List.append_assoc, ← hsplit, ← hbody]
    · simp only [List.map_append, List.filterMap_cons, List.filterMap_append]
      exact (hplaces.append hafter).cons _
  | unclosed awaited opened kind name raw offset rest h hclosed ih ihAfter =>
    obtain ⟨body, hbody, hplaces⟩ := ih
    obtain ⟨taken, hsplit, hafter⟩ := ihAfter
    rw [read_unclosed h hclosed]
    refine ⟨.directive (.opening kind name) raw offset :: (body ++ taken), ?_, ?_⟩
    · rw [List.cons_append, List.append_assoc, ← hsplit, ← hbody]
    · simp only [List.map_cons, List.map_append, List.filterMap_cons, List.filterMap_append]
      exact (hplaces.append hafter).cons_cons _
  | own opened kind raw offset rest =>
    rw [read_own_close]
    exact ⟨[.directive (.closing kind) raw offset], rfl, List.nil_sublist _⟩
  | outer awaited opened kind raw offset rest h hmem =>
    rw [read_outer_close h hmem]
    exact ⟨[], rfl, List.Sublist.refl _⟩
  | unmatched awaited opened kind raw offset rest h hmem ih =>
    obtain ⟨taken, hsplit, hplaces⟩ := ih
    rw [read_unmatched_close h hmem]
    exact ⟨_ :: taken, congrArg _ hsplit, hplaces.cons_cons _⟩

theorem read_ascending {awaited : Option BlockKind} {opened : List BlockKind} {tokens : List Token}
    (h : (tokens.filterMap Token.place?).Pairwise fun a b => a.1 < b.1) :
    (read awaited opened tokens).findings.Pairwise fun a b => a.offset < b.offset := by
  obtain ⟨taken, hsplit, hplaces⟩ := read_places awaited opened tokens
  rw [hsplit, List.filterMap_append] at h
  have hfound := (List.pairwise_append.1 h).1.sublist hplaces
  rw [List.pairwise_map] at hfound
  exact hfound

end Node

/-- The findings come in the order of the text, each at a place of its own. -/
theorem Template.parse_ascending (source : String) :
    (parse source).diagnostics.Pairwise fun a b => a.offset < b.offset :=
  Node.read_ascending (scan_ascending source)

end QuotePress
