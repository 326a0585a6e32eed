import QuotePress.Proofs.Template.Derivation
import QuotePress.Proofs.Template.Forest
import QuotePress.Proofs.Template.Seams
import QuotePress.Proofs.Template.Tags

/-! # Rendering is compositional

A template between the tags of a block renders as a block of what it renders, and two templates one
behind the other render one behind the other unless a directive goes across the seam. -/
namespace QuotePress

open Token (scan Settled joined openBrace)

namespace Node

theorem depthAll_append (nodes after : List Node) :
    depthAll (nodes ++ after) = max (depthAll nodes) (depthAll after) := by
  induction nodes with
  | nil => simp only [List.nil_append, depthAll, Nat.zero_max]
  | cons node nodes ih => simp only [List.cons_append, depthAll, ih, Nat.max_assoc]

end Node

namespace Token

def enclosed (kind : BlockKind) (name : String) (tokens : List Token) : List Token :=
  .directive (.opening kind name) (kind.openTag " " name) 0 ::
    (tokens ++ [.directive (.closing kind) kind.closeTag 0])

theorem joined_enclosed (kind : BlockKind) (name : String) (tokens : List Token) :
    joined (enclosed kind name tokens) = kind.enclose name (joined tokens) := by
  simp only [joined, enclosed, BlockKind.enclose, List.map_cons, List.map_append, List.map_nil,
    String.join_cons, String.join_append, String.join_nil, raw, String.append_empty,
    String.append_assoc]

theorem settled_enclosed {name : String} {tokens : List Token} (kind : BlockKind)
    (hname : isName name.toList = true) (h : Settled tokens) :
    Settled (enclosed kind name tokens) := by
  have hopen : (Directive.opening kind name).Written (kind.openTag " " name).toList :=
    Directive.written_opening_iff.2 ⟨hname, " ", isGap_space, rfl⟩
  have hclose : (Directive.closing kind).Written kind.closeTag.toList :=
    Directive.written_closing_iff.2 rfl
  constructor
  · intro t ht
    rcases List.mem_cons.1 ht with rfl | ht
    · exact hopen
    rcases List.mem_append.1 ht with ht | ht
    · exact h.sound t ht
    · cases List.mem_singleton.1 ht
      exact hclose
  · refine List.isChain_cons.2 ⟨fun next _ hmeet => absurd hmeet.1 (by simp [isText]), ?_⟩
    refine List.isChain_append.2 ⟨h.apart, List.isChain_singleton _, ?_⟩
    rintro last _ next hnext ⟨-, htext⟩
    cases hnext
    cases htext

end Token

/-- No directive starts in the first text and ends in the second. -/
def Seamless (a b : List Char) : Prop :=
  ∀ meaning front back, front ≠ [] → back ≠ [] → front <:+ a → back <+: b →
    ¬ Directive.Written meaning (front ++ back)

theorem Seamless.inside {a b x y : List Char} (h : Seamless a b) (hx : x <:+ a) (hy : y <+: b) :
    Seamless x y := by
  intro meaning front back hfront hback hin hout
  exact h meaning front back hfront hback (hin.trans hx) (hout.trans hy)

/-- A directive that goes across would take in the opening braces behind it. -/
theorem seamless_braces (a after : List Char) :
    Seamless a (openBrace :: openBrace :: after) := by
  rintro meaning front back hfront hback - hout hraw
  have hends := written_ends hraw hfront ((List.prefix_append_right_inj front).2 hout)
  have hlength := hends.length_le
  have hpos := List.length_pos_iff.2 hback
  rw [List.length_append] at hlength
  omega

theorem Seamless.plain {x y : List Char} (h : Seamless x y) (hx : Plain x) (hy : Plain y) :
    Plain (x ++ y) := by
  rintro meaning raw hraw ⟨before, after, hwhole⟩
  rw [List.append_assoc] at hwhole
  rcases List.append_eq_append_iff.1 hwhole with ⟨front, rfl, hfront⟩ | ⟨skipped, -, rfl⟩
  · rcases List.append_eq_append_iff.1 hfront with ⟨tail, rfl, -⟩ | ⟨back, rfl, rfl⟩
    · exact hx meaning raw hraw ⟨before, tail, List.append_assoc ..⟩
    by_cases hend : back = []
    · subst hend
      rw [List.append_nil] at hraw
      exact hx meaning front hraw (List.suffix_append ..).isInfix
    by_cases hstart : front = []
    · subst hstart
      exact hy meaning back hraw (List.prefix_append ..).isInfix
    exact h meaning front back hstart hend (List.suffix_append ..) (List.prefix_append ..) hraw
  · exact hy meaning raw hraw ⟨skipped, after, List.append_assoc ..⟩

namespace Token

/-- Either texts meet between two lists of tokens, or no texts do. -/
theorem meet_or_not (tokens after : List Token) :
    (∃ front x y back, tokens = front ++ [.text x] ∧ after = .text y :: back) ∨
      ∀ last ∈ tokens.getLast?, ∀ next ∈ after.head?,
        ¬ (last.isText = true ∧ next.isText = true) := by
  by_cases h : ∃ front x y back, tokens = front ++ [.text x] ∧ after = .text y :: back
  · exact Or.inl h
  · right
    rintro last hlast next hnext ⟨hx, hy⟩
    obtain ⟨front, rfl⟩ := List.getLast?_eq_some_iff.1 hlast
    obtain ⟨back, rfl⟩ := List.head?_eq_some_iff.1 hnext
    cases last with
    | directive => cases hx
    | text x =>
      cases next with
      | directive => cases hy
      | text y => exact h ⟨front, x, y, back, rfl, rfl⟩

theorem Settled.append {tokens after : List Token} (h : Settled tokens) (hafter : Settled after)
    (hmeet : ∀ last ∈ tokens.getLast?, ∀ next ∈ after.head?,
      ¬ (last.isText = true ∧ next.isText = true)) : Settled (tokens ++ after) := by
  refine ⟨?_, List.isChain_append.2 ⟨h.apart, hafter.apart, hmeet⟩⟩
  intro t ht
  rcases List.mem_append.1 ht with ht | ht
  · exact h.sound t ht
  · exact hafter.sound t ht

theorem Settled.meet {front back : List Token} {x y : String} (h : Settled (front ++ [.text x]))
    (hafter : Settled (.text y :: back)) (hseam : Seamless x.toList y.toList) :
    Settled (front ++ .text (x ++ y) :: back) := by
  obtain ⟨hx, hxplain⟩ := h.sound (.text x) (by simp)
  obtain ⟨hy, hyplain⟩ := hafter.sound (.text y) (by simp)
  obtain ⟨hfront, -, hlast⟩ := List.isChain_append.1 h.apart
  obtain ⟨hnext, hback⟩ := List.isChain_cons.1 hafter.apart
  constructor
  · intro t ht
    rcases List.mem_append.1 ht with ht | ht
    · exact h.sound t (List.mem_append_left _ ht)
    rcases List.mem_cons.1 ht with rfl | ht
    · refine ⟨by simp [hx], ?_⟩
      rw [String.toList_append]
      exact hseam.plain hxplain hyplain
    · exact hafter.sound t (List.mem_cons_of_mem _ ht)
  · refine List.isChain_append.2 ⟨hfront, List.isChain_cons.2 ⟨hnext, hback⟩, ?_⟩
    rintro last hmem next hnext
    cases hnext
    exact hlast last hmem (.text x) rfl

end Token

namespace Derives

theorem append {tokens after : List Token} {nodes more : List Node} (h : Derives tokens nodes)
    (hafter : Derives after more) : Derives (tokens ++ after) (nodes ++ more) := by
  induction h with
  | nil => exact hafter
  | text h ih => exact ih.text
  | substitution h ih => exact ih.substitution
  | block hbody h ihBody ih =>
    rw [List.cons_append, List.append_assoc, List.cons_append]
    exact hbody.block ih

theorem text_last {tokens front : List Token} {nodes : List Node} {run : String}
    (h : Derives tokens nodes) (hlast : tokens = front ++ [.text run]) :
    ∃ before, nodes = before ++ [.text run] ∧ Derives front before := by
  induction h generalizing front with
  | nil => simp at hlast
  | text h ih =>
    cases front with
    | nil =>
      cases hlast
      cases h
      exact ⟨[], rfl, .nil⟩
    | cons t front =>
      cases hlast
      obtain ⟨before, rfl, hbefore⟩ := ih rfl
      exact ⟨_ :: before, rfl, hbefore.text⟩
  | substitution h ih =>
    cases front with
    | nil => cases hlast
    | cons t front =>
      cases hlast
      obtain ⟨before, rfl, hbefore⟩ := ih rfl
      exact ⟨_ :: before, rfl, hbefore.substitution⟩
  | @block kind name raw rawClose offset offsetClose inner tokens body nodes hbody h ihBody ih =>
    have hsplit : .directive (.opening kind name) raw offset ::
        (inner ++ [.directive (.closing kind) rawClose offsetClose]) ++ tokens =
          front ++ [.text run] := by
      rw [← hlast]
      simp
    rcases List.eq_nil_or_concat tokens with rfl | ⟨middle, t, rfl⟩
    · rw [List.append_nil, ← List.cons_append] at hsplit
      cases (List.append_inj' hsplit rfl).2
    · rw [List.concat_eq_append, ← List.append_assoc] at hsplit
      obtain ⟨rfl, ht⟩ := List.append_inj' hsplit rfl
      obtain ⟨before, rfl, hbefore⟩ := ih (by rw [List.concat_eq_append, ht])
      refine ⟨_ :: before, rfl, ?_⟩
      simpa using hbody.block hbefore

end Derives

namespace Template

theorem parse_of_derives {tokens : List Token} {nodes : List Node} (h : Settled tokens)
    (hderives : Derives tokens nodes) (hdepth : Node.depthAll nodes ≤ maxNesting) :
    (parse (joined tokens)).nodes = nodes := by
  have hread : Node.read none [] (tokens ++ []) = ⟨nodes, [], false, []⟩ := by
    apply hderives.read h.apart _ .ended
    rwa [List.length_nil, Nat.zero_add]
  rw [List.append_nil] at hread
  rw [parse_joined h, hread]

theorem parse_enclosed {body : String} (kind : BlockKind) {name : String}
    (hname : isName name.toList = true) (h : (parse body).isWellFormed = true)
    (hdepth : Node.depthAll (parse body).nodes < maxNesting) :
    (parse (kind.enclose name body)).nodes = [.block kind name (parse body).nodes] := by
  have hsettled := Token.settled_enclosed kind hname (Token.settled_scan body)
  have hderives : Derives (Token.enclosed kind name (scan body))
      [.block kind name (parse body).nodes] := (derives_of_wellFormed h).block .nil
  have hparse := parse_of_derives hsettled hderives
    (by simp only [Node.depthAll, Node.depth]; omega)
  rwa [Token.joined_enclosed, Token.joined_scan] at hparse

/-- Well-formed templates one behind the other are read one behind the other, if no texts meet. -/
theorem parse_append_apart {a b : String} (ha : (parse a).isWellFormed = true)
    (hb : (parse b).isWellFormed = true)
    (hmeet : ∀ last ∈ (scan a).getLast?, ∀ next ∈ (scan b).head?,
      ¬ (last.isText = true ∧ next.isText = true)) :
    (parse (a ++ b)).nodes = (parse a).nodes ++ (parse b).nodes := by
  have hderives := (derives_of_wellFormed ha).append (derives_of_wellFormed hb)
  have hsettled := (Token.settled_scan a).append (Token.settled_scan b) hmeet
  have hdepth := parse_depth a
  have hdepthSecond := parse_depth b
  have hparse := parse_of_derives hsettled hderives (by rw [Node.depthAll_append]; omega)
  rwa [Token.joined_append, Token.joined_scan, Token.joined_scan] at hparse

/-- Where two texts meet and no directive goes across, the two become one. -/
theorem parse_append_meet {a b x y : String} {front back : List Token}
    (ha : (parse a).isWellFormed = true) (hb : (parse b).isWellFormed = true)
    (hseam : Seamless a.toList b.toList) (hx : scan a = front ++ [.text x])
    (hy : scan b = .text y :: back) :
    ∃ before after, (parse a).nodes = before ++ [.text x] ∧ (parse b).nodes = .text y :: after ∧
      (parse (a ++ b)).nodes = before ++ .text (x ++ y) :: after := by
  have hsettled := Token.settled_scan a
  have hsettledSecond := Token.settled_scan b
  have hjoined := Token.joined_scan a
  have hjoinedSecond := Token.joined_scan b
  have hdepth := parse_depth a
  have hdepthSecond := parse_depth b
  obtain ⟨before, hbefore, hfirst⟩ := (derives_of_wellFormed ha).text_last hx
  have hsecond := derives_of_wellFormed hb
  rw [hx] at hsettled hjoined
  rw [hy] at hsettledSecond hsecond hjoinedSecond
  rw [Token.joined_append, Token.joined_singleton, Token.raw] at hjoined
  rw [Token.joined_cons, Token.raw] at hjoinedSecond
  cases hafter : (parse b).nodes with
  | nil =>
    rw [hafter] at hsecond
    cases hsecond
  | cons node after =>
    rw [hafter] at hsecond hdepthSecond
    rw [hbefore] at hdepth
    cases hsecond with
    | text hrest =>
      refine ⟨before, after, hbefore, rfl, ?_⟩
      have hinside : Seamless x.toList y.toList := by
        apply hseam.inside
        · rw [← hjoined, String.toList_append]
          exact List.suffix_append ..
        · rw [← hjoinedSecond, String.toList_append]
          exact List.prefix_append ..
      have hparse := parse_of_derives (hsettled.meet hsettledSecond hinside)
        (hfirst.append hrest.text)
        (by simp only [Node.depthAll_append, Node.depthAll, Node.depth] at *; omega)
      have hwhole : joined (front ++ .text (x ++ y) :: back) = a ++ b := by
        rw [← hjoined, ← hjoinedSecond, Token.joined_append, Token.joined_cons]
        simp only [Token.raw, String.append_assoc]
      rwa [hwhole] at hparse

/-- Well-formed templates one behind the other are rendered one behind the other, if no directive
goes across. -/
theorem render_append {a b : String} (ha : (parse a).isWellFormed = true)
    (hb : (parse b).isWellFormed = true) (hseam : Seamless a.toList b.toList) (scope : Scope) :
    (parse (a ++ b)).render scope = (parse a).render scope ++ (parse b).render scope := by
  simp only [render]
  rcases Token.meet_or_not (scan a) (scan b) with ⟨front, x, y, back, hx, hy⟩ | hmeet
  · obtain ⟨before, after, hfirst, hsecond, hwhole⟩ := parse_append_meet ha hb hseam hx hy
    rw [hfirst, hsecond, hwhole]
    simp only [Node.renderAll_append, Node.renderAll, Node.render, String.append_assoc,
      String.append_empty]
  · rw [parse_append_apart ha hb hmeet, Node.renderAll_append]

/-- A block renders what its body renders: once or not at all, or once for every record of its list.
Two templates render one behind the other, if no directive goes across. -/
theorem compile_compositional (c : Context) :
    (∀ name body, isName name.toList = true → (parse body).isWellFormed = true →
      Node.depthAll (parse body).nodes ≤ 63 →
        compile (BlockKind.conditional.enclose name body) c =
          (if c.isTruthy name then compile body c else "") ∧
        compile (BlockKind.loop.enclose name body) c =
          match c.get? name with
          | some (.list records) =>
            String.join (records.map fun record => (parse body).render (.record record))
          | _ => "") ∧
    ∀ a b, (parse a).isWellFormed = true → (parse b).isWellFormed = true →
      Seamless a.toList b.toList → compile (a ++ b) c = compile a c ++ compile b c := by
  constructor
  · intro name body hname hbody hdepth
    have hparse := fun kind => parse_enclosed kind hname hbody (Nat.lt_succ_of_le hdepth)
    constructor
    · simp only [compile, render, hparse, Node.renderAll, Node.render, String.append_empty]
      rfl
    · simp only [compile, render, hparse, Node.renderAll, Node.render, String.append_empty,
        Scope.list?, Context.list?]
      cases c.get? name with
      | none => rfl
      | some binding => cases binding <;> rfl
  · intro a b ha hb hseam
    exact render_append ha hb hseam (.document c)

theorem compile_compositional_braces :
    let record : Record := NameMap.empty.insert "x" (.text "\x7b\x7b/each\x7d\x7d")
    let c : Context := Context.bindList NameMap.empty "rows" [record, record]
    let body := "\x7d\x7b\x7bx\x7d\x7d\x7b"
    let next := "\x7b\x7bx\x7d\x7d"
    (isName "rows".toList = true ∧ (parse body).isWellFormed = true ∧
      Node.depthAll (parse body).nodes ≤ 63) ∧
    compile (BlockKind.loop.enclose "rows" body) c =
      String.join ([record, record].map fun record => (parse body).render (.record record)) ∧
    (parse next).isWellFormed = true ∧ Seamless body.toList next.toList ∧
    compile (body ++ next) c = compile body c ++ compile next c := by
  intro record c body next
  have hname : isName "rows".toList = true := by decide
  have hbody : (parse body).isWellFormed = true := by decide +kernel
  have hdepth : Node.depthAll (parse body).nodes ≤ 63 := by decide +kernel
  have hnext : (parse next).isWellFormed = true := by decide +kernel
  have hchars : next.toList = openBrace :: openBrace :: ['x', '\x7d', '\x7d'] := by decide +kernel
  have hseam : Seamless body.toList next.toList := hchars ▸ seamless_braces _ _
  obtain ⟨hblock, happend⟩ := compile_compositional c
  exact ⟨⟨hname, hbody, hdepth⟩, (hblock "rows" body hname hbody hdepth).2, hnext, hseam,
    happend body next hbody hnext hseam⟩

end Template

end QuotePress
