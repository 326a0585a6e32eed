import QuotePress.Proofs.Template.Reading

/-! # Templates without findings

A grammar for the tokens of a template in which every block token has its place, and how deep its
trees are. -/
namespace QuotePress

mutual

def Node.depth : Node → Nat
  | .text _ => 0
  | .variable _ => 0
  | .block _ _ body => Node.depthAll body + 1

def Node.depthAll : List Node → Nat
  | [] => 0
  | node :: nodes => max node.depth (Node.depthAll nodes)

end

/-- The tokens are derived with the nodes as their tree: a block has the name of its opening, and
the nodes that are derived between the opening and its own close. -/
inductive Derives : List Token → List Node → Prop where
  | nil : Derives [] []
  | text {run : String} {tokens : List Token} {nodes : List Node} (h : Derives tokens nodes) :
      Derives (.text run :: tokens) (.text run :: nodes)
  | substitution {name raw : String} {offset : Nat} {tokens : List Token} {nodes : List Node}
      (h : Derives tokens nodes) :
      Derives (.directive (.variable name) raw offset :: tokens) (.variable name :: nodes)
  | block {kind : BlockKind} {name raw rawClose : String} {offset offsetClose : Nat}
      {inner tokens : List Token} {body nodes : List Node}
      (hbody : Derives inner body) (h : Derives tokens nodes) :
      Derives
        (.directive (.opening kind name) raw offset ::
          (inner ++ .directive (.closing kind) rawClose offsetClose :: tokens))
        (.block kind name body :: nodes)

namespace Node

theorem depthAll_consText (run : String) (nodes : List Node) :
    depthAll (consText run nodes) = depthAll nodes := by
  fun_cases consText run nodes with
  | case1 next rest => simp only [depthAll, depth]
  | case2 => simp only [depthAll, depth, Nat.zero_max]

theorem depthAll_splice (nodes after : List Node) :
    depthAll (splice nodes after) = max (depthAll nodes) (depthAll after) := by
  fun_induction splice nodes after with
  | case1 after => simp only [depthAll, Nat.zero_max]
  | case2 run after => simp only [depthAll_consText, depthAll, depth, Nat.zero_max]
  | case3 node rest after hlast ih => simp only [depthAll, ih, Nat.max_assoc]

/-- What is read in open blocks does not nest deeper than the open blocks leave room for. -/
theorem read_depth (awaited : Option BlockKind) (opened : List BlockKind) (tokens : List Token)
    (hopened : opened.length ≤ maxNesting) :
    opened.length + depthAll (read awaited opened tokens).nodes ≤ maxNesting := by
  induction awaited, opened, tokens using read_induction with
  | nil awaited opened =>
    rw [read_nil]
    exact hopened
  | text awaited opened run rest ih =>
    rw [read_text, depthAll_consText]
    exact ih hopened
  | substitution awaited opened name raw offset rest ih =>
    rw [read_variable, depthAll, depth, Nat.zero_max]
    exact ih hopened
  | deep awaited opened kind name raw offset rest h ih =>
    rw [read_deep h, depthAll_consText]
    exact ih hopened
  | closed awaited opened kind name raw offset rest h hclosed ih ihAfter =>
    have hbody := ih (Nat.lt_of_not_ge h)
    have hafter := ihAfter hopened
    rw [List.length_cons] at hbody
    simp only [read_closed h hclosed, depthAll, depth]
    omega
  | unclosed awaited opened kind name raw offset rest h hclosed ih ihAfter =>
    have hbody := ih (Nat.lt_of_not_ge h)
    have hafter := ihAfter hopened
    rw [List.length_cons] at hbody
    simp only [read_unclosed h hclosed, depthAll_consText, depthAll_splice]
    omega
  | own opened kind raw offset rest =>
    rw [read_own_close]
    exact hopened
  | outer awaited opened kind raw offset rest h hmem =>
    rw [read_outer_close h hmem]
    exact hopened
  | unmatched awaited opened kind raw offset rest h hmem ih =>
    rw [read_unmatched_close h hmem, depthAll_consText]
    exact ih hopened

theorem consText_apart {run : String} {nodes : List Node}
    (h : ∀ node ∈ nodes.head?, ¬ node.isText = true) :
    consText run nodes = .text run :: nodes := by
  fun_cases consText run nodes with
  | case1 next rest => exact absurd rfl (h _ rfl)
  | case2 => rfl

end Node

namespace Derives

variable {awaited : Option BlockKind} {opened : List BlockKind} {tokens tail rest : List Token}
  {nodes : List Node} {run : String} {closed : Bool}

/-- A text that meets no other text in what is derived is a node of its own. -/
theorem consText (h : Derives tokens nodes) (happart : Apart Token.isText (.text run :: tokens)) :
    Node.consText run nodes = .text run :: nodes := by
  apply Node.consText_apart
  intro node hnode htext
  obtain ⟨hmeet, -⟩ := List.isChain_cons.1 happart
  cases h with
  | nil => cases hnode
  | text h => exact hmeet _ rfl ⟨rfl, rfl⟩
  | substitution h => cases hnode; cases htext
  | block hbody h => cases hnode; cases htext

/-- Tokens that are read without a finding are derived up to where the reading stops. -/
theorem of_read (awaited : Option BlockKind) (opened : List BlockKind) (tokens : List Token)
    (hfindings : (Node.read awaited opened tokens).findings = [])
    (happart : Apart Token.isText tokens) :
    ∃ derived tail, tokens = derived ++ tail ∧
      Derives derived (Node.read awaited opened tokens).nodes ∧
      Node.Stop awaited opened tail (Node.read awaited opened tokens).closed
        (Node.read awaited opened tokens).rest := by
  induction awaited, opened, tokens using Node.read_induction with
  | nil awaited opened =>
    rw [Node.read_nil]
    exact ⟨[], [], rfl, .nil, .ended⟩
  | text awaited opened run rest ih =>
    rw [Node.read_text] at hfindings ⊢
    obtain ⟨derived, tail, hsplit, hderived, hstop⟩ := ih hfindings happart.tail
    rw [hsplit, ← List.cons_append] at happart
    rw [hderived.consText happart.left_of_append]
    exact ⟨.text run :: derived, tail, congrArg _ hsplit, hderived.text, hstop⟩
  | substitution awaited opened name raw offset rest ih =>
    rw [Node.read_variable] at hfindings ⊢
    obtain ⟨derived, tail, hsplit, hderived, hstop⟩ := ih hfindings happart.tail
    exact ⟨_ :: derived, tail, congrArg _ hsplit, hderived.substitution, hstop⟩
  | deep awaited opened kind name raw offset rest h ih =>
    rw [Node.read_deep h] at hfindings
    cases hfindings
  | closed awaited opened kind name raw offset rest h hclosed ih ihAfter =>
    rw [Node.read_closed h hclosed] at hfindings ⊢
    obtain ⟨hinner, hafter⟩ := List.append_eq_nil_iff.1 hfindings
    obtain ⟨inner, close, hsplit, hbody, hown⟩ := ih hinner happart.tail
    rw [hclosed] at hown
    generalize Node.read (some kind) (kind :: opened) rest = body at *
    cases hown with
    | @own _ rawClose offsetClose _ hkind =>
      cases hkind
      have hrest : Apart Token.isText body.rest := by
        rw [hsplit] at happart
        exact happart.tail.right_of_append.tail
      obtain ⟨derived, tail, hafterSplit, hderived, hstop⟩ := ihAfter hafter hrest
      refine ⟨.directive (.opening kind name) raw offset ::
        (inner ++ .directive (.closing kind) rawClose offsetClose :: derived), tail, ?_,
        hbody.block hderived, hstop⟩
      rw [hsplit, hafterSplit, List.cons_append, List.append_assoc, List.cons_append]
  | unclosed awaited opened kind name raw offset rest h hclosed ih ihAfter =>
    rw [Node.read_unclosed h hclosed] at hfindings
    cases hfindings
  | own opened kind raw offset rest =>
    rw [Node.read_own_close]
    exact ⟨[], _, rfl, .nil, .own rfl⟩
  | outer awaited opened kind raw offset rest h hmem =>
    rw [Node.read_outer_close h hmem]
    exact ⟨[], _, rfl, .nil, .outer h hmem⟩
  | unmatched awaited opened kind raw offset rest h hmem ih =>
    rw [Node.read_unmatched_close h hmem] at hfindings
    cases hfindings

/-- What is derived is read as its tree, up to where the reading stops. -/
theorem read (h : Derives tokens nodes) (happart : Apart Token.isText tokens)
    (hdepth : opened.length + Node.depthAll nodes ≤ maxNesting)
    (hstop : Node.Stop awaited opened tail closed rest) :
    Node.read awaited opened (tokens ++ tail) = ⟨nodes, [], closed, rest⟩ := by
  induction h generalizing awaited opened tail closed rest with
  | nil => exact hstop.read
  | text h ih =>
    have hrest := ih happart.tail hdepth hstop
    rw [List.cons_append, Node.read_text, hrest, h.consText happart]
  | substitution h ih =>
    have hrest := ih happart.tail hdepth hstop
    rw [List.cons_append, Node.read_variable, hrest]
  | @block kind name raw rawClose offset offsetClose inner tokens body nodes hbody h ihBody ih =>
    have hnesting : (kind :: opened).length + Node.depthAll body ≤ maxNesting ∧
        opened.length + Node.depthAll nodes ≤ maxNesting := by
      simp only [Node.depthAll, Node.depth] at hdepth
      rw [List.length_cons]
      omega
    have hread : Node.read (some kind) (kind :: opened)
        (inner ++ .directive (.closing kind) rawClose offsetClose :: (tokens ++ tail)) =
          ⟨body, [], true, tokens ++ tail⟩ :=
      ihBody happart.tail.left_of_append hnesting.1 (.own rfl)
    have hafter : Node.read awaited opened (tokens ++ tail) = ⟨nodes, [], closed, rest⟩ :=
      ih happart.tail.right_of_append.tail hnesting.2 hstop
    have hopened : ¬ opened.length ≥ maxNesting := by
      rw [List.length_cons] at hnesting
      omega
    rw [List.cons_append, List.append_assoc, List.cons_append,
      Node.read_closed hopened (by rw [hread]), hread]
    dsimp only
    rw [hafter, List.nil_append]

def Ends (tail : List Token) : Prop :=
  ∀ t ∈ tail.head?, ∃ kind raw offset, t = .directive (.closing kind) raw offset

theorem ends_closing (kind : BlockKind) (raw : String) (offset : Nat) (rest : List Token) :
    Ends (.directive (.closing kind) raw offset :: rest) := by
  intro t ht
  cases ht
  exact ⟨kind, raw, offset, rfl⟩

theorem eq_nil_of_ends (h : Derives tokens nodes) (hends : Ends tail)
    (hsame : tail = tokens ++ rest) : tokens = [] ∧ nodes = [] := by
  subst hsame
  cases h with
  | nil => exact ⟨rfl, rfl⟩
  | text h =>
    obtain ⟨kind, raw, offset, heq⟩ := hends _ rfl
    cases heq
  | substitution h =>
    obtain ⟨kind, raw, offset, heq⟩ := hends _ rfl
    cases heq
  | block hbody h =>
    obtain ⟨kind, raw, offset, heq⟩ := hends _ rfl
    cases heq

/-- A derivation goes as far as it can, and in one way. -/
theorem split_unique {other more : List Token} {otherNodes : List Node} (h : Derives tokens nodes)
    (hother : Derives other otherNodes) (hends : Ends tail) (hmore : Ends more)
    (hsame : tokens ++ tail = other ++ more) :
    tokens = other ∧ nodes = otherNodes ∧ tail = more := by
  induction h generalizing other otherNodes tail more with
  | nil =>
    rw [List.nil_append] at hsame
    obtain ⟨rfl, rfl⟩ := hother.eq_nil_of_ends hends hsame
    exact ⟨rfl, rfl, hsame⟩
  | @text run tokens nodes h ih =>
    cases hother with
    | nil => exact absurd (h.text.eq_nil_of_ends hmore hsame.symm).1 (List.cons_ne_nil _ _)
    | text hother =>
      obtain ⟨hrun, htail⟩ := List.cons.inj hsame
      cases hrun
      obtain ⟨rfl, rfl, rfl⟩ := ih hother hends hmore htail
      exact ⟨rfl, rfl, rfl⟩
    | substitution hother => cases hsame
    | block hbody hother => cases hsame
  | @substitution name raw offset tokens nodes h ih =>
    cases hother with
    | nil => exact absurd (h.substitution.eq_nil_of_ends hmore hsame.symm).1 (List.cons_ne_nil _ _)
    | text hother => cases hsame
    | substitution hother =>
      obtain ⟨hname, htail⟩ := List.cons.inj hsame
      cases hname
      obtain ⟨rfl, rfl, rfl⟩ := ih hother hends hmore htail
      exact ⟨rfl, rfl, rfl⟩
    | block hbody hother => cases hsame
  | @block kind name raw rawClose offset offsetClose inner tokens body nodes hbody h ihBody ih =>
    cases hother with
    | nil => exact absurd ((hbody.block h).eq_nil_of_ends hmore hsame.symm).1 (List.cons_ne_nil _ _)
    | text hother => cases hsame
    | substitution hother => cases hsame
    | block hotherBody hother =>
      obtain ⟨hopening, hinner⟩ := List.cons.inj hsame
      cases hopening
      rw [List.append_eq, List.append_eq, List.append_assoc, List.append_assoc] at hinner
      -- The bodies end at the first close that does not belong to a block in them.
      obtain ⟨rfl, rfl, hclose⟩ :=
        ihBody hotherBody (ends_closing _ _ _ _) (ends_closing _ _ _ _) hinner
      obtain ⟨hclosing, htail⟩ := List.cons.inj hclose
      cases hclosing
      obtain ⟨rfl, rfl, rfl⟩ := ih hother hends hmore htail
      exact ⟨rfl, rfl, rfl⟩

theorem unique {other : List Node} (h : Derives tokens nodes) (hother : Derives tokens other) :
    nodes = other := by
  have hends : Ends [] := by
    intro t ht
    cases ht
  exact (h.split_unique hother hends hends rfl).2.1

end Derives

namespace Template

theorem isWellFormed_iff (source : String) :
    (parse source).isWellFormed = true ↔ (Node.read none [] (Token.scan source)).findings = [] :=
  List.isEmpty_iff

theorem derives_of_wellFormed {source : String} (h : (parse source).isWellFormed = true) :
    Derives (Token.scan source) (parse source).nodes := by
  obtain ⟨derived, tail, hsplit, hderived, hstop⟩ :=
    Derives.of_read none [] (Token.scan source) ((isWellFormed_iff source).1 h) (scan_apart source)
  rw [hstop.outermost, List.append_nil] at hsplit
  subst hsplit
  exact hderived

theorem wellFormed_of_derives {source : String} {nodes : List Node}
    (h : Derives (Token.scan source) nodes) (hdepth : Node.depthAll nodes ≤ maxNesting) :
    (parse source).isWellFormed = true := by
  have hread : Node.read none [] (Token.scan source ++ []) = ⟨nodes, [], false, []⟩ := by
    apply h.read (scan_apart source) _ .ended
    rwa [List.length_nil, Nat.zero_add]
  rw [List.append_nil] at hread
  rw [isWellFormed_iff, hread]

theorem parse_depth (source : String) : Node.depthAll (parse source).nodes ≤ maxNesting := by
  have hdepth := Node.read_depth none [] (Token.scan source) (Nat.zero_le _)
  rwa [List.length_nil, Nat.zero_add] at hdepth

/-- A template has no findings exactly when its tokens are derived with blocks that nest sixty-four
deep at most, and its nodes are the only tree of its tokens then. -/
theorem wellFormed_iff_derives (source : String) :
    ((parse source).isWellFormed = true ↔
      ∃ nodes, Derives (Token.scan source) nodes ∧ Node.depthAll nodes ≤ 64) ∧
    ((parse source).isWellFormed = true →
      ∀ nodes, Derives (Token.scan source) nodes ↔ nodes = (parse source).nodes) := by
  constructor
  · constructor
    · intro h
      exact ⟨(parse source).nodes, derives_of_wellFormed h, parse_depth source⟩
    · rintro ⟨nodes, h, hdepth⟩
      exact wellFormed_of_derives h hdepth
  · intro h nodes
    have hparsed := derives_of_wellFormed h
    constructor
    · intro hnodes
      exact hnodes.unique hparsed
    · rintro rfl
      exact hparsed

theorem wellFormed_conditional :
    let source := "\x7b\x7b#if a\x7d\x7dx\x7b\x7b/if\x7d\x7d"
    (parse source).isWellFormed = true ∧
      ∀ nodes, Derives (Token.scan source) nodes ↔ nodes = (parse source).nodes := by
  intro source
  have h : (parse source).isWellFormed = true := by decide +kernel
  exact ⟨h, (wellFormed_iff_derives source).2 h⟩

end Template

end QuotePress
