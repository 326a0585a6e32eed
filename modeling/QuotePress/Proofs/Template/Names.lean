import QuotePress.Proofs.Template.Forest

/-! # The names a template reports

The names reported for a template are those of the directives that have their place in its tree.
Nothing else is looked up when the template is rendered. -/
namespace QuotePress

theorem mem_sortedNames {name : String} {names : List String} :
    name ∈ sortedNames names ↔ name ∈ names := by
  have hfold : ∀ (names : List String) (m : NameMap Unit),
      name ∈ ((names.map fun n => (n, ())).foldl (fun m e => m.insert e.1 e.2) m).names ↔
        name ∈ names ∨ name ∈ m.names := by
    intro names
    induction names with
    | nil => simp
    | cons first rest ih =>
      intro m
      have hinsert : name ∈ (m.insert first ()).names ↔ name = first ∨ name ∈ m.names :=
        NameMap.name_mem_insertEntry
      rw [List.map_cons, List.foldl_cons, ih, hinsert, List.mem_cons]
      tauto
  rw [sortedNames, NameMap.ofList, hfold]
  exact or_iff_left (by simp [NameMap.names, NameMap.empty])

namespace Directive

def valueName? : Directive → Option String
  | .variable name => some name
  | .opening .conditional name => some name
  | .opening .loop _ => none
  | .closing _ => none

def listName? : Directive → Option String
  | .opening .loop name => some name
  | .opening .conditional _ => none
  | .variable _ => none
  | .closing _ => none

theorem valueName?_eq_some_iff {meaning : Directive} {name : String} :
    meaning.valueName? = some name ↔
      meaning = .variable name ∨ meaning = .opening .conditional name := by
  fun_cases valueName? meaning <;> simp

theorem listName?_eq_some_iff {meaning : Directive} {name : String} :
    meaning.listName? = some name ↔ meaning = .opening .loop name := by
  fun_cases listName? meaning <;> simp

def isClosing : Directive → Bool
  | .closing _ => true
  | .variable _ => false
  | .opening .. => false

end Directive

namespace Node

def directive? : Node → Option Directive
  | .text _ => none
  | .variable name => some (.variable name)
  | .block kind name _ => some (.opening kind name)

mutual

def directives : Node → List Directive
  | .text _ => []
  | .variable name => [.variable name]
  | .block kind name body => .opening kind name :: directivesAll body

def directivesAll : List Node → List Directive
  | [] => []
  | node :: rest => directives node ++ directivesAll rest

end

theorem valueNamesAll_eq (nodes : List Node) :
    valueNamesAll nodes = (directivesAll nodes).filterMap Directive.valueName? := by
  induction nodes using forest_induction with
  | nil => rfl
  | text run rest ih => exact ih
  | substitution name rest ih => exact congrArg (name :: ·) ih
  | block kind name body rest ihBody ih =>
    rw [directivesAll, directives, List.cons_append, List.filterMap_cons, List.filterMap_append,
      ← ihBody, ← ih]
    cases kind <;> rfl

theorem listNamesAll_eq (nodes : List Node) :
    listNamesAll nodes = (directivesAll nodes).filterMap Directive.listName? := by
  induction nodes using forest_induction with
  | nil => rfl
  | text run rest ih => exact ih
  | substitution name rest ih => exact ih
  | block kind name body rest ihBody ih =>
    rw [directivesAll, directives, List.cons_append, List.filterMap_cons, List.filterMap_append,
      ← ihBody, ← ih]
    cases kind <;> rfl

theorem directive?_variable_iff {node : Node} {name : String} :
    node.directive? = some (.variable name) ↔ node = .variable name := by
  fun_cases directive? node <;> simp

theorem directive?_opening_iff {node : Node} {kind : BlockKind} {name : String} :
    node.directive? = some (.opening kind name) ↔ ∃ body, node = .block kind name body := by
  fun_cases directive? node <;> simp

theorem mem_directivesAll {meaning : Directive} (nodes : List Node) :
    meaning ∈ directivesAll nodes ↔
      ∃ node, Occurs node nodes ∧ node.directive? = some meaning := by
  induction nodes using forest_induction with
  | nil =>
    refine iff_of_false (by simp [directivesAll]) ?_
    rintro ⟨node, hnode, -⟩
    exact occurs_nil hnode
  | text run rest ih =>
    rw [directivesAll, directives, List.nil_append, ih]
    constructor
    · rintro ⟨node, hnode, hmeaning⟩
      exact ⟨node, hnode.cons, hmeaning⟩
    · rintro ⟨node, hnode, hmeaning⟩
      rcases occurs_cons hnode with rfl | ⟨kind, name, body, heq, -⟩ | hnode
      · cases hmeaning
      · cases heq
      · exact ⟨node, hnode, hmeaning⟩
  | substitution name rest ih =>
    rw [directivesAll, directives, List.singleton_append, List.mem_cons, ih]
    constructor
    · rintro (rfl | ⟨node, hnode, hmeaning⟩)
      · exact ⟨.variable name, .here List.mem_cons_self, rfl⟩
      · exact ⟨node, hnode.cons, hmeaning⟩
    · rintro ⟨node, hnode, hmeaning⟩
      rcases occurs_cons hnode with rfl | ⟨kind, name, body, heq, -⟩ | hnode
      · cases hmeaning
        exact Or.inl rfl
      · cases heq
      · exact Or.inr ⟨node, hnode, hmeaning⟩
  | block kind name body rest ihBody ih =>
    rw [directivesAll, directives, List.cons_append, List.mem_cons, List.mem_append, ihBody, ih]
    constructor
    · rintro (rfl | ⟨node, hnode, hmeaning⟩ | ⟨node, hnode, hmeaning⟩)
      · exact ⟨.block kind name body, .here List.mem_cons_self, rfl⟩
      · exact ⟨node, .inside List.mem_cons_self hnode, hmeaning⟩
      · exact ⟨node, hnode.cons, hmeaning⟩
    · rintro ⟨node, hnode, hmeaning⟩
      rcases occurs_cons hnode with rfl | ⟨_, _, _, heq, hnode⟩ | hnode
      · cases hmeaning
        exact Or.inl rfl
      · cases heq
        exact Or.inr (Or.inl ⟨node, hnode, hmeaning⟩)
      · exact Or.inr (Or.inr ⟨node, hnode, hmeaning⟩)

theorem variable_mem_directivesAll {name : String} {nodes : List Node} :
    .variable name ∈ directivesAll nodes ↔ Occurs (.variable name) nodes := by
  simp only [mem_directivesAll, directive?_variable_iff, exists_eq_right]

theorem opening_mem_directivesAll {kind : BlockKind} {name : String} {nodes : List Node} :
    .opening kind name ∈ directivesAll nodes ↔ ∃ body, Occurs (.block kind name body) nodes := by
  rw [mem_directivesAll]
  constructor
  · rintro ⟨node, hnode, hopening⟩
    obtain ⟨body, rfl⟩ := directive?_opening_iff.1 hopening
    exact ⟨body, hnode⟩
  · rintro ⟨body, hbody⟩
    exact ⟨_, hbody, rfl⟩

theorem directivesAll_consText (run : String) (nodes : List Node) :
    directivesAll (consText run nodes) = directivesAll nodes := by
  fun_cases consText run nodes with
  | case1 next rest => rfl
  | case2 => rfl

theorem directivesAll_splice (nodes after : List Node) :
    directivesAll (splice nodes after) = directivesAll nodes ++ directivesAll after := by
  fun_induction splice nodes after with
  | case1 after => rfl
  | case2 run after => exact directivesAll_consText run after
  | case3 node rest after hlast ih => rw [directivesAll, ih, directivesAll, List.append_assoc]

end Node

namespace Token

def placed? (findings : List Diagnostic) : Token → Option Directive
  | .text _ => none
  | .directive meaning _ offset =>
    if meaning.isClosing ∨ ∃ d ∈ findings, d.offset = offset then none else some meaning

def Clear (findings : List Diagnostic) (tokens : List Token) : Prop :=
  ∀ d ∈ findings, ∀ p ∈ tokens.filterMap place?, d.offset ≠ p.1

theorem placed?_eq_some_iff {findings : List Diagnostic} {t : Token} {meaning : Directive} :
    t.placed? findings = some meaning ↔ ∃ raw offset, t = .directive meaning raw offset ∧
      meaning.isClosing = false ∧ ∀ d ∈ findings, d.offset ≠ offset := by
  cases t with
  | text run =>
    refine iff_of_false nofun ?_
    rintro ⟨raw, offset, heq, -⟩
    cases heq
  | directive other raw offset =>
    rw [placed?]
    split
    · refine iff_of_false nofun ?_
      rintro ⟨_, _, ⟨rfl, rfl, rfl⟩, hopen, hclear⟩
      rename_i h
      rcases h with hclosing | ⟨d, hd, hoffset⟩
      · rw [hopen] at hclosing
        cases hclosing
      · exact hclear d hd hoffset
    · rename_i h
      simp only [not_or, Bool.not_eq_true, not_exists, not_and] at h
      constructor
      · rintro ⟨⟩
        exact ⟨raw, offset, rfl, h⟩
      · rintro ⟨_, _, ⟨rfl, rfl, rfl⟩, -⟩
        rfl

theorem placed?_found {findings : List Diagnostic} {meaning : Directive} {raw : String}
    {offset : Nat} (h : ∃ d ∈ findings, d.offset = offset) :
    placed? findings (.directive meaning raw offset) = none := by
  rw [placed?, if_pos (Or.inr h)]

theorem placed?_closing (findings : List Diagnostic) (kind : BlockKind) (raw : String)
    (offset : Nat) : placed? findings (.directive (.closing kind) raw offset) = none := by
  simp [placed?, Directive.isClosing]

theorem filterMap_placed?_congr {findings others : List Diagnostic} {tokens : List Token}
    (h : ∀ p ∈ tokens.filterMap place?,
      (∃ d ∈ findings, d.offset = p.1) ↔ ∃ d ∈ others, d.offset = p.1) :
    tokens.filterMap (placed? findings) = tokens.filterMap (placed? others) := by
  apply List.filterMap_congr
  intro t ht
  cases t with
  | text run => rfl
  | directive meaning raw offset =>
    have hsame := h (offset, raw) (List.mem_filterMap.2 ⟨_, ht, rfl⟩)
    simp only [placed?, hsame]

/-- Findings about other tokens take no directive its place. -/
theorem filterMap_placed?_left {front findings : List Diagnostic} {tokens : List Token}
    (h : Clear front tokens) :
    tokens.filterMap (placed? (front ++ findings)) = tokens.filterMap (placed? findings) := by
  apply filterMap_placed?_congr
  intro p hp
  constructor
  · rintro ⟨d, hd, hoffset⟩
    rcases List.mem_append.1 hd with hd | hd
    · exact absurd hoffset (h d hd p hp)
    · exact ⟨d, hd, hoffset⟩
  · rintro ⟨d, hd, hoffset⟩
    exact ⟨d, List.mem_append_right _ hd, hoffset⟩

theorem filterMap_placed?_right {findings back : List Diagnostic} {tokens : List Token}
    (h : Clear back tokens) :
    tokens.filterMap (placed? (findings ++ back)) = tokens.filterMap (placed? findings) := by
  apply filterMap_placed?_congr
  intro p hp
  constructor
  · rintro ⟨d, hd, hoffset⟩
    rcases List.mem_append.1 hd with hd | hd
    · exact ⟨d, hd, hoffset⟩
    · exact absurd hoffset (h d hd p hp)
  · rintro ⟨d, hd, hoffset⟩
    exact ⟨d, List.mem_append_left _ hd, hoffset⟩

variable {findings back : List Diagnostic} {tokens others taken : List Token}

theorem clear_of_places
    (hplaces : (findings.map Diagnostic.place).Sublist (tokens.filterMap place?))
    (hother : ∀ p ∈ tokens.filterMap place?, ∀ q ∈ others.filterMap place?, p.1 ≠ q.1) :
    Clear findings others := by
  intro d hd q hq
  exact hother d.place (hplaces.mem (List.mem_map_of_mem hd)) q hq

def InOrder (tokens : List Token) : Prop :=
  (tokens.filterMap place?).Pairwise fun a b => a.1 < b.1

theorem InOrder.right (h : InOrder (tokens ++ others)) : InOrder others := by
  rw [InOrder, List.filterMap_append] at h
  exact (List.pairwise_append.1 h).2.1

theorem InOrder.tail {t : Token} (h : InOrder (t :: tokens)) : InOrder tokens :=
  right (show InOrder ([t] ++ tokens) from h)

theorem InOrder.left (h : InOrder (tokens ++ others)) : InOrder tokens := by
  rw [InOrder, List.filterMap_append] at h
  exact (List.pairwise_append.1 h).1

theorem InOrder.clear_right (h : InOrder (tokens ++ others))
    (hplaces : (findings.map Diagnostic.place).Sublist (tokens.filterMap place?)) :
    Clear findings others := by
  rw [InOrder, List.filterMap_append] at h
  exact clear_of_places hplaces fun p hp q hq =>
    Nat.ne_of_lt ((List.pairwise_append.1 h).2.2 p hp q hq)

theorem InOrder.clear_left (h : InOrder (tokens ++ others))
    (hplaces : (findings.map Diagnostic.place).Sublist (others.filterMap place?)) :
    Clear findings tokens := by
  rw [InOrder, List.filterMap_append] at h
  exact clear_of_places hplaces fun p hp q hq =>
    Nat.ne_of_gt ((List.pairwise_append.1 h).2.2 q hq p hp)

/-- A directive keeps its place when the findings are about tokens that follow it. -/
theorem placed?_ahead {meaning : Directive} {raw : String} {offset : Nat}
    (hopen : meaning.isClosing = false)
    (h : InOrder (.directive meaning raw offset :: taken))
    (hplaces : (findings.map Diagnostic.place).Sublist (taken.filterMap place?)) :
    placed? findings (.directive meaning raw offset) = some meaning := by
  have hclear : Clear findings [.directive meaning raw offset] := h.clear_left hplaces
  apply placed?_eq_some_iff.2
  exact ⟨raw, offset, rfl, hopen, fun d hd => hclear d hd _ List.mem_cons_self⟩

/-- A directive that was found to have no place adds nothing to those that follow it. -/
theorem filterMap_placed?_found {meaning : Directive} {raw : String} {offset : Nat} {d : Diagnostic}
    {placed : List Directive} (h : InOrder (.directive meaning raw offset :: taken))
    (hd : d.offset = offset) (hsame : placed = taken.filterMap (placed? findings)) :
    placed = (Token.directive meaning raw offset :: taken).filterMap (placed? (d :: findings)) := by
  have hclear : Clear [d] taken := by
    intro other hother q hq
    rw [List.mem_singleton.1 hother, hd]
    exact Nat.ne_of_lt (List.rel_of_pairwise_cons h hq)
  rw [List.filterMap_cons, placed?_found ⟨d, List.mem_cons_self, hd⟩, hsame]
  exact (filterMap_placed?_left hclear).symm

theorem filterMap_placed?_append (h : InOrder (taken ++ tokens))
    (hplaces : (findings.map Diagnostic.place).Sublist (taken.filterMap place?))
    (hback : (back.map Diagnostic.place).Sublist (tokens.filterMap place?)) :
    (taken ++ tokens).filterMap (placed? (findings ++ back)) =
      taken.filterMap (placed? findings) ++ tokens.filterMap (placed? back) := by
  rw [List.filterMap_append, filterMap_placed?_right (h.clear_left hback),
    filterMap_placed?_left (h.clear_right hplaces)]

end Token

namespace Node

open Token (placed? place? InOrder)

/-- The tree has the directives of the tokens it was read from, in the same order, but for the
closes and those that were found to have no place. -/
theorem directives_read (awaited : Option BlockKind) (opened : List BlockKind)
    (tokens : List Token) (horder : InOrder tokens) :
    ∃ taken, tokens = taken ++ (read awaited opened tokens).rest ∧
      ((read awaited opened tokens).findings.map Diagnostic.place).Sublist
        (taken.filterMap place?) ∧
      directivesAll (read awaited opened tokens).nodes =
        taken.filterMap (placed? (read awaited opened tokens).findings) := by
  induction awaited, opened, tokens using read_induction with
  | nil awaited opened =>
    rw [read_nil]
    exact ⟨[], rfl, .slnil, rfl⟩
  | text awaited opened run rest ih =>
    obtain ⟨taken, hsplit, hplaces, hsame⟩ := ih horder
    rw [read_text, directivesAll_consText]
    exact ⟨.text run :: taken, congrArg _ hsplit, hplaces, hsame⟩
  | substitution awaited opened name raw offset rest ih =>
    obtain ⟨taken, hsplit, hplaces, hsame⟩ := ih horder.tail
    rw [hsplit, ← List.cons_append] at horder
    rw [read_variable]
    refine ⟨.directive (.variable name) raw offset :: taken, congrArg _ hsplit, hplaces.cons _, ?_⟩
    rw [List.filterMap_cons, Token.placed?_ahead rfl horder.left hplaces, ← hsame]
    rfl
  | deep awaited opened kind name raw offset rest h ih =>
    obtain ⟨taken, hsplit, hplaces, hsame⟩ := ih horder.tail
    rw [hsplit, ← List.cons_append] at horder
    rw [read_deep h, directivesAll_consText]
    refine ⟨.directive (.opening kind name) raw offset :: taken, congrArg _ hsplit,
      hplaces.cons_cons _, ?_⟩
    exact Token.filterMap_placed?_found horder.left rfl hsame
  | closed awaited opened kind name raw offset rest h hclosed ih ihAfter =>
    have hrest : InOrder rest := horder.tail
    obtain ⟨inner, hbody, hplaces, hsame⟩ := ih hrest
    rw [read_closed h hclosed]
    generalize read (some kind) (kind :: opened) rest = body at *
    rw [hbody] at hrest
    obtain ⟨taken, hsplit, hback, hafter⟩ := ihAfter hrest.right
    have hblock : rest = inner ++ taken ++ (read awaited opened body.rest).rest := by
      rw [List.append_assoc, ← hsplit, ← hbody]
    have hboth : ((body.findings ++ (read awaited opened body.rest).findings).map
        Diagnostic.place).Sublist ((inner ++ taken).filterMap place?) := by
      rw [List.map_append, List.filterMap_append]
      exact hplaces.append hback
    rw [hblock, ← List.cons_append] at horder
    refine ⟨.directive (.opening kind name) raw offset :: (inner ++ taken), congrArg _ hblock,
      hboth.cons _, ?_⟩
    rw [List.filterMap_cons, Token.placed?_ahead rfl horder.left hboth,
      Token.filterMap_placed?_append horder.left.tail hplaces hback,
      ← hsame, ← hafter]
    rfl
  | unclosed awaited opened kind name raw offset rest h hclosed ih ihAfter =>
    have hrest : InOrder rest := horder.tail
    obtain ⟨inner, hbody, hplaces, hsame⟩ := ih hrest
    rw [read_unclosed h hclosed]
    generalize read (some kind) (kind :: opened) rest = body at *
    rw [hbody] at hrest
    obtain ⟨taken, hsplit, hback, hafter⟩ := ihAfter hrest.right
    have hblock : rest = inner ++ taken ++ (read awaited opened body.rest).rest := by
      rw [List.append_assoc, ← hsplit, ← hbody]
    rw [hblock, ← List.cons_append] at horder
    refine ⟨.directive (.opening kind name) raw offset :: (inner ++ taken), congrArg _ hblock,
      ?_, ?_⟩
    · simp only [List.map_cons, List.map_append, List.filterMap_cons, List.filterMap_append]
      exact (hplaces.append hback).cons_cons _
    · rw [directivesAll_consText, directivesAll_splice]
      refine Token.filterMap_placed?_found horder.left rfl ?_
      rw [Token.filterMap_placed?_append horder.left.tail hplaces
        hback, ← hsame, ← hafter]
  | own opened kind raw offset rest =>
    rw [read_own_close]
    refine ⟨[.directive (.closing kind) raw offset], rfl, List.nil_sublist _, ?_⟩
    rw [List.filterMap_cons, Token.placed?_closing]
    rfl
  | outer awaited opened kind raw offset rest h hmem =>
    rw [read_outer_close h hmem]
    exact ⟨[], rfl, .slnil, rfl⟩
  | unmatched awaited opened kind raw offset rest h hmem ih =>
    obtain ⟨taken, hsplit, hplaces, hsame⟩ := ih horder.tail
    rw [hsplit, ← List.cons_append] at horder
    rw [read_unmatched_close h hmem, directivesAll_consText]
    refine ⟨.directive (.closing kind) raw offset :: taken, congrArg _ hsplit,
      hplaces.cons_cons _, ?_⟩
    exact Token.filterMap_placed?_found horder.left rfl hsame

/-- Outside of all blocks nothing stops the reading before the end. -/
theorem rest_outermost (tokens : List Token) : (read none [] tokens).rest = [] := by
  have hall : ∀ awaited opened tokens, awaited = none → opened = [] →
      (read awaited opened tokens).rest = [] := by
    intro awaited opened tokens
    induction awaited, opened, tokens using read_induction with
    | nil => simp only [read_nil, implies_true]
    | text => simpa only [read_text]
    | substitution => simpa only [read_variable]
    | deep _ _ _ _ _ _ _ h => simpa only [read_deep h]
    | closed _ _ _ _ _ _ _ h hclosed => simpa only [read_closed h hclosed]
    | unclosed _ _ _ _ _ _ _ h hclosed => simpa only [read_unclosed h hclosed]
    | own => nofun
    | outer _ _ _ _ _ _ h hmem =>
      rintro - rfl
      cases hmem
    | unmatched _ _ _ _ _ _ h hmem => simpa only [read_unmatched_close h hmem]
  exact hall none [] tokens rfl rfl

end Node

def Scope.SameAt (scope other : Scope) (name : String) : Prop :=
  ((scope.value? name).map Value.toText).getD "" =
      ((other.value? name).map Value.toText).getD "" ∧
    scope.isTruthy name = other.isTruthy name

structure Scope.SameOn (values lists : List String) (scope other : Scope) : Prop where
  shown : ∀ name ∈ values, scope.SameAt other name
  records : ∀ name ∈ lists,
    List.Forall₂ (fun r r' => ∀ field ∈ values, SameAt (.record r) (.record r') field)
      ((scope.list? name).getD []) ((other.list? name).getD [])

/-- Nodes whose names are among those given render alike in scopes that are the same on them. -/
theorem Node.renderAll_same {values lists : List String} (nodes : List Node) {scope other : Scope}
    (hvalues : valueNamesAll nodes ⊆ values) (hlists : listNamesAll nodes ⊆ lists)
    (h : scope.SameOn values lists other) : renderAll scope nodes = renderAll other nodes := by
  induction nodes using forest_induction generalizing scope other with
  | nil => rfl
  | text run rest ih => rw [renderAll, renderAll, ih hvalues hlists h, render, render]
  | substitution name rest ih =>
    obtain ⟨hname, hrest⟩ := List.cons_subset.1 hvalues
    obtain ⟨htext, -⟩ := h.shown name hname
    rw [renderAll, renderAll, ih hrest hlists h, render, render, htext]
  | block kind name body rest ihBody ih =>
    rw [valueNamesAll] at hvalues
    rw [listNamesAll] at hlists
    obtain ⟨hnode, hrest⟩ := List.append_subset.1 hvalues
    obtain ⟨hnodeLists, hrestLists⟩ := List.append_subset.1 hlists
    rw [renderAll, renderAll, ih hrest hrestLists h]
    congr 1
    cases kind with
    | conditional =>
      obtain ⟨hname, hbody⟩ := List.cons_subset.1 hnode
      obtain ⟨-, htruth⟩ := h.shown name hname
      rw [render, render, htruth, ihBody hbody hnodeLists h]
    | loop =>
      obtain ⟨hname, hbodyLists⟩ := List.cons_subset.1 hnodeLists
      have hbody : List.Forall₂ (fun r r' =>
          renderAll (.record r) body = renderAll (.record r') body)
          ((scope.list? name).getD []) ((other.list? name).getD []) :=
        (h.records name hname).imp fun r r' hsame =>
          ihBody hnode hbodyLists ⟨hsame, fun _ _ => .nil⟩
      rw [render, render]
      congr 1
      exact List.forall₂_eq_eq_eq ▸
        List.forall₂_map_left_iff.2 (List.forall₂_map_right_iff.2 hbody)

namespace Template

variable {source name : String}

theorem mem_variableNames {t : Template} : name ∈ t.variableNames ↔
    .variable name ∈ Node.directivesAll t.nodes ∨
      .opening .conditional name ∈ Node.directivesAll t.nodes := by
  rw [variableNames, mem_sortedNames, Node.valueNamesAll_eq, List.mem_filterMap]
  simp only [Directive.valueName?_eq_some_iff, and_or_left, exists_or, exists_eq_right]

theorem mem_sectionNames {t : Template} :
    name ∈ t.sectionNames ↔ .opening .loop name ∈ Node.directivesAll t.nodes := by
  rw [sectionNames, mem_sortedNames, Node.listNamesAll_eq, List.mem_filterMap]
  simp only [Directive.listName?_eq_some_iff, exists_eq_right]

/-- The tree has the directives of the text that are no closes and that have no diagnostic. -/
theorem mem_directives_parse {meaning : Directive} :
    meaning ∈ Node.directivesAll (parse source).nodes ↔
      ∃ raw offset, .directive meaning raw offset ∈ Token.scan source ∧
        meaning.isClosing = false ∧ ∀ d ∈ (parse source).diagnostics, d.offset ≠ offset := by
  obtain ⟨taken, hsplit, -, hsame⟩ :=
    Node.directives_read none [] (Token.scan source) (scan_ascending source)
  rw [Node.rest_outermost, List.append_nil] at hsplit
  rw [← hsplit] at hsame
  change meaning ∈ Node.directivesAll (Node.read none [] (Token.scan source)).nodes ↔ _
  rw [hsame, List.mem_filterMap]
  constructor
  · rintro ⟨t, ht, hplaced⟩
    obtain ⟨raw, offset, rfl, hopen, hclear⟩ := Token.placed?_eq_some_iff.1 hplaced
    exact ⟨raw, offset, ht, hopen, hclear⟩
  · rintro ⟨raw, offset, ht, hopen, hclear⟩
    exact ⟨_, ht, Token.placed?_eq_some_iff.2 ⟨raw, offset, rfl, hopen, hclear⟩⟩

/-- The contexts agree on what a template asks for: the value and the truth of the names that are
reported as values, and the lists of those reported as lists, record by record. -/
structure Agree (t : Template) (c d : Context) : Prop where
  values : ∀ name ∈ t.variableNames,
    c.value? name = d.value? name ∧ c.isTruthy name = d.isTruthy name
  lists : ∀ name ∈ t.sectionNames,
    List.Forall₂ (fun r r' : Record => ∀ field ∈ t.variableNames, r.get? field = r'.get? field)
      ((c.list? name).getD []) ((d.list? name).getD [])

theorem Agree.sameOn {t : Template} {c d : Context} (h : t.Agree c d) :
    Scope.SameOn t.variableNames t.sectionNames (.document c) (.document d) := by
  constructor
  · intro name hname
    obtain ⟨hvalue, htruth⟩ := h.values name hname
    exact ⟨by rw [Scope.value?, Scope.value?, hvalue], htruth⟩
  · intro name hname
    refine (h.lists name hname).imp fun r r' hsame field hfield => ?_
    have hvalue := hsame field hfield
    exact ⟨by rw [Scope.value?, Scope.value?, hvalue],
      by rw [Scope.isTruthy, Scope.isTruthy, hvalue]⟩

/-- A rendering depends on the context only through the names that the template reports. These are
the names of the nodes in the tree; and they are the names of the directives of the text that have no
diagnostic, for a directive that has one is literal text. -/
theorem render_of_reported (source : String) :
    (∀ c d : Context, (parse source).Agree c d →
      (parse source).render (.document c) = (parse source).render (.document d)) ∧
    (∀ name, name ∈ (parse source).variableNames ↔
      Node.Occurs (.variable name) (parse source).nodes ∨
        ∃ body, Node.Occurs (.block .conditional name body) (parse source).nodes) ∧
    (∀ name, name ∈ (parse source).sectionNames ↔
      ∃ body, Node.Occurs (.block .loop name body) (parse source).nodes) ∧
    (∀ name, name ∈ (parse source).variableNames ↔
      ∃ meaning raw offset, .directive meaning raw offset ∈ Token.scan source ∧
        (meaning = .variable name ∨ meaning = .opening .conditional name) ∧
        ∀ d ∈ (parse source).diagnostics, d.offset ≠ offset) ∧
    ∀ name, name ∈ (parse source).sectionNames ↔
      ∃ raw offset, .directive (.opening .loop name) raw offset ∈ Token.scan source ∧
        ∀ d ∈ (parse source).diagnostics, d.offset ≠ offset := by
  refine ⟨?_, ?_, ?_, ?_, ?_⟩
  · intro c d hagree
    refine Node.renderAll_same _ ?_ ?_ hagree.sameOn
    · intro name hname
      exact mem_sortedNames.2 hname
    · intro name hname
      exact mem_sortedNames.2 hname
  · intro name
    rw [mem_variableNames, Node.variable_mem_directivesAll, Node.opening_mem_directivesAll]
  · intro name
    rw [mem_sectionNames, Node.opening_mem_directivesAll]
  · intro name
    rw [mem_variableNames, mem_directives_parse, mem_directives_parse]
    constructor
    · rintro (⟨raw, offset, ht, -, hclear⟩ | ⟨raw, offset, ht, -, hclear⟩)
      · exact ⟨_, raw, offset, ht, Or.inl rfl, hclear⟩
      · exact ⟨_, raw, offset, ht, Or.inr rfl, hclear⟩
    · rintro ⟨meaning, raw, offset, ht, rfl | rfl, hclear⟩
      · exact Or.inl ⟨raw, offset, ht, rfl, hclear⟩
      · exact Or.inr ⟨raw, offset, ht, rfl, hclear⟩
  · intro name
    rw [mem_sectionNames, mem_directives_parse]
    constructor
    · rintro ⟨raw, offset, ht, -, hclear⟩
      exact ⟨raw, offset, ht, hclear⟩
    · rintro ⟨raw, offset, ht, hclear⟩
      exact ⟨raw, offset, ht, rfl, hclear⟩

theorem render_of_reported_unclosed :
    let source := "\x7b\x7b#if gone\x7d\x7d\x7b\x7b#if rows\x7d\x7d\x7b\x7b#each rows\x7d\x7d" ++
      "\x7b\x7bx\x7d\x7d\x7b\x7b/each\x7d\x7d\x7b\x7b/if\x7d\x7d"
    let row := NameMap.empty.insert "x" (.text "1")
    let c := Context.bind (.bindList .empty "rows" [row.insert "hidden" .null]) "gone" .null
    let d := Context.bindList .empty "rows" [row]
    .directive (.opening .conditional "gone") "\x7b\x7b#if gone\x7d\x7d" 0 ∈
        Token.scan source ∧
      (parse source).variableNames = ["rows", "x"] ∧ (parse source).Agree c d ∧
      (parse source).render (.document c) = (parse source).render (.document d) := by
  intro source row c d
  have hvalues : (parse source).variableNames = ["rows", "x"] := by decide +kernel
  have hlists : (parse source).sectionNames = ["rows"] := by decide +kernel
  have hc : c.list? "rows" = some [row.insert "hidden" .null] := by decide +kernel
  have hd : d.list? "rows" = some [row] := by decide +kernel
  have hagree : (parse source).Agree c d := by
    constructor
    · rw [hvalues]
      decide +kernel
    · rw [hvalues, hlists]
      intro name hname
      rw [List.mem_singleton.1 hname, hc, hd]
      exact .cons (by decide +kernel) .nil
  exact ⟨by decide +kernel, hvalues, hagree, (render_of_reported source).1 c d hagree⟩

end Template

end QuotePress
