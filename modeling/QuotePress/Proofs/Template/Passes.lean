import QuotePress.Proofs.Template.Forest
import Mathlib.Logic.Relation

/-! # Rendering in three passes

Loops are replaced by their texts, then conditionals are resolved one at a time until none is left,
then the values are put in. Whatever the order of the second pass, the text is the one that a
single walk over the tree renders. -/
namespace QuotePress.Node

/-- One conditional is resolved, wherever it stands: its body takes its place, or nothing does. -/
inductive Resolves (scope : Scope) : List Node → List Node → Prop where
  | kept {front body back : List Node} {name : String} (h : scope.isTruthy name = true) :
      Resolves scope (front ++ .block .conditional name body :: back) (front ++ (body ++ back))
  | dropped {front body back : List Node} {name : String} (h : scope.isTruthy name = false) :
      Resolves scope (front ++ .block .conditional name body :: back) (front ++ back)
  | inside {front body resolved back : List Node} {name : String}
      (h : Resolves scope body resolved) :
      Resolves scope (front ++ .block .conditional name body :: back)
        (front ++ .block .conditional name resolved :: back)

def leafText? (scope : Scope) : Node → Option String
  | .text run => some run
  | .variable name => some (((scope.value? name).map Value.toText).getD "")
  | .block .. => none

theorem leafText?_of_leaf {scope : Scope} {node : Node}
    (h : ∀ kind name body, node ≠ .block kind name body) :
    leafText? scope node = some (render scope node) := by
  fun_cases leafText? scope node with
  | case1 run => rw [render]
  | case2 name => rw [render]
  | case3 kind name body => exact absurd rfl (h kind name body)

theorem render_of_leafText? {scope : Scope} {node : Node} {text : String}
    (h : leafText? scope node = some text) : render scope node = text := by
  revert h
  fun_cases leafText? scope node with
  | case1 run =>
    rintro ⟨⟩
    rw [render]
  | case2 name =>
    rintro ⟨⟩
    rw [render]
  | case3 => nofun

mutual

inductive Evaluates : Scope → List Node → String → Prop where
  | passes {scope : Scope} {nodes expanded resolved : List Node} {texts : List String}
      (hloops : Expands scope nodes expanded)
      (hconditionals : Relation.ReflTransGen (Resolves scope) expanded resolved)
      (hvalues : resolved.map (leafText? scope) = texts.map some) :
      Evaluates scope nodes (String.join texts)

/-- The loops outside of loops are replaced by their texts, in all conditionals as well. -/
inductive Expands : Scope → List Node → List Node → Prop where
  | nil {scope : Scope} : Expands scope [] []
  | text {scope : Scope} {run : String} {rest expanded : List Node}
      (h : Expands scope rest expanded) : Expands scope (.text run :: rest) (.text run :: expanded)
  | substitution {scope : Scope} {name : String} {rest expanded : List Node}
      (h : Expands scope rest expanded) :
      Expands scope (.variable name :: rest) (.variable name :: expanded)
  | conditional {scope : Scope} {name : String} {body rest inner expanded : List Node}
      (hbody : Expands scope body inner) (h : Expands scope rest expanded) :
      Expands scope (.block .conditional name body :: rest)
        (.block .conditional name inner :: expanded)
  | loop {scope : Scope} {name : String} {body rest expanded : List Node} {texts : List String}
      (hrecords : EvaluatesEach ((scope.list? name).getD []) body texts)
      (h : Expands scope rest expanded) :
      Expands scope (.block .loop name body :: rest) (.text (String.join texts) :: expanded)

inductive EvaluatesEach : List Record → List Node → List String → Prop where
  | nil {body : List Node} : EvaluatesEach [] body []
  | cons {r : Record} {records : List Record} {body : List Node} {text : String}
      {texts : List String} (h : Evaluates (.record r) body text)
      (hrest : EvaluatesEach records body texts) :
      EvaluatesEach (r :: records) body (text :: texts)

end

mutual

def conditionals : Node → Nat
  | .text _ => 0
  | .variable _ => 0
  | .block .conditional _ body => conditionalsAll body + 1
  | .block .loop _ body => conditionalsAll body

def conditionalsAll : List Node → Nat
  | [] => 0
  | node :: rest => conditionals node + conditionalsAll rest

end

theorem conditionalsAll_append (nodes after : List Node) :
    conditionalsAll (nodes ++ after) = conditionalsAll nodes + conditionalsAll after := by
  induction nodes with
  | nil => rw [List.nil_append, conditionalsAll, Nat.zero_add]
  | cons node rest ih => rw [List.cons_append, conditionalsAll, conditionalsAll, ih, Nat.add_assoc]

theorem listNamesAll_append (nodes after : List Node) :
    listNamesAll (nodes ++ after) = listNamesAll nodes ++ listNamesAll after := by
  induction nodes with
  | nil => rfl
  | cons node rest ih => rw [List.cons_append, listNamesAll, listNamesAll, ih, List.append_assoc]

def LoopFree (nodes : List Node) : Prop :=
  listNamesAll nodes = []

theorem loopFree_append {nodes after : List Node} :
    LoopFree (nodes ++ after) ↔ LoopFree nodes ∧ LoopFree after := by
  rw [LoopFree, listNamesAll_append, List.append_eq_nil_iff, LoopFree, LoopFree]

theorem loopFree_conditional {name : String} {body rest : List Node} :
    LoopFree (.block .conditional name body :: rest) ↔ LoopFree body ∧ LoopFree rest := by
  rw [LoopFree, listNamesAll, listNames, List.append_eq_nil_iff, LoopFree, LoopFree]

section Resolving

variable {scope : Scope} {nodes resolved : List Node}

/-- A step of the second pass leaves fewer conditionals, so the pass comes to an end. -/
theorem Resolves.conditionals_lt (h : Resolves scope nodes resolved) :
    conditionalsAll resolved < conditionalsAll nodes := by
  induction h with
  | kept h =>
    simp only [conditionalsAll_append, conditionalsAll, conditionals]
    omega
  | dropped h =>
    simp only [conditionalsAll_append, conditionalsAll, conditionals]
    omega
  | inside h ih =>
    simp only [conditionalsAll_append, conditionalsAll, conditionals]
    omega

theorem Resolves.loopFree (h : Resolves scope nodes resolved) (hfree : LoopFree nodes) :
    LoopFree resolved := by
  induction h with
  | kept h =>
    rw [loopFree_append, loopFree_conditional] at hfree
    exact loopFree_append.2 ⟨hfree.1, loopFree_append.2 hfree.2⟩
  | dropped h =>
    rw [loopFree_append, loopFree_conditional] at hfree
    exact loopFree_append.2 ⟨hfree.1, hfree.2.2⟩
  | inside h ih =>
    rw [loopFree_append, loopFree_conditional] at hfree ⊢
    exact ⟨hfree.1, ih hfree.2.1, hfree.2.2⟩

/-- A step of the second pass does not show in the text. -/
theorem Resolves.renderAll_eq (h : Resolves scope nodes resolved) :
    renderAll scope resolved = renderAll scope nodes := by
  induction h with
  | kept h => rw [renderAll_append, renderAll_append, renderAll_append, renderAll, render, if_pos h]
  | dropped h =>
    rw [renderAll_append, renderAll_append, renderAll, render, h, if_neg Bool.false_ne_true,
      String.empty_append]
  | inside h ih => rw [renderAll_append, renderAll_append, renderAll, renderAll, render, render, ih]

theorem resolves_many (h : Relation.ReflTransGen (Resolves scope) nodes resolved)
    (hfree : LoopFree nodes) :
    LoopFree resolved ∧ renderAll scope resolved = renderAll scope nodes := by
  induction h with
  | refl => exact ⟨hfree, rfl⟩
  | tail _ hstep ih =>
    obtain ⟨hreached, hsame⟩ := ih
    exact ⟨hstep.loopFree hreached, hstep.renderAll_eq.trans hsame⟩

/-- Without loops, either there is a conditional to resolve or all nodes have their texts. -/
theorem resolves_or_texts (scope : Scope) (nodes : List Node) (hfree : LoopFree nodes) :
    (∃ next, Resolves scope nodes next) ∨
      ∃ texts : List String, nodes.map (leafText? scope) = texts.map some := by
  by_cases hblock : ∃ kind name body, .block kind name body ∈ nodes
  · obtain ⟨kind, name, body, hmem⟩ := hblock
    obtain ⟨front, back, rfl⟩ := List.append_of_mem hmem
    apply Or.inl
    cases kind with
    | conditional =>
      cases h : scope.isTruthy name with
      | true => exact ⟨_, .kept h⟩
      | false => exact ⟨_, .dropped h⟩
    | loop =>
      rw [loopFree_append, LoopFree, LoopFree, listNamesAll, listNames] at hfree
      cases hfree.2
  · refine Or.inr ⟨nodes.map (render scope), ?_⟩
    rw [List.map_map]
    apply List.map_congr_left
    intro node hnode
    apply leafText?_of_leaf
    rintro kind name body rfl
    exact hblock ⟨kind, name, body, hnode⟩

theorem renderAll_of_texts {texts : List String}
    (h : nodes.map (leafText? scope) = texts.map some) :
    renderAll scope nodes = String.join texts := by
  induction nodes generalizing texts with
  | nil =>
    cases texts with
    | nil => rfl
    | cons => cases h
  | cons node rest ih =>
    cases texts with
    | nil => cases h
    | cons first texts =>
      obtain ⟨hfirst, hrest⟩ := List.cons_eq_cons.1 h
      rw [renderAll, ih hrest, String.join_cons, render_of_leafText? hfirst]

/-- The second pass comes to an end at nodes that have their texts. -/
theorem exists_resolved (scope : Scope) (nodes : List Node) (hfree : LoopFree nodes) :
    ∃ resolved, Relation.ReflTransGen (Resolves scope) nodes resolved ∧
      ∃ texts : List String, resolved.map (leafText? scope) = texts.map some := by
  induction hn : conditionalsAll nodes using Nat.strong_induction_on generalizing nodes with
  | _ n ih =>
    rcases resolves_or_texts scope nodes hfree with ⟨next, hstep⟩ | htexts
    · subst hn
      obtain ⟨resolved, hsteps, htexts⟩ :=
        ih _ hstep.conditionals_lt next (hstep.loopFree hfree) rfl
      exact ⟨resolved, .head hstep hsteps, htexts⟩
    · exact ⟨nodes, .refl, htexts⟩

end Resolving

def Expandable (nodes : List Node) : Prop :=
  ∀ scope, (∃ expanded, Expands scope nodes expanded) ∧
    ∀ expanded, Expands scope nodes expanded →
      LoopFree expanded ∧ renderAll scope expanded = renderAll scope nodes

theorem Expandable.evaluates_iff {nodes : List Node} (h : Expandable nodes) (scope : Scope)
    (text : String) : Evaluates scope nodes text ↔ text = renderAll scope nodes := by
  obtain ⟨⟨expanded, hexpanded⟩, hall⟩ := h scope
  constructor
  · rintro ⟨hloops, hconditionals, hvalues⟩
    obtain ⟨hfree, hsame⟩ := hall _ hloops
    obtain ⟨-, hrendered⟩ := resolves_many hconditionals hfree
    rw [← hsame, ← hrendered, renderAll_of_texts hvalues]
  · rintro rfl
    obtain ⟨hfree, hsame⟩ := hall _ hexpanded
    obtain ⟨resolved, hconditionals, texts, hvalues⟩ := exists_resolved scope expanded hfree
    obtain ⟨-, hrendered⟩ := resolves_many hconditionals hfree
    rw [← hsame, ← hrendered, renderAll_of_texts hvalues]
    exact .passes hexpanded hconditionals hvalues

theorem Expandable.evaluatesEach_iff {body : List Node} (h : Expandable body)
    (records : List Record) (texts : List String) :
    EvaluatesEach records body texts ↔ texts = records.map fun r => renderAll (.record r) body := by
  induction records generalizing texts with
  | nil =>
    constructor
    · rintro ⟨⟩
      rfl
    · rintro rfl
      exact .nil
  | cons r records ih =>
    constructor
    · intro heach
      cases heach with
      | cons hfirst hrest =>
        rw [(h.evaluates_iff _ _).1 hfirst, (ih _).1 hrest, List.map_cons]
    · rintro rfl
      exact .cons ((h.evaluates_iff _ _).2 rfl) ((ih _).2 rfl)

theorem expandable (nodes : List Node) : Expandable nodes := by
  induction nodes using forest_induction with
  | nil =>
    intro scope
    refine ⟨⟨[], .nil⟩, ?_⟩
    rintro _ ⟨⟩
    exact ⟨rfl, rfl⟩
  | text run rest ih =>
    intro scope
    obtain ⟨⟨expanded, hexpanded⟩, hall⟩ := ih scope
    refine ⟨⟨_, hexpanded.text⟩, ?_⟩
    intro other hother
    cases hother with
    | text h =>
      obtain ⟨hfree, hsame⟩ := hall _ h
      exact ⟨hfree, by rw [renderAll, renderAll, hsame]⟩
  | substitution name rest ih =>
    intro scope
    obtain ⟨⟨expanded, hexpanded⟩, hall⟩ := ih scope
    refine ⟨⟨_, hexpanded.substitution⟩, ?_⟩
    intro other hother
    cases hother with
    | substitution h =>
      obtain ⟨hfree, hsame⟩ := hall _ h
      exact ⟨hfree, by rw [renderAll, renderAll, hsame]⟩
  | block kind name body rest ihBody ih =>
    intro scope
    obtain ⟨⟨expanded, hexpanded⟩, hall⟩ := ih scope
    cases kind with
    | conditional =>
      obtain ⟨⟨inner, hinner⟩, hbody⟩ := ihBody scope
      refine ⟨⟨_, hinner.conditional hexpanded⟩, ?_⟩
      intro other hother
      cases hother with
      | conditional hinner h =>
        obtain ⟨hfreeBody, hsameBody⟩ := hbody _ hinner
        obtain ⟨hfree, hsame⟩ := hall _ h
        refine ⟨loopFree_conditional.2 ⟨hfreeBody, hfree⟩, ?_⟩
        rw [renderAll, renderAll, hsame, render, render, hsameBody]
    | loop =>
      refine ⟨⟨_, .loop ((ihBody.evaluatesEach_iff _ _).2 rfl) hexpanded⟩, ?_⟩
      intro other hother
      cases hother with
      | loop hrecords h =>
        obtain ⟨hfree, hsame⟩ := hall _ h
        refine ⟨hfree, ?_⟩
        rw [renderAll, renderAll, hsame, render, render, (ihBody.evaluatesEach_iff _ _).1 hrecords]

end QuotePress.Node

namespace QuotePress.Template

open Node

/-- The three passes give what the single walk renders, and nothing else. The second pass can take
the conditionals in any order: every step leaves fewer of them, and where no step is possible any
more each node has its text. -/
theorem render_three_passes (t : Template) (c : Context) :
    (∀ text, Evaluates (.document c) t.nodes text ↔ text = t.render (.document c)) ∧
    ∀ expanded, Expands (.document c) t.nodes expanded →
      ∀ reached, Relation.ReflTransGen (Resolves (.document c)) expanded reached →
        (∀ next, Resolves (.document c) reached next →
          conditionalsAll next < conditionalsAll reached) ∧
        ((∃ next, Resolves (.document c) reached next) ∨
          ∃ texts : List String, reached.map (leafText? (.document c)) = texts.map some ∧
            t.render (.document c) = String.join texts) := by
  refine ⟨(expandable t.nodes).evaluates_iff _, ?_⟩
  intro expanded hexpanded reached hreached
  obtain ⟨hfree, hsame⟩ := (expandable t.nodes (.document c)).2 expanded hexpanded
  obtain ⟨hfreeReached, hrendered⟩ := resolves_many hreached hfree
  refine ⟨fun next hnext => hnext.conditionals_lt, ?_⟩
  rcases resolves_or_texts (.document c) reached hfreeReached with hstep | ⟨texts, htexts⟩
  · exact Or.inl hstep
  · refine Or.inr ⟨texts, htexts, ?_⟩
    rw [render, ← hsame, ← hrendered, renderAll_of_texts htexts]

/-- The loop in a conditional that will be dropped is replaced first, and the conditional behind it
is resolved before it. -/
theorem render_three_passes_dropped :
    let t : Template := ⟨[.block .conditional "no" [.block .loop "rows" [.variable "x"]],
      .block .conditional "yes" [.variable "y"]], []⟩
    let row : Record := NameMap.empty.insert "x" (.text "1")
    let c := Context.bind
      (.bind (.bindList .empty "rows" [row]) "yes" (.boolean true)) "y" (.text "shown")
    let dropped : Node := .block .conditional "no" [.text (String.join ["1"])]
    let expanded := [dropped, .block .conditional "yes" [.variable "y"]]
    let reached := [dropped, .variable "y"]
    Expands (.document c) t.nodes expanded ∧
    Relation.ReflTransGen (Resolves (.document c)) expanded reached ∧
    Evaluates (.document c) t.nodes "shown" ∧
    ((∃ next, Resolves (.document c) reached next) ∨
      ∃ texts : List String, reached.map (leafText? (.document c)) = texts.map some ∧
        t.render (.document c) = String.join texts) := by
  intro t row c dropped expanded reached
  obtain ⟨hiff, hany⟩ := render_three_passes t c
  have hrows : (Scope.list? (.document c) "rows").getD [] = [row] := by decide +kernel
  have hrow : EvaluatesEach [row] [.variable "x"] ["1"] :=
    ((expandable _).evaluatesEach_iff _ _).2 (by decide +kernel)
  have hexpands : Expands (.document c) t.nodes expanded :=
    .conditional (.loop (hrows ▸ hrow) .nil) (.conditional (.substitution .nil) .nil)
  have hstep : Resolves (.document c) ([dropped] ++ .block .conditional "yes" [.variable "y"] :: [])
      ([dropped] ++ ([.variable "y"] ++ [])) := .kept (by decide +kernel)
  have hreached := Relation.ReflTransGen.single hstep
  exact ⟨hexpands, hreached, (hiff "shown").2 (by decide +kernel),
    (hany expanded hexpands reached hreached).2⟩

end QuotePress.Template
