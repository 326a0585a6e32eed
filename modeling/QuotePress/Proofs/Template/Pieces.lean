import QuotePress.Proofs.Template.Printing

/-! # What a rendering is made of

Which parts of a template are rendered is decided by the names that are bound, by the truth of their
values and by the lengths of the lists. The values themselves only fill the slots. -/
namespace QuotePress

abbrev RecordPattern := NameMap Bool

def Record.pattern (r : Record) : RecordPattern :=
  r.map Value.isTruthy

inductive BindingPattern where
  | scalar (truthy : Bool)
  | list (records : List RecordPattern)
  deriving DecidableEq

def Binding.pattern : Binding → BindingPattern
  | .scalar v => .scalar v.isTruthy
  | .list records => .list (records.map Record.pattern)

/-- The names of a context with the truth of their values, and the records of its lists with the
truth of theirs. -/
abbrev ContextPattern := NameMap BindingPattern

def Context.pattern (c : Context) : ContextPattern :=
  c.map Binding.pattern

/-- A part of a rendering: a text of the template, or the place of one value. -/
inductive Piece where
  | literal (run : String)
  | field (name : String)
  | recordField (list : String) (index : Nat) (name : String)
  deriving DecidableEq

def Piece.text? (c : Context) : Piece → Option String
  | .literal run => some run
  | .field name => (c.value? name).map Value.toText
  | .recordField list index name =>
    (c.list? list).bind fun records =>
      records[index]?.bind fun record => (record.get? name).map Value.toText

inductive Site where
  | document (p : ContextPattern)
  | record (list : String) (index : Nat) (p : RecordPattern)

namespace Site

def slot? : Site → String → Option Piece
  | .document p, name =>
    match p.get? name with
    | some (.scalar _) => some (.field name)
    | _ => none
  | .record list index p, name =>
    if p.contains name then some (.recordField list index name) else none

def isTruthy : Site → String → Bool
  | .document p, name =>
    match p.get? name with
    | some (.scalar truthy) => truthy
    | some (.list records) => !records.isEmpty
    | none => false
  | .record _ _ p, name => (p.get? name).getD false

theorem slot?_ne_literal (site : Site) (name run : String) :
    site.slot? name ≠ some (.literal run) := by
  cases site <;> simp only [slot?] <;> split <;> simp

def records : Site → String → List Site
  | .document p, name =>
    match p.get? name with
    | some (.list records) => records.mapIdx (.record name)
    | _ => []
  | .record _ _ _, _ => []

inductive Of (c : Context) : Site → Scope → Prop where
  | document : Of c (.document c.pattern) (.document c)
  | record {list : String} {records : List Record} {index : Nat} {r : Record}
      (hlist : c.list? list = some records) (hrecord : records[index]? = some r) :
      Of c (.record list index r.pattern) (.record r)

end Site

namespace Node

mutual

def pieces (site : Site) : Node → List Piece
  | .text run => [.literal run]
  | .variable name => (site.slot? name).toList
  | .block .conditional name body => if site.isTruthy name then piecesAll site body else []
  | .block .loop name body => (site.records name).flatMap fun record => piecesAll record body

def piecesAll (site : Site) : List Node → List Piece
  | [] => []
  | node :: rest => pieces site node ++ piecesAll site rest

end

end Node

def Shows (c : Context) (pieces : List Piece) (s : String) : Prop :=
  ∃ shown, pieces.map (Piece.text? c) = shown.map some ∧ s = String.join shown

namespace Shows

variable {c : Context}

theorem nil : Shows c [] "" :=
  ⟨[], rfl, rfl⟩

theorem single {piece : Piece} {s : String} (h : piece.text? c = some s) : Shows c [piece] s := by
  refine ⟨[s], ?_, ?_⟩
  · simp only [List.map_cons, List.map_nil, h]
  · simp only [String.join_cons, String.join_nil, String.append_empty]

theorem append {pieces more : List Piece} {s t : String} (h : Shows c pieces s)
    (hmore : Shows c more t) : Shows c (pieces ++ more) (s ++ t) := by
  obtain ⟨shown, hshown, rfl⟩ := h
  obtain ⟨others, hothers, rfl⟩ := hmore
  refine ⟨shown ++ others, ?_, (String.join_append ..).symm⟩
  rw [List.map_append, List.map_append, hshown, hothers]

theorem flatMap {α β : Type} {parts : List α} {others : List β} {pieces : α → List Piece}
    {text : β → String} (h : List.Forall₂ (fun a b => Shows c (pieces a) (text b)) parts others) :
    Shows c (parts.flatMap pieces) (String.join (others.map text)) := by
  induction h with
  | nil => exact nil
  | cons hfirst hrest ih =>
    rw [List.flatMap_cons, List.map_cons, String.join_cons]
    exact hfirst.append ih

end Shows

namespace Site.Of

variable {c : Context} {site : Site} {scope : Scope}

theorem slot_text (h : Of c site scope) (name : String) :
    ∃ piece, site.slot? name = (scope.value? name).map (fun _ => piece) ∧
      piece.text? c = (scope.value? name).map Value.toText := by
  cases h with
  | document =>
    refine ⟨.field name, ?_, rfl⟩
    simp only [slot?, Context.pattern, NameMap.get?_map, Scope.value?, Context.value?]
    cases c.get? name with
    | none => rfl
    | some binding => cases binding <;> rfl
  | @record list records index r hlist hrecord =>
    refine ⟨.recordField list index name, ?_, ?_⟩
    · simp only [slot?, NameMap.contains, Record.pattern, NameMap.get?_map, Scope.value?]
      cases r.get? name <;> rfl
    · simp only [Piece.text?, hlist, Option.bind_some, hrecord, Scope.value?]

theorem shows_slot (h : Of c site scope) (name : String) :
    Shows c (site.slot? name).toList (((scope.value? name).map Value.toText).getD "") := by
  obtain ⟨piece, hslot, htext⟩ := h.slot_text name
  rw [hslot]
  cases hvalue : scope.value? name with
  | none => exact .nil
  | some v =>
    rw [hvalue] at htext
    exact .single htext

theorem isTruthy_eq (h : Of c site scope) (name : String) :
    site.isTruthy name = scope.isTruthy name := by
  cases h with
  | document =>
    simp only [isTruthy, Context.pattern, NameMap.get?_map, Scope.isTruthy, Context.isTruthy]
    cases c.get? name with
    | none => rfl
    | some binding =>
      cases binding with
      | scalar v => rfl
      | list records => simp [Binding.pattern, Binding.isTruthy]
  | record hlist hrecord =>
    simp only [isTruthy, Record.pattern, NameMap.get?_map, Scope.isTruthy]

theorem records (h : Of c site scope) (name : String) :
    List.Forall₂ (fun site record => Of c site (.record record)) (site.records name)
      ((scope.list? name).getD []) := by
  cases h with
  | record hlist hrecord => exact .nil
  | document =>
    simp only [Site.records, Context.pattern, NameMap.get?_map, Scope.list?, Context.list?]
    cases hget : c.get? name with
    | none => exact .nil
    | some binding =>
      cases binding with
      | scalar v => exact .nil
      | list records =>
        have hlist : c.list? name = some records := by rw [Context.list?, hget]; rfl
        refine List.forall₂_iff_get.2 ⟨?_, ?_⟩
        · simp [Binding.pattern, Binding.list?]
        · intro i hi hrecord
          simp only [Option.map_some, Binding.pattern, Option.bind_some, Binding.list?,
            Option.getD_some, List.get_eq_getElem, List.getElem_mapIdx, List.getElem_map]
          exact .record hlist (List.getElem?_eq_getElem hrecord)

end Site.Of

namespace Node

/-- A rendering is its pieces, whatever the values are. -/
theorem shows_renderAll {c : Context} (nodes : List Node) {site : Site} {scope : Scope}
    (h : site.Of c scope) : Shows c (piecesAll site nodes) (renderAll scope nodes) := by
  induction nodes using forest_induction generalizing site scope with
  | nil => exact .nil
  | text run rest ih =>
    rw [piecesAll, renderAll, pieces, render]
    exact (Shows.single rfl).append (ih h)
  | substitution name rest ih =>
    rw [piecesAll, renderAll, pieces, render]
    exact (h.shows_slot name).append (ih h)
  | block kind name body rest ihBody ih =>
    rw [piecesAll, renderAll]
    refine Shows.append ?_ (ih h)
    cases kind with
    | conditional =>
      rw [pieces, render, h.isTruthy_eq name]
      split
      · exact ihBody h
      · exact .nil
    | loop =>
      rw [pieces, render]
      exact Shows.flatMap ((h.records name).imp fun site record hrecord => ihBody hrecord)

/-- The literals of a rendering are texts of the template. -/
theorem occurs_literal {run : String} (nodes : List Node) {site : Site}
    (h : .literal run ∈ piecesAll site nodes) : Occurs (.text run) nodes := by
  induction nodes using forest_induction generalizing site with
  | nil => cases h
  | text first rest ih =>
    rw [piecesAll, pieces] at h
    rcases List.mem_append.1 h with h | h
    · cases List.mem_singleton.1 h
      exact .here List.mem_cons_self
    · exact (ih h).cons
  | substitution name rest ih =>
    rw [piecesAll, pieces] at h
    rcases List.mem_append.1 h with h | h
    · exact absurd (Option.mem_toList.1 h) (site.slot?_ne_literal name run)
    · exact (ih h).cons
  | block kind name body rest ihBody ih =>
    rw [piecesAll] at h
    rcases List.mem_append.1 h with h | h
    · refine .inside List.mem_cons_self ?_
      cases kind with
      | conditional =>
        rw [pieces] at h
        split at h
        · exact ihBody h
        · cases h
      | loop =>
        rw [pieces] at h
        obtain ⟨record, -, h⟩ := List.mem_flatMap.1 h
        exact ihBody h
    · exact (ih h).cons

theorem Written.infix_of_occurs {nodes : List Node} {s run : String} (h : Written nodes s)
    (hrun : Occurs (.text run) nodes) : run.toList <:+: s.toList := by
  induction h with
  | nil =>
    cases hrun with
    | here h => cases h
    | inside hblock h => cases hblock
  | text h ih =>
    rw [String.toList_append]
    rcases occurs_cons hrun with heq | ⟨kind, name, body, heq, -⟩ | hrun
    · cases heq
      exact (List.prefix_append ..).isInfix
    · cases heq
    · exact (ih hrun).trans (List.suffix_append ..).isInfix
  | substitution h ih =>
    rw [String.toList_append]
    rcases occurs_cons hrun with heq | ⟨kind, name, body, heq, -⟩ | hrun
    · cases heq
    · cases heq
    · exact (ih hrun).trans (List.suffix_append ..).isInfix
  | block hgap hbody h ihBody ih =>
    rw [String.toList_append, String.toList_append, String.toList_append]
    rcases occurs_cons hrun with heq | ⟨kind, name, body, heq, hrun⟩ | hrun
    · cases heq
    · cases heq
      refine (ihBody hrun).trans ?_
      rw [List.append_assoc]
      exact List.infix_append ..
    · exact (ih hrun).trans (List.suffix_append ..).isInfix

end Node

namespace Template

def pieces (t : Template) (pattern : ContextPattern) : List Piece :=
  Node.piecesAll (.document pattern) t.nodes

/-- Which names are bound, which values are truthy and how long the lists are determines a rendering
but for the slots: the pieces of a template for a pattern are texts of the template and places of
values, and every context of the pattern renders as them. -/
theorem compile_pieces (source : String) (pattern : ContextPattern) :
    (∀ run, .literal run ∈ (parse source).pieces pattern →
      Node.Occurs (.text run) (parse source).nodes ∧ run.toList <:+: source.toList) ∧
    ∀ c : Context, c.pattern = pattern → ∃ shown,
      ((parse source).pieces pattern).map (Piece.text? c) = shown.map some ∧
      compile source c = String.join shown := by
  constructor
  · intro run hrun
    have hoccurs := Node.occurs_literal _ hrun
    exact ⟨hoccurs, (retold_scan source).1.infix_of_occurs hoccurs⟩
  · rintro c rfl
    exact Node.shows_renderAll _ .document

theorem compile_pieces_directives :
    let source := "\x7b\x7b#each rows\x7d\x7d\x7b\x7bx\x7d\x7d,\x7b\x7b/each\x7d\x7d" ++
      "\x7b\x7bt\x7d\x7d"
    let context := fun s t : String =>
      Context.bind (.bindList .empty "rows" [NameMap.empty.insert "x" (.text s)]) "t" (.text t)
    let c := context "\x7b\x7b/each\x7d\x7d" "\x7b\x7b#if t\x7d\x7d"
    let d := context "plain" "text"
    let pieces := [.recordField "rows" 0 "x", .literal ",", .field "t"]
    c.pattern = d.pattern ∧ (parse source).pieces d.pattern = pieces ∧
    (∃ shown, pieces.map (Piece.text? c) = shown.map some ∧
      compile source c = String.join shown) ∧
    ∃ shown, pieces.map (Piece.text? d) = shown.map some ∧
      compile source d = String.join shown := by
  intro source context c d pieces
  have hpattern : c.pattern = d.pattern := by decide +kernel
  have hpieces : (parse source).pieces d.pattern = pieces := by decide +kernel
  obtain ⟨-, hshown⟩ := compile_pieces source d.pattern
  rw [hpieces] at hshown
  exact ⟨hpattern, hpieces, hshown c hpattern, hshown d rfl⟩

end Template

end QuotePress
