import QuotePress.Proofs.Context.Flat
import Mathlib.Data.List.Sort
import Mathlib.Data.String.Basic

/-! # What calls leave bound

A context is built by calls that bind one name each, and the last call for a name counts. The same
holds if scalars and lists are kept in two maps, where every call has to take its name out of the
other map: then no name is ever in both, and the two maps answer everything as one map does. -/
namespace QuotePress

namespace Context

inductive Call where
  | scalar (name : String) (v : Value)
  | list (name : String) (records : List Record)

def Call.entry : Call → String × Binding
  | .scalar name v => (name, .scalar v)
  | .list name records => (name, .list records)

def Call.run (c : Context) : Call → Context
  | .scalar name v => c.bind name v
  | .list name records => c.bindList name records

def ofCalls (calls : List Call) : Context :=
  calls.foldl Call.run NameMap.empty

def Call.last? (calls : List Call) (name : String) : Option Binding :=
  (calls.reverse.map entry).lookup name

@[ext]
structure View where
  value? : String → Option Value
  list? : String → Option (List Record)
  isTruthy : String → Bool
  names : List String
  size : Nat
  isEmpty : Bool

def view (c : Context) : View where
  value? := (Scope.document c).value?
  list? := (Scope.document c).list?
  isTruthy := (Scope.document c).isTruthy
  names := c.names
  size := c.size
  isEmpty := c.entries.isEmpty

/-- A view answers what the bindings say: each name is bound once, either to a scalar or to a list,
and the names are those that are bound, in ascending order. -/
structure View.Answers (view : View) (bound : String → Option Binding) : Prop where
  value : ∀ name v, view.value? name = some v ↔ bound name = some (.scalar v)
  list : ∀ name records, view.list? name = some records ↔ bound name = some (.list records)
  once : ∀ name, view.value? name = none ∨ view.list? name = none
  truth : ∀ name, view.isTruthy name = true ↔ ∃ b, bound name = some b ∧ b.isTruthy = true
  ascending : view.names.Pairwise (· < ·)
  mem_names : ∀ name, name ∈ view.names ↔ ∃ b, bound name = some b
  size_eq : view.size = view.names.length
  isEmpty_iff : view.isEmpty = true ↔ view.size = 0

/-- A context whose scalars and lists are kept apart. -/
structure Parts where
  fields : NameMap Value
  lists : NameMap (List Record)

namespace Parts

def empty : Parts := ⟨NameMap.empty, NameMap.empty⟩

def run (p : Parts) : Call → Parts
  | .scalar name v => ⟨p.fields.insert name v, p.lists.erase name⟩
  | .list name records => ⟨p.fields.erase name, p.lists.insert name records⟩

def ofCalls (calls : List Call) : Parts :=
  calls.foldl run empty

def isTruthy (p : Parts) (name : String) : Bool :=
  match p.lists.get? name with
  | some records => !records.isEmpty
  | none => ((p.fields.get? name).map Value.isTruthy).getD false

def names (p : Parts) : List String :=
  (p.fields.names ++ p.lists.names).mergeSort fun a b => a ≤ b

def view (p : Parts) : View where
  value? := p.fields.get?
  list? := p.lists.get?
  isTruthy := p.isTruthy
  names := p.names
  size := p.fields.size + p.lists.size
  isEmpty := p.fields.entries.isEmpty && p.lists.entries.isEmpty

structure Holds (p : Parts) (bound : String → Option Binding) : Prop where
  fields : ∀ name, p.fields.get? name = (bound name).bind Binding.scalar?
  lists : ∀ name, p.lists.get? name = (bound name).bind Binding.list?

end Parts

namespace Call

theorem last?_concat (calls : List Call) (call : Call) (name : String) :
    last? (calls ++ [call]) name =
      if name = call.entry.1 then some call.entry.2 else last? calls name := by
  rw [last?, List.reverse_append, List.reverse_singleton, List.singleton_append, List.map_cons,
    List.lookup_cons, last?]
  by_cases h : name = call.entry.1
  · rw [if_pos h, beq_iff_eq.2 h]
  · rw [if_neg h, beq_eq_false_iff_ne.2 h]

theorem run_eq_insert (c : Context) (call : Call) :
    call.run c = c.insert call.entry.1 call.entry.2 := by
  cases call <;> rfl

end Call

theorem get?_ofCalls (calls : List Call) (name : String) :
    (ofCalls calls).get? name = Call.last? calls name := by
  have hmap : ofCalls calls = NameMap.ofList (calls.map Call.entry) := by
    rw [ofCalls, NameMap.ofList, List.foldl_map]
    congr 1
    funext c call
    exact Call.run_eq_insert c call
  rw [hmap, NameMap.get?_ofList_eq_lookup, ← List.map_reverse, Call.last?]

namespace View

variable {view other : View} {bound : String → Option Binding}

theorem answers_of_lookups (hvalue : ∀ name, view.value? name = (bound name).bind Binding.scalar?)
    (hlist : ∀ name, view.list? name = (bound name).bind Binding.list?)
    (htruth : ∀ name, view.isTruthy name = ((bound name).map Binding.isTruthy).getD false)
    (hascending : view.names.Pairwise (· < ·))
    (hnames : ∀ name, name ∈ view.names ↔ (bound name).isSome = true)
    (hsize : view.size = view.names.length) (hempty : view.isEmpty = true ↔ view.size = 0) :
    view.Answers bound := by
  refine ⟨?_, ?_, ?_, ?_, hascending, ?_, hsize, hempty⟩
  · intro name v
    rw [hvalue]
    cases bound name with
    | none => exact iff_of_false nofun nofun
    | some b => cases b <;> simp [Binding.scalar?]
  · intro name records
    rw [hlist]
    cases bound name with
    | none => exact iff_of_false nofun nofun
    | some b => cases b <;> simp [Binding.list?]
  · intro name
    rw [hvalue, hlist]
    cases bound name with
    | none => exact Or.inl rfl
    | some b =>
      cases b with
      | scalar v => exact Or.inr rfl
      | list records => exact Or.inl rfl
  · intro name
    rw [htruth]
    cases bound name <;> simp
  · intro name
    rw [hnames, Option.isSome_iff_exists]

theorem Answers.unique (h : view.Answers bound) (hother : other.Answers bound) : view = other := by
  have hnames : view.names = other.names := by
    have hnodup {names : List String} (hascending : names.Pairwise (· < ·)) : names.Nodup := by
      refine hascending.imp ?_
      rintro first _ hlt rfl
      exact String.lt_irrefl first hlt
    have hmem (name : String) : name ∈ view.names ↔ name ∈ other.names := by
      rw [h.mem_names, hother.mem_names]
    refine ((List.perm_ext_iff_of_nodup (hnodup h.ascending)
      (hnodup hother.ascending)).2 hmem).eq_of_pairwise ?_ h.ascending hother.ascending
    intro first second _ _ hlt hgt
    exact absurd hgt (String.lt_asymm hlt)
  have hsize : view.size = other.size := by rw [h.size_eq, hother.size_eq, hnames]
  ext name x
  · rw [h.value, hother.value]
  · rw [h.list, hother.list]
  · rw [Bool.eq_iff_iff, h.truth, hother.truth]
  · rw [hnames]
  · exact hsize
  · rw [Bool.eq_iff_iff, h.isEmpty_iff, hother.isEmpty_iff, hsize]

end View

/-! ## One map -/

theorem answers_view {c : Context} {bound : String → Option Binding}
    (h : ∀ name, c.get? name = bound name) : c.view.Answers bound := by
  apply View.answers_of_lookups
  · intro name
    rw [← h]
    rfl
  · intro name
    rw [← h]
    rfl
  · intro name
    rw [← h]
    rfl
  · exact List.pairwise_map.2 c.ascending
  · intro name
    rw [← h]
    exact NameMap.mem_names_iff
  · exact (List.length_map _).symm
  · exact List.isEmpty_iff_length_eq_zero

/-! ## Two maps -/

namespace Parts

variable {p : Parts} {bound : String → Option Binding}

theorem holds_empty : empty.Holds fun _ => none := ⟨fun _ => rfl, fun _ => rfl⟩

/-- A call takes its name out of the other map, so that it is in one map still. -/
theorem Holds.run (h : p.Holds bound) (call : Call) : (p.run call).Holds fun name =>
    if name = call.entry.1 then some call.entry.2 else bound name := by
  cases call with
  | scalar name v =>
    constructor
    · intro other
      rw [Parts.run, NameMap.get?_insert, h.fields]
      change _ = (if other = name then some (Binding.scalar v) else bound other).bind _
      split <;> rfl
    · intro other
      rw [Parts.run, NameMap.get?_erase, h.lists]
      change _ = (if other = name then some (Binding.scalar v) else bound other).bind _
      split <;> rfl
  | list name records =>
    constructor
    · intro other
      rw [Parts.run, NameMap.get?_erase, h.fields]
      change _ = (if other = name then some (Binding.list records) else bound other).bind _
      split <;> rfl
    · intro other
      rw [Parts.run, NameMap.get?_insert, h.lists]
      change _ = (if other = name then some (Binding.list records) else bound other).bind _
      split <;> rfl

theorem holds_ofCalls (calls : List Call) : (ofCalls calls).Holds (Call.last? calls) := by
  induction calls using List.reverseRecOn with
  | nil => exact holds_empty
  | append_singleton calls call ih =>
    have hnext := ih.run call
    rw [ofCalls, List.foldl_append]
    simp only [← Call.last?_concat] at hnext
    exact hnext

/-- Names that are in one map only are counted and listed once. -/
theorem Holds.answers (h : p.Holds bound) : p.view.Answers bound := by
  have hmem (name : String) : name ∈ p.names ↔ (bound name).isSome = true := by
    rw [names, List.mem_mergeSort, List.mem_append, NameMap.mem_names_iff,
      NameMap.mem_names_iff, h.fields, h.lists]
    cases bound name with
    | none => simp
    | some b => cases b <;> simp [Binding.scalar?, Binding.list?]
  have hnodup : p.names.Nodup := by
    rw [names, (List.mergeSort_perm _ _).nodup_iff, List.nodup_append']
    refine ⟨p.fields.nodup_names, p.lists.nodup_names, ?_⟩
    intro name hfield hlist
    rw [NameMap.mem_names_iff, h.fields] at hfield
    rw [NameMap.mem_names_iff, h.lists] at hlist
    cases hbound : bound name with
    | none => simp [hbound] at hfield
    | some b => cases b <;> simp [hbound, Binding.scalar?, Binding.list?] at hfield hlist
  apply View.answers_of_lookups h.fields h.lists _ _ hmem
  · simp only [view, names, List.length_mergeSort, List.length_append, NameMap.names,
      NameMap.size, List.length_map]
  · simp only [view, NameMap.size, Bool.and_eq_true, List.isEmpty_iff_length_eq_zero,
      Nat.add_eq_zero_iff]
  · intro name
    show p.isTruthy name = _
    rw [isTruthy, h.lists, h.fields]
    cases bound name with
    | none => rfl
    | some b => cases b <;> rfl
  · have hsorted : p.names.Pairwise (· ≤ ·) := List.pairwise_mergeSort' _ _
    refine (hsorted.and hnodup).imp ?_
    rintro first second ⟨hle, hne⟩
    exact lt_of_le_of_ne hle hne

end Parts

/-! ## Contexts from documents -/

theorem calls_of_bindMembers {members : List (String × Json)} {c bound : Context}
    (h : bindMembers members c = .ok bound) :
    ∃ calls : List Call, bound = calls.foldl Call.run c := by
  induction members generalizing c with
  | nil =>
    cases h
    exact ⟨[], rfl⟩
  | cons e rest ih =>
    have hcall (call : Call) (hrest : bindMembers rest (call.run c) = .ok bound) :
        ∃ calls : List Call, bound = calls.foldl Call.run c := by
      obtain ⟨calls, hcalls⟩ := ih hrest
      exact ⟨call :: calls, hcalls⟩
    obtain ⟨name, json⟩ := e
    cases json with
    | array items =>
      rw [bindMembers] at h
      cases hrecords : recordsOf name 0 items with
      | error fault =>
        rw [hrecords] at h
        cases h
      | ok records =>
        rw [hrecords] at h
        exact hcall (.list name records) h
    | object members => cases h
    | null => exact hcall (.scalar name .null) h
    | boolean b => exact hcall (.scalar name (.boolean b)) h
    | integer n => exact hcall (.scalar name (.number (Float.ofInt n))) h
    | real x => exact hcall (.scalar name (.number x)) h
    | string s => exact hcall (.scalar name (.text s)) h

/-- Whatever calls build a context, it answers what the last call for each name says, and two maps
in the place of one answer the same and never both have a name. A context that is read from a
document is built by calls too, and the last call for a name binds what the member of that name
stands for. -/
theorem last_call_counts :
    (∀ calls : List Call,
      (ofCalls calls).view.Answers (Call.last? calls) ∧
      (Parts.ofCalls calls).view = (ofCalls calls).view ∧
      ∀ name, (Parts.ofCalls calls).fields.get? name = none ∨
        (Parts.ofCalls calls).lists.get? name = none) ∧
    ∀ json c, ofJson json = .ok c → ∃ members calls, json = .object members ∧ c = ofCalls calls ∧
      c.view.Answers (Call.last? calls) ∧
      ∀ name, Option.Rel Json.BoundTo (Json.member? members name) (Call.last? calls name) := by
  have hanswers (calls : List Call) : (ofCalls calls).view.Answers (Call.last? calls) :=
    answers_view (get?_ofCalls calls)
  constructor
  · intro calls
    have hparts := (Parts.holds_ofCalls calls).answers
    exact ⟨hanswers calls, hparts.unique (hanswers calls), hparts.once⟩
  · intro json c h
    have hread := reads_ofJson json
    rw [h] at hread
    cases hread with
    | @object members _ hmembers =>
      obtain ⟨calls, rfl⟩ := calls_of_bindMembers h
      refine ⟨members, calls, rfl, rfl, hanswers calls, ?_⟩
      intro name
      rw [← get?_ofCalls]
      exact hmembers name

/-- The later of two members of one name counts. -/
theorem last_call_counts_repeated :
    let json : Json :=
      .object [("items", .string "x"), ("n", .boolean true), ("items", .array [.object []])]
    let c := ofCalls [.list "items" [NameMap.empty], .scalar "n" (.boolean true)]
    ofJson json = .ok c ∧ ∃ calls, c = ofCalls calls ∧ c.view.Answers (Call.last? calls) := by
  intro json c
  have hread : ofJson json = .ok c := by decide +kernel
  obtain ⟨members, calls, -, hcalls, hanswers, -⟩ := last_call_counts.2 json c hread
  exact ⟨hread, calls, hcalls, hanswers⟩

end Context

end QuotePress
