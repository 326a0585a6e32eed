import QuotePress.Proofs.Quote.Bindings
import QuotePress.Proofs.Template.Names
import QuotePress.Service

/-! # What a template is warned of

A reference is of use where some quote binds its name to what it asks for. The names reported as
unknown are those of references that are of use in no place; where a reference stands is not looked
at. -/
namespace QuotePress

inductive Place where
  | document
  | loopBody
  deriving DecidableEq

structure Reference where
  place : Place
  meaning : Directive
  deriving DecidableEq

namespace Node

mutual

def references (place : Place) : Node → List Reference
  | .text _ => []
  | .variable name => [⟨place, .variable name⟩]
  | .block .conditional name body =>
    ⟨place, .opening .conditional name⟩ :: referencesAll place body
  | .block .loop name body => ⟨place, .opening .loop name⟩ :: referencesAll .loopBody body

def referencesAll (place : Place) : List Node → List Reference
  | [] => []
  | node :: rest => references place node ++ referencesAll place rest

end

theorem map_meaning_referencesAll (place : Place) (nodes : List Node) :
    (referencesAll place nodes).map Reference.meaning = directivesAll nodes := by
  induction nodes using forest_induction generalizing place with
  | nil => rfl
  | text run rest ih => exact ih place
  | substitution name rest ih => exact congrArg (.variable name :: ·) (ih place)
  | block kind name body rest ihBody ih =>
    rw [referencesAll, List.map_append, ih, directivesAll]
    congr 1
    cases kind with
    | conditional => exact congrArg (.opening .conditional name :: ·) (ihBody place)
    | loop => exact congrArg (.opening .loop name :: ·) (ihBody .loopBody)

end Node

def Directive.RefersTo (meaning : Directive) (name : String) : Prop :=
  meaning.valueName? = some name ∨ meaning.listName? = some name

/-- The scope binds the name of a directive to what it asks for: a value for a substitution, a value
or a list for a conditional, a list for a loop. -/
def Scope.Serves (scope : Scope) : Directive → Prop
  | .variable name => (scope.value? name).isSome
  | .opening .conditional name => (scope.value? name).isSome ∨ (scope.list? name).isSome
  | .opening .loop name => (scope.list? name).isSome
  | .closing _ => False

def QuoteDocument.scopes (d : QuoteDocument) (symbol : String) : Place → List Scope
  | .document => [.document (d.toContext symbol)]
  | .loopBody => (itemRecords symbol 1 d.quote.items).map .record

def Place.Serves (place : Place) (meaning : Directive) : Prop :=
  ∃ (d : QuoteDocument) (symbol : String) (scope : Scope),
    d.violations = [] ∧ scope ∈ d.scopes symbol place ∧ scope.Serves meaning

/-- A directive that no quote gives what it asks for, wherever it stands. -/
def Directive.Useless (meaning : Directive) : Prop :=
  ∀ place : Place, ¬ place.Serves meaning

/-! ## What quotes serve -/

theorem mem_itemRecords {symbol : String} {index : Nat} {items : List LineItem} {r : Record}
    (h : r ∈ QuoteDocument.itemRecords symbol index items) :
    ∃ item position, r = LineItem.toRecord item position symbol := by
  induction items generalizing index with
  | nil => cases h
  | cons item rest ih =>
    rcases List.mem_cons.1 h with rfl | h
    · exact ⟨item, index, rfl⟩
    · exact ih h

def QuoteDocument.sample : QuoteDocument where
  company := { name := "A" }
  client := { name := "B" }
  quote := { Quote.blank with number := "7", items := [{ LineItem.blank with productName := "C" }] }

theorem QuoteDocument.violations_sample : QuoteDocument.sample.violations = [] := by
  decide +kernel

theorem Place.serves_document {meaning : Directive} {served : Prop}
    (h : ∀ (d : QuoteDocument) (symbol : String),
      (Scope.document (d.toContext symbol)).Serves meaning ↔ served) :
    Place.document.Serves meaning ↔ served := by
  constructor
  · rintro ⟨d, symbol, scope, -, hscope, hserves⟩
    rw [List.mem_singleton.1 hscope] at hserves
    exact (h d symbol).1 hserves
  · intro hserved
    exact ⟨.sample, "", _, QuoteDocument.violations_sample, List.mem_singleton_self _,
      (h .sample "").2 hserved⟩

theorem Place.serves_loopBody {meaning : Directive} {served : Prop}
    (h : ∀ (item : LineItem) (index : Nat) (symbol : String),
      (Scope.record (item.toRecord index symbol)).Serves meaning ↔ served) :
    Place.loopBody.Serves meaning ↔ served := by
  constructor
  · rintro ⟨d, symbol, scope, -, hscope, hserves⟩
    obtain ⟨r, hr, rfl⟩ := List.mem_map.1 hscope
    obtain ⟨item, index, rfl⟩ := mem_itemRecords hr
    exact (h item index symbol).1 hserves
  · intro hserved
    exact ⟨.sample, "", _, QuoteDocument.violations_sample, List.mem_singleton_self _,
      (h _ _ _).2 hserved⟩

section Names

variable {name : String}

theorem document_serves_variable :
    Place.document.Serves (.variable name) ↔ name ∈ QuoteDocument.fieldNames := by
  apply Place.serves_document
  intro d symbol
  exact d.isSome_value?_toContext symbol

theorem document_serves_conditional : Place.document.Serves (.opening .conditional name) ↔
    name ∈ QuoteDocument.fieldNames ∨ name = QuoteDocument.itemsName := by
  apply Place.serves_document
  intro d symbol
  exact or_congr (d.isSome_value?_toContext symbol) (d.isSome_list?_toContext symbol)

theorem document_serves_loop :
    Place.document.Serves (.opening .loop name) ↔ name = QuoteDocument.itemsName := by
  apply Place.serves_document
  intro d symbol
  exact d.isSome_list?_toContext symbol

theorem loopBody_serves_variable :
    Place.loopBody.Serves (.variable name) ↔ name ∈ LineItem.fieldNames := by
  apply Place.serves_loopBody
  intro item index symbol
  exact item.isSome_get?_toRecord index symbol

theorem loopBody_serves_conditional :
    Place.loopBody.Serves (.opening .conditional name) ↔ name ∈ LineItem.fieldNames := by
  apply Place.serves_loopBody
  intro item index symbol
  exact (or_iff_left Bool.false_ne_true).trans (item.isSome_get?_toRecord index symbol)

theorem loopBody_serves_loop : Place.loopBody.Serves (.opening .loop name) ↔ False := by
  apply Place.serves_loopBody
  intro item index symbol
  exact iff_of_false Bool.false_ne_true id

theorem isKnownField_eq_false_iff : Service.isKnownField name = false ↔
    name ∉ QuoteDocument.fieldNames ∧ name ∉ LineItem.fieldNames := by
  simp [Service.isKnownField]

theorem useless_iff {meaning : Directive} : meaning.Useless ↔
    ¬ Place.document.Serves meaning ∧ ¬ Place.loopBody.Serves meaning := by
  constructor
  · intro h
    exact ⟨h .document, h .loopBody⟩
  · rintro ⟨hdocument, hloop⟩ place
    cases place with
    | document => exact hdocument
    | loopBody => exact hloop

/-- A value is of no use if no field has its name; the list of lines would do for a conditional. -/
theorem useless_value_iff {meaning : Directive} (h : meaning.valueName? = some name) :
    meaning.Useless ↔ Service.isKnownField name = false ∧
      (meaning = .opening .conditional name → name ≠ QuoteDocument.itemsName) := by
  rw [useless_iff, isKnownField_eq_false_iff]
  rcases Directive.valueName?_eq_some_iff.1 h with rfl | rfl
  · rw [document_serves_variable, loopBody_serves_variable]
    exact (and_iff_left nofun).symm
  · rw [document_serves_conditional, loopBody_serves_conditional]
    tauto

theorem useless_list_iff {meaning : Directive} (h : meaning.listName? = some name) :
    meaning.Useless ↔ name ≠ QuoteDocument.itemsName := by
  rw [Directive.listName?_eq_some_iff.1 h, useless_iff, document_serves_loop, loopBody_serves_loop]
  exact and_iff_left id

end Names

/-! ## What is reported -/

theorem nodup_sortedNames (names : List String) : (sortedNames names).Nodup :=
  NameMap.nodup_names _

section Reports

variable {source name : String}

theorem mem_directivesAll_references {meaning : Directive} {nodes : List Node} :
    meaning ∈ Node.directivesAll nodes ↔
      ∃ r ∈ Node.referencesAll .document nodes, r.meaning = meaning := by
  rw [← Node.map_meaning_referencesAll .document, List.mem_map]

theorem mem_variableNames_references {t : Template} : name ∈ t.variableNames ↔
    ∃ r ∈ Node.referencesAll .document t.nodes, r.meaning.valueName? = some name := by
  rw [Template.mem_variableNames, mem_directivesAll_references, mem_directivesAll_references]
  simp only [Directive.valueName?_eq_some_iff, and_or_left, exists_or]

theorem mem_sectionNames_references {t : Template} : name ∈ t.sectionNames ↔
    ∃ r ∈ Node.referencesAll .document t.nodes, r.meaning.listName? = some name := by
  rw [Template.mem_sectionNames, mem_directivesAll_references]
  simp only [Directive.listName?_eq_some_iff]

theorem mem_unknown_iff : name ∈ (TemplateReport.of source).unknown ↔
    name ∈ (Template.parse source).variableNames ∧ Service.isKnownField name = false ∨
      name ∈ (Template.parse source).sectionNames ∧ name ≠ QuoteDocument.itemsName := by
  simp [TemplateReport.of]

theorem count_unknown_le (h : ¬ ((name ∈ (Template.parse source).variableNames ∧
      Service.isKnownField name = false) ∧
        name ∈ (Template.parse source).sectionNames ∧ name ≠ QuoteDocument.itemsName)) :
    (TemplateReport.of source).unknown.count name ≤ 1 := by
  have honce (names : List String) (p : String → Bool) :
      ((sortedNames names).filter p).count name ≤ 1 :=
    List.nodup_iff_count.1 ((nodup_sortedNames names).filter p) name
  rw [TemplateReport.of, List.count_append]
  by_cases hvalue : name ∈ (Template.parse source).variableNames ∧
      Service.isKnownField name = false
  · have hlist : name ∉ (Template.parse source).sectionNames.filter
        (· ≠ QuoteDocument.itemsName) := by
      intro hlist
      obtain ⟨hsection, hother⟩ := List.mem_filter.1 hlist
      exact h ⟨hvalue, hsection, of_decide_eq_true hother⟩
    rw [List.count_eq_zero_of_not_mem hlist]
    exact honce _ _
  · have hnone : name ∉ (Template.parse source).variableNames.filter
        (fun name => !Service.isKnownField name) := by
      intro hnone
      obtain ⟨hvariable, hunknown⟩ := List.mem_filter.1 hnone
      exact hvalue ⟨hvariable, by simpa using hunknown⟩
    rw [List.count_eq_zero_of_not_mem hnone, Nat.zero_add]
    exact honce _ _

/-- A name is reported as unknown if some reference to it is of use in no place, so that it yields
nothing where it stands either; and, but for a conditional on the list of lines, it is reported only
then. It is reported once, but for one that is of no use both as a value and as a list. -/
theorem unknown_iff_useless (source name : String) :
    let references := Node.referencesAll .document (Template.parse source).nodes
    let unknown := (TemplateReport.of source).unknown
    ((∃ r ∈ references, r.meaning.RefersTo name ∧ r.meaning.Useless) → name ∈ unknown) ∧
    ((name = QuoteDocument.itemsName → ∀ r ∈ references, r.meaning ≠ .opening .conditional name) →
      (name ∈ unknown ↔ ∃ r ∈ references, r.meaning.RefersTo name ∧ r.meaning.Useless)) ∧
    ((∀ r ∈ references, ∀ r' ∈ references, r.meaning.valueName? = some name →
        r'.meaning.listName? = some name → ¬ (r.meaning.Useless ∧ r'.meaning.Useless)) →
      unknown.count name ≤ 1) := by
  intro references unknown
  have hreported : (∃ r ∈ references, r.meaning.RefersTo name ∧ r.meaning.Useless) →
      name ∈ unknown := by
    rintro ⟨r, hr, hname | hname, huseless⟩
    · exact mem_unknown_iff.2 (Or.inl
        ⟨mem_variableNames_references.2 ⟨r, hr, hname⟩, ((useless_value_iff hname).1 huseless).1⟩)
    · exact mem_unknown_iff.2 (Or.inr
        ⟨mem_sectionNames_references.2 ⟨r, hr, hname⟩, (useless_list_iff hname).1 huseless⟩)
  refine ⟨hreported, ?_, ?_⟩
  · intro hitems
    refine ⟨fun hmem => ?_, hreported⟩
    rcases mem_unknown_iff.1 hmem with ⟨hvalue, hunknown⟩ | ⟨hlist, hother⟩
    · obtain ⟨r, hr, hname⟩ := mem_variableNames_references.1 hvalue
      exact ⟨r, hr, Or.inl hname,
        (useless_value_iff hname).2 ⟨hunknown, fun hcond heq => hitems heq r hr hcond⟩⟩
    · obtain ⟨r, hr, hname⟩ := mem_sectionNames_references.1 hlist
      exact ⟨r, hr, Or.inr hname, (useless_list_iff hname).2 hother⟩
  · intro hapart
    apply count_unknown_le
    rintro ⟨⟨hvalue, hunknown⟩, hlist, hother⟩
    obtain ⟨r, hr, hname⟩ := mem_variableNames_references.1 hvalue
    obtain ⟨r', hr', hname'⟩ := mem_sectionNames_references.1 hlist
    exact hapart r hr r' hr' hname hname'
      ⟨(useless_value_iff hname).2 ⟨hunknown, fun _ => hother⟩, (useless_list_iff hname').2 hother⟩

/-- A name that stands in a loop body and outside of it is reported once. -/
theorem unknown_iff_useless_repeated :
    let source := "\x7b\x7b#each items\x7d\x7d\x7b\x7bcolour\x7d\x7d\x7b\x7b/each\x7d\x7d\x7b\x7bcolour\x7d\x7d"
    (TemplateReport.of source).unknown.count "colour" ≤ 1 ∧
      ∃ r ∈ Node.referencesAll .document (Template.parse source).nodes,
        r.meaning.RefersTo "colour" ∧ r.meaning.Useless := by
  intro source
  have hreferences : Node.referencesAll .document (Template.parse source).nodes =
      [⟨.document, .opening .loop "items"⟩, ⟨.loopBody, .variable "colour"⟩,
        ⟨.document, .variable "colour"⟩] := by decide +kernel
  have hunknown : "colour" ∈ (TemplateReport.of source).unknown := by decide +kernel
  obtain ⟨-, hiff, honce⟩ := unknown_iff_useless source "colour"
  have hnoList : ∀ r ∈ Node.referencesAll .document (Template.parse source).nodes,
      r.meaning.listName? ≠ some "colour" := by
    rw [hreferences]
    decide
  refine ⟨honce ?_, (hiff ?_).1 hunknown⟩
  · intro r hr r' hr' hvalue hlist
    exact absurd hlist (hnoList r' hr')
  · intro heq
    exact absurd heq (by decide)

/-- A field of lines is of no use outside of loops, yet it is not reported there. -/
theorem misplaced_field_unreported :
    let source := "\x7b\x7bproductName\x7d\x7d"
    (⟨.document, .variable "productName"⟩ : Reference) ∈
        Node.referencesAll .document (Template.parse source).nodes ∧
      ¬ Place.document.Serves (.variable "productName") ∧
      "productName" ∉ (TemplateReport.of source).unknown := by
  intro source
  refine ⟨by decide +kernel, ?_, by decide +kernel⟩
  rw [document_serves_variable]
  decide +kernel

end Reports

end QuotePress
