import QuotePress.Proofs.Context.Maps
import QuotePress.Quote.Document

/-! # What the context of a quote binds

Fields are bound one after the other under names of their own, so that each of them is found
again. -/
namespace QuotePress

theorem QuoteDocument.nodup_fieldNames : QuoteDocument.fieldNames.Nodup := by
  decide +kernel

theorem LineItem.nodup_fieldNames : LineItem.fieldNames.Nodup := by
  decide +kernel

theorem QuoteDocument.itemsName_not_mem_fieldNames : itemsName ∉ QuoteDocument.fieldNames := by
  decide +kernel

namespace QuoteDocument

variable (d : QuoteDocument) (symbol : String)

theorem get?_field {name : String} {v : Value} (h : (name, v) ∈ d.fields symbol) :
    (d.toContext symbol).get? name = some (.scalar v) := by
  have hname : name ∈ fieldNames := d.map_fst_fields symbol ▸ List.mem_map_of_mem h
  have hitems : name ≠ itemsName := fun heq => itemsName_not_mem_fieldNames (heq ▸ hname)
  have hnames : ((d.fields symbol).map Prod.fst).Nodup := d.map_fst_fields symbol ▸ nodup_fieldNames
  rw [toContext, Context.bindList, NameMap.get?_insert, if_neg hitems]
  exact NameMap.get?_foldl_insert Binding.scalar _ hnames h

theorem get?_items : (d.toContext symbol).get? itemsName =
    some (.list (itemRecords symbol 1 d.quote.items)) := by
  rw [toContext, Context.bindList, NameMap.get?_insert, if_pos rfl]

theorem get?_other {name : String} (hfield : name ∉ fieldNames) (hitems : name ≠ itemsName) :
    (d.toContext symbol).get? name = none := by
  rw [← d.map_fst_fields symbol] at hfield
  rw [toContext, Context.bindList, NameMap.get?_insert, if_neg hitems]
  exact NameMap.get?_foldl_insert_other Binding.scalar _ hfield

theorem get?_cases (name : String) :
    (name ∈ fieldNames ∧ ∃ v, (d.toContext symbol).get? name = some (.scalar v)) ∨
      (name = itemsName ∧ ∃ records, (d.toContext symbol).get? name = some (.list records)) ∨
        (name ∉ fieldNames ∧ name ≠ itemsName ∧ (d.toContext symbol).get? name = none) := by
  by_cases hfield : name ∈ fieldNames
  · refine Or.inl ⟨hfield, ?_⟩
    rw [← d.map_fst_fields symbol] at hfield
    obtain ⟨⟨_, v⟩, hv, rfl⟩ := List.mem_map.1 hfield
    exact ⟨v, d.get?_field symbol hv⟩
  · by_cases hitems : name = itemsName
    · subst hitems
      exact Or.inr (Or.inl ⟨rfl, _, d.get?_items symbol⟩)
    · exact Or.inr (Or.inr ⟨hfield, hitems, d.get?_other symbol hfield hitems⟩)

theorem value?_toContext {name : String} {v : Value} (h : (name, v) ∈ d.fields symbol) :
    (d.toContext symbol).value? name = some v := by
  rw [Context.value?, d.get?_field symbol h]
  rfl

theorem list?_toContext : (d.toContext symbol).list? itemsName =
    some (itemRecords symbol 1 d.quote.items) := by
  rw [Context.list?, get?_items]
  rfl

theorem isSome_value?_toContext {name : String} :
    ((d.toContext symbol).value? name).isSome = true ↔ name ∈ fieldNames := by
  rw [Context.value?]
  obtain ⟨hfield, v, hget⟩ | ⟨rfl, records, hget⟩ | ⟨hfield, -, hget⟩ := d.get?_cases symbol name
  · rw [hget]
    exact iff_of_true rfl hfield
  · rw [hget]
    exact iff_of_false Bool.false_ne_true itemsName_not_mem_fieldNames
  · rw [hget]
    exact iff_of_false Bool.false_ne_true hfield

theorem isSome_list?_toContext {name : String} :
    ((d.toContext symbol).list? name).isSome = true ↔ name = itemsName := by
  rw [Context.list?]
  obtain ⟨hfield, v, hget⟩ | ⟨rfl, records, hget⟩ | ⟨-, hitems, hget⟩ := d.get?_cases symbol name
  · rw [hget]
    exact iff_of_false Bool.false_ne_true fun heq => itemsName_not_mem_fieldNames (heq ▸ hfield)
  · rw [hget]
    exact iff_of_true rfl rfl
  · rw [hget]
    exact iff_of_false Bool.false_ne_true hitems

end QuoteDocument

namespace LineItem

variable (item : LineItem) (index : Nat) (symbol : String)

theorem get?_subtotal : (item.toRecord index symbol).get? "subtotal" =
    some (.text (Amount.text symbol item.subtotal)) := by
  apply NameMap.get?_ofList
  · exact nodup_fieldNames
  · simp

theorem isSome_get?_toRecord {name : String} :
    ((item.toRecord index symbol).get? name).isSome = true ↔ name ∈ fieldNames :=
  NameMap.isSome_get?_ofList

end LineItem

end QuotePress
