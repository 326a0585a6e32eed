import QuotePress.Proofs.Decimal.Whole
import QuotePress.Proofs.Quote.Bindings

/-! # The names that a quote binds

The context of a quote binds the documented names and nothing else, each of them once; so does the
record of every line. Lines are numbered from one, and a line binds the same wherever it stands, but
for its number. -/
namespace QuotePress

namespace LineItem

variable (item : LineItem) (index : Nat) (symbol : String)

def bindings : List (String × Value) :=
  [("index", .number (Float.ofNat index)),
   ("productName", .text item.productName),
   ("pricingTypeLabel", .text item.pricing.label),
   ("specification", .text item.specification),
   ("unitPriceNote", .text (item.unitPriceNote symbol)),
   ("subtotal", .text (Amount.text symbol item.subtotal))]

theorem toRecord_eq : item.toRecord index symbol = NameMap.ofList (item.bindings index symbol) := rfl

theorem nodup_bindings : ((item.bindings index symbol).map Prod.fst).Nodup := nodup_fieldNames

theorem names_toRecord : (item.toRecord index symbol).names.Perm fieldNames :=
  NameMap.names_ofList_perm (item.nodup_bindings index symbol)

theorem get?_index :
    (item.toRecord index symbol).get? "index" = some (.number (Float.ofNat index)) := by
  apply NameMap.get?_ofList (item.nodup_bindings index symbol)
  exact List.mem_cons_self

/-- Only the number of a line depends on where it stands. -/
theorem get?_elsewhere (elsewhere : Nat) {name : String} (hname : name ≠ "index") :
    (item.toRecord index symbol).get? name = (item.toRecord elsewhere symbol).get? name := by
  by_cases hfield : name ∈ fieldNames
  · obtain ⟨⟨field, v⟩, hmem, rfl⟩ : ∃ e ∈ item.bindings index symbol, e.1 = name :=
      List.mem_map.1 hfield
    have hother : (field, v) ∈ item.bindings elsewhere symbol := by
      rcases List.mem_cons.1 hmem with heq | hrest
      · exact absurd (congrArg Prod.fst heq) hname
      · exact List.mem_cons_of_mem _ hrest
    rw [toRecord_eq, NameMap.get?_ofList (item.nodup_bindings index symbol) hmem, toRecord_eq,
      NameMap.get?_ofList (item.nodup_bindings elsewhere symbol) hother]
  · have hnone (position : Nat) : (item.toRecord position symbol).get? name = none := by
      rw [← Option.not_isSome_iff_eq_none, item.isSome_get?_toRecord position symbol]
      exact hfield
    rw [hnone index, hnone elsewhere]

/-- What a record of a line consists of, at a position: the documented fields of a line, each once and
none over another. The number of the line is the position counted from one, also in print; nothing else
depends on where the line stands. -/
structure RecordedAs (position : Nat) (record : Record) : Prop where
  names : record.names.Perm fieldNames
  bindsOnce : record.BindsOnce (item.bindings (position + 1) symbol)
  index : record.get? "index" = some (.number (Float.ofNat (position + 1)))
  printed : position + 1 < Value.exactLimit →
    (Value.number (Float.ofNat (position + 1))).toText = toString (position + 1)
  elsewhere : ∀ index name, name ≠ "index" →
    record.get? name = (item.toRecord index symbol).get? name

theorem recordedAs (position : Nat) :
    item.RecordedAs symbol position (item.toRecord (position + 1) symbol) where
  names := item.names_toRecord (position + 1) symbol
  bindsOnce := NameMap.bindsOnce_of_nodup (item.nodup_bindings (position + 1) symbol)
  index := item.get?_index (position + 1) symbol
  printed := fun hexact => Value.numberText_ofNat (Nat.succ_pos position) hexact
  elsewhere := fun index _ hname => item.get?_elsewhere (position + 1) symbol index hname

end LineItem

namespace QuoteDocument

theorem getElem?_itemRecords (symbol : String) (first position : Nat) (items : List LineItem) :
    (itemRecords symbol first items)[position]? =
      (items[position]?).map fun item => item.toRecord (first + position) symbol := by
  induction items generalizing first position with
  | nil => rfl
  | cons item rest ih =>
    cases position with
    | zero => rfl
    | succ position =>
      rw [itemRecords, List.getElem?_cons_succ, List.getElem?_cons_succ, ih]
      congr 2
      funext item
      rw [Nat.add_assoc, Nat.add_comm 1]

theorem length_itemRecords (symbol : String) (first : Nat) (items : List LineItem) :
    (itemRecords symbol first items).length = items.length := by
  induction items generalizing first with
  | nil => rfl
  | cons item rest ih => exact congrArg (· + 1) (ih (first + 1))

variable (d : QuoteDocument) (symbol : String)

def bindings : List (String × Binding) :=
  (d.fields symbol).map (fun field => (field.1, .scalar field.2)) ++
    [(itemsName, .list (itemRecords symbol 1 d.quote.items))]

theorem map_fst_bindings : (d.bindings symbol).map Prod.fst = fieldNames ++ [itemsName] := by
  rw [bindings, List.map_append, List.map_map]
  rfl

theorem nodup_bindings : ((d.bindings symbol).map Prod.fst).Nodup := by
  rw [map_fst_bindings, List.nodup_append']
  refine ⟨nodup_fieldNames, List.nodup_singleton _, ?_⟩
  exact List.disjoint_singleton.2 itemsName_not_mem_fieldNames

theorem toContext_eq : d.toContext symbol = NameMap.ofList (d.bindings symbol) := by
  rw [bindings, NameMap.ofList, List.foldl_append, List.foldl_map]
  rfl

/-- The context of a quote binds the documented fields to values and the name of the lines to a list,
each once and none over another. The list has a record for each line in its place. -/
theorem toContext_names (d : QuoteDocument) (symbol : String) :
    let context := d.toContext symbol
    context.names.Perm (fieldNames ++ [itemsName]) ∧
      (∀ name, (context.value? name).isSome = true ↔ name ∈ fieldNames) ∧
      (∀ name, (context.list? name).isSome = true ↔ name = itemsName) ∧
      context.BindsOnce (d.bindings symbol) ∧
      ∃ records, context.list? itemsName = some records ∧
        records.length = d.quote.items.length ∧
        ∀ (position : Nat) (item : LineItem), d.quote.items[position]? = some item →
          ∃ record, records[position]? = some record ∧ item.RecordedAs symbol position record := by
  intro context
  have hnames := d.nodup_bindings symbol
  have hcontext : context = NameMap.ofList (d.bindings symbol) := d.toContext_eq symbol
  refine ⟨?_, fun name => d.isSome_value?_toContext symbol, fun name =>
    d.isSome_list?_toContext symbol, ?_, _, d.list?_toContext symbol, length_itemRecords .., ?_⟩
  · rw [← d.map_fst_bindings symbol, hcontext]
    exact NameMap.names_ofList_perm hnames
  · rw [hcontext]
    exact NameMap.bindsOnce_of_nodup hnames
  · intro position item hitem
    refine ⟨item.toRecord (position + 1) symbol, ?_, item.recordedAs symbol position⟩
    rw [getElem?_itemRecords, hitem, Nat.add_comm 1]
    rfl

theorem toContext_names_second :
    let items := [{ LineItem.blank with productName := "A" }, LineItem.blank]
    let d : QuoteDocument := ⟨{}, {}, { Quote.blank with items }⟩
    ∃ records record, (d.toContext "R$").list? itemsName = some records ∧
      records[1]? = some record ∧ (record.get? "index").map Value.toText = some "2" := by
  intro items d
  obtain ⟨-, -, -, -, records, hlist, -, hrecords⟩ := toContext_names d "R$"
  obtain ⟨record, hrecord, hrecorded⟩ := hrecords 1 LineItem.blank rfl
  refine ⟨records, record, hlist, hrecord, ?_⟩
  rw [hrecorded.index, Option.map_some, hrecorded.printed (by decide)]
  rfl

end QuoteDocument

end QuotePress
