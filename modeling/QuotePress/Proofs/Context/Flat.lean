import QuotePress.Context.OfJson
import QuotePress.Proofs.Context.Maps
import QuotePress.Proofs.Text.Order
import Mathlib.Data.List.Forall2
import Mathlib.Data.List.Nodup

/-! # Contexts are read from flat documents

A flat document is an object of scalars and of arrays of objects that have scalars only. Just these
are read, and the context binds the members and nothing else. Of a document that is not flat the
first fault is reported: members are looked at in the order of the bytes of their names, items in
the order of their array. -/
namespace QuotePress

namespace Json

/-- The member of a name. The last of repeated names counts. -/
def member? (members : List (String × Json)) (name : String) : Option Json :=
  members.reverse.lookup name

def Every (members : List (String × Json)) (fit : Json → Prop) : Prop :=
  ∀ name json, member? members name = some json → fit json

/-- The first member that does not fit, in the order of the bytes of the names. -/
structure FirstUnfit (members : List (String × Json)) (fit : Json → Prop) (name : String)
    (json : Json) : Prop where
  member : member? members name = some json
  unfit : ¬ fit json
  before : ∀ other earlier, member? members other = some earlier →
    Text.bytes other < Text.bytes name → fit earlier

def IsObject : Json → Prop
  | .object _ => True
  | _ => False

def IsScalar : Json → Prop
  | .array _ => False
  | .object _ => False
  | _ => True

def IsFlatItem : Json → Prop
  | .object members => Every members IsScalar
  | _ => False

def IsFlatMember : Json → Prop
  | .array items => ∀ item ∈ items, IsFlatItem item
  | json => json.IsScalar

def IsFlat : Json → Prop
  | .object members => Every members IsFlatMember
  | _ => False

/-! What the parts of a flat document are read as -/

inductive StandsFor : Json → Value → Prop where
  | null : StandsFor .null .null
  | boolean (b : Bool) : StandsFor (.boolean b) (.boolean b)
  | integer (n : Int) : StandsFor (.integer n) (.number (Float.ofInt n))
  | real (x : Float) : StandsFor (.real x) (.number x)
  | string (s : String) : StandsFor (.string s) (.text s)

inductive HeldBy : Json → Record → Prop where
  | object {members : List (String × Json)} {record : Record}
      (h : ∀ field, Option.Rel StandsFor (member? members field) (record.get? field)) :
      HeldBy (.object members) record

inductive BoundTo : Json → Binding → Prop where
  | scalar {json : Json} {v : Value} (h : json.StandsFor v) : BoundTo json (.scalar v)
  | list {items : List Json} {records : List Record} (h : List.Forall₂ HeldBy items records) :
      BoundTo (.array items) (.list records)

inductive ReadAs : Json → Context → Prop where
  | object {members : List (String × Json)} {c : Context}
      (h : ∀ name, Option.Rel BoundTo (member? members name) (c.get? name)) :
      ReadAs (.object members) c

/-! The faults of what is not flat -/

inductive ItemFault (list : String) (index : Nat) : Json → ContextFault → Prop where
  | notAnObject {item : Json} (h : ¬ item.IsObject) :
      ItemFault list index item (.listItem list index item.kindName)
  | nested {members : List (String × Json)} {field : String} {json : Json}
      (h : FirstUnfit members IsScalar field json) :
      ItemFault list index (.object members) (.nested list index field)

inductive MemberFault (name : String) : Json → ContextFault → Prop where
  | object (members : List (String × Json)) :
      MemberFault name (.object members) (.unsupported name "object")
  /-- All items in front of the faulty one are flat. -/
  | item {before after : List Json} {item : Json} {fault : ContextFault}
      (hbefore : ∀ earlier ∈ before, earlier.IsFlatItem)
      (h : ItemFault name before.length item fault) :
      MemberFault name (.array (before ++ item :: after)) fault

inductive DocumentFault : Json → ContextFault → Prop where
  | notAnObject {json : Json} (h : ¬ json.IsObject) :
      DocumentFault json (.notAnObject json.kindName)
  | member {members : List (String × Json)} {name : String} {json : Json} {fault : ContextFault}
      (hfirst : FirstUnfit members IsFlatMember name json) (h : MemberFault name json fault) :
      DocumentFault (.object members) fault

end Json

namespace Context

open Json (member? sortedMembers Every FirstUnfit)

variable {α : Type}

def Reads (good : α → Prop) (bad : ContextFault → Prop) : Except ContextFault α → Prop
  | .ok a => good a
  | .error fault => bad fault

theorem Reads.imp {good good' : α → Prop} {bad bad' : ContextFault → Prop}
    {x : Except ContextFault α} (h : Reads good bad x) (hgood : ∀ a, good a → good' a)
    (hbad : ∀ fault, bad fault → bad' fault) : Reads good' bad' x := by
  cases x with
  | ok a => exact hgood a h
  | error fault => exact hbad fault h

theorem Reads.bind {β : Type} {good : α → Prop} {good' : β → Prop} {bad bad' : ContextFault → Prop}
    {x : Except ContextFault α} {next : α → Except ContextFault β} (h : Reads good bad x)
    (hbad : ∀ fault, bad fault → bad' fault) (hnext : ∀ a, good a → Reads good' bad' (next a)) :
    Reads good' bad' (x >>= next) := by
  cases x with
  | ok a => exact hnext a h
  | error fault => exact hbad fault h

/-! Reading members into a map -/

def readMembers (read : String → Json → Except ContextFault α) :
    List (String × Json) → NameMap α → Except ContextFault (NameMap α)
  | [], m => .ok m
  | (name, json) :: rest, m => do
    let a ← read name json
    readMembers read rest (m.insert name a)

section

variable {read : String → Json → Except ContextFault α} {good : Json → α → Prop}
  {bad : String → Json → ContextFault → Prop}

/-- All entries are read and bound, or the reading stops behind entries that can be read. -/
theorem reads_entries (hread : ∀ name json, Reads (good json) (bad name json) (read name json))
    {entries : List (String × Json)} (hnames : (entries.map Prod.fst).Nodup) (m : NameMap α) :
    Reads
      (fun result =>
        (∀ e ∈ entries, ∃ a, good e.2 a ∧ result.get? e.1 = some a) ∧
          ∀ name ∉ entries.map Prod.fst, result.get? name = m.get? name)
      (fun fault => ∃ before e after, entries = before ++ e :: after ∧
        (∀ earlier ∈ before, ∃ a, good earlier.2 a) ∧ bad e.1 e.2 fault)
      (readMembers read entries m) := by
  induction entries generalizing m with
  | nil => exact ⟨nofun, fun _ _ => rfl⟩
  | cons e rest ih =>
    rw [List.map_cons, List.nodup_cons] at hnames
    refine (hread e.1 e.2).bind ?_ fun a ha => ?_
    · intro fault hfault
      exact ⟨[], e, rest, rfl, nofun, hfault⟩
    · refine (ih hnames.2 (m.insert e.1 a)).imp ?_ ?_
      · rintro result ⟨hbound, hother⟩
        constructor
        · intro d hd
          rcases List.mem_cons.1 hd with rfl | hd
          · exact ⟨a, ha, by rw [hother _ hnames.1, NameMap.get?_insert, if_pos rfl]⟩
          · exact hbound d hd
        · intro name hname
          rw [List.map_cons, List.mem_cons, not_or] at hname
          rw [hother name hname.2, NameMap.get?_insert, if_neg hname.1]
      · rintro fault ⟨before, d, after, rfl, hbefore, hfault⟩
        refine ⟨e :: before, d, after, rfl, ?_, hfault⟩
        intro earlier hearlier
        rcases List.mem_cons.1 hearlier with rfl | hearlier
        · exact ⟨a, ha⟩
        · exact hbefore earlier hearlier

theorem mem_sortedMembers {members : List (String × Json)} {name : String} {json : Json} :
    (name, json) ∈ sortedMembers members ↔ member? members name = some json := by
  rw [sortedMembers, NameMap.mem_entries_iff, NameMap.get?_ofList_eq_lookup, member?]

/-- Of members in the order of their names the first faulty one is the first of all. -/
theorem firstUnfit_of_split {members before after : List (String × Json)} {e : String × Json}
    {fit : Json → Prop} (hsplit : sortedMembers members = before ++ e :: after)
    (hbefore : ∀ earlier ∈ before, fit earlier.2) (hunfit : ¬ fit e.2) :
    FirstUnfit members fit e.1 e.2 := by
  refine ⟨mem_sortedMembers.1 (by simp [hsplit]), hunfit, ?_⟩
  intro other json hmember hlt
  have hascending := (NameMap.ofList members).ascending
  have hmem := mem_sortedMembers.2 hmember
  rw [← sortedMembers] at hascending
  rw [hsplit] at hascending hmem
  have hafter := (List.pairwise_cons.1 (List.pairwise_append.1 hascending).2.1).1
  rw [← Text.lt_iff_bytes_lt] at hlt
  rcases List.mem_append.1 hmem with hmem | hmem
  · exact hbefore _ hmem
  · rcases List.mem_cons.1 hmem with rfl | hmem
    · exact absurd hlt (String.lt_irrefl other)
    · exact absurd (String.lt_trans hlt (hafter _ hmem)) (String.lt_irrefl other)

/-- The members of an object are all read, or the first that does not fit stops the reading. -/
theorem reads_members {fit : Json → Prop}
    (hread : ∀ name json, Reads (good json) (bad name json) (read name json))
    (hfit : ∀ json a, good json a → fit json)
    (hunfit : ∀ name json fault, bad name json fault → ¬ fit json)
    (members : List (String × Json)) :
    Reads (fun result => ∀ name, Option.Rel good (member? members name) (result.get? name))
      (fun fault => ∃ name json, FirstUnfit members fit name json ∧ bad name json fault)
      (readMembers read (sortedMembers members) NameMap.empty) := by
  have hnames : ((sortedMembers members).map Prod.fst).Nodup := by
    refine List.pairwise_map.2 ((NameMap.ofList members).ascending.imp ?_)
    intro a b hlt heq
    rw [heq] at hlt
    exact String.lt_irrefl _ hlt
  refine (reads_entries hread hnames NameMap.empty).imp ?_ ?_
  · rintro result ⟨hbound, hother⟩ name
    cases hmember : member? members name with
    | none =>
      rw [hother name]
      · exact .none
      · rintro hname
        obtain ⟨⟨_, json⟩, hmem, rfl⟩ := List.mem_map.1 hname
        rw [mem_sortedMembers.1 hmem] at hmember
        cases hmember
    | some json =>
      obtain ⟨a, ha, hget⟩ := hbound (name, json) (mem_sortedMembers.2 hmember)
      rw [hget]
      exact .some ha
  · rintro fault ⟨before, e, after, hsplit, hbefore, hfault⟩
    refine ⟨e.1, e.2, firstUnfit_of_split hsplit ?_ (hunfit _ _ _ hfault), hfault⟩
    intro earlier hearlier
    obtain ⟨a, ha⟩ := hbefore earlier hearlier
    exact hfit _ _ ha

theorem every_of_rel {fit : Json → Prop} {members : List (String × Json)} {m : NameMap α}
    (hfit : ∀ json a, good json a → fit json)
    (h : ∀ name, Option.Rel good (member? members name) (m.get? name)) : Every members fit := by
  intro name json hmember
  have hrel := h name
  generalize m.get? name = found at hrel
  rw [hmember] at hrel
  cases hrel with
  | some ha => exact hfit _ _ ha

theorem not_every_of_firstUnfit {fit : Json → Prop} {members : List (String × Json)}
    {name : String} {json : Json} (h : FirstUnfit members fit name json) : ¬ Every members fit :=
  fun hall => h.unfit (hall name json h.member)

end

/-! Flat parts are read, and what is faulty is not flat -/

theorem isScalar_of_standsFor {json : Json} {v : Value} (h : json.StandsFor v) :
    json.IsScalar := by
  cases h <;> trivial

theorem isFlatItem_of_heldBy {item : Json} {record : Record} (h : item.HeldBy record) :
    item.IsFlatItem := by
  cases h with
  | object h => exact every_of_rel (fun _ _ => isScalar_of_standsFor) h

theorem not_isFlatItem_of_itemFault {list : String} {index : Nat} {item : Json}
    {fault : ContextFault} (h : item.ItemFault list index fault) : ¬ item.IsFlatItem := by
  cases h with
  | notAnObject h =>
    cases item with
    | object members => exact absurd trivial h
    | _ => exact id
  | nested h => exact not_every_of_firstUnfit h

theorem isFlatMember_of_boundTo {json : Json} {b : Binding} (h : json.BoundTo b) :
    json.IsFlatMember := by
  cases h with
  | scalar h => cases h <;> trivial
  | @list items records h =>
    show ∀ item ∈ items, item.IsFlatItem
    induction h with
    | nil => exact nofun
    | cons hitem _ ih => exact List.forall_mem_cons.2 ⟨isFlatItem_of_heldBy hitem, ih⟩

theorem not_isFlatMember_of_memberFault {name : String} {json : Json} {fault : ContextFault}
    (h : json.MemberFault name fault) : ¬ json.IsFlatMember := by
  cases h with
  | object members => exact id
  | item hbefore h =>
    intro hflat
    exact not_isFlatItem_of_itemFault h (hflat _ (by simp))

theorem isFlat_of_readAs {json : Json} {c : Context} (h : json.ReadAs c) : json.IsFlat := by
  cases h with
  | object h => exact every_of_rel (fun _ _ => isFlatMember_of_boundTo) h

theorem not_isFlat_of_documentFault {json : Json} {fault : ContextFault}
    (h : json.DocumentFault fault) : ¬ json.IsFlat := by
  cases h with
  | notAnObject h =>
    cases json with
    | object members => exact absurd trivial h
    | _ => exact id
  | member hfirst h => exact not_every_of_firstUnfit hfirst

/-! What each part is read to -/

theorem standsFor_of_value {json : Json} {v : Value} (h : Value.ofJson? json = some v) :
    json.StandsFor v := by
  cases json <;> cases h <;> constructor

theorem not_isScalar_of_no_value {json : Json} (h : Value.ofJson? json = none) :
    ¬ json.IsScalar := by
  cases json with
  | array items => exact id
  | object members => exact id
  | _ => cases h

def readField (list : String) (index : Nat) (field : String) (json : Json) :
    Except ContextFault Value :=
  match Value.ofJson? json with
  | some v => .ok v
  | none => .error (.nested list index field)

theorem recordOf_eq (list : String) (index : Nat) (members : List (String × Json))
    (record : Record) :
    recordOf list index members record = readMembers (readField list index) members record := by
  induction members generalizing record with
  | nil => rfl
  | cons e rest ih =>
    rw [recordOf, readMembers, readField]
    cases Value.ofJson? e.2 with
    | none => rfl
    | some v => exact ih _

theorem reads_field (list : String) (index : Nat) (field : String) (json : Json) :
    Reads json.StandsFor (fun fault => ¬ json.IsScalar ∧ fault = .nested list index field)
      (readField list index field json) := by
  rw [readField]
  cases hvalue : Value.ofJson? json with
  | some v => exact standsFor_of_value hvalue
  | none => exact ⟨not_isScalar_of_no_value hvalue, rfl⟩

def readItem (list : String) (index : Nat) : Json → Except ContextFault Record
  | .object members => recordOf list index (sortedMembers members) NameMap.empty
  | item => .error (.listItem list index item.kindName)

theorem recordsOf_cons (list : String) (index : Nat) (item : Json) (rest : List Json) :
    recordsOf list index (item :: rest) = do
      let record ← readItem list index item
      return record :: (← recordsOf list (index + 1) rest) := by
  cases item <;> rfl

theorem reads_item (list : String) (index : Nat) (item : Json) :
    Reads item.HeldBy (item.ItemFault list index) (readItem list index item) := by
  cases item with
  | object members =>
    rw [readItem, recordOf_eq]
    refine (reads_members (reads_field list index) (fun _ _ => isScalar_of_standsFor)
      (fun _ _ _ h => h.1) members).imp ?_ ?_
    · intro record h
      exact .object h
    · rintro fault ⟨field, json, hfirst, -, rfl⟩
      exact .nested hfirst
  | _ => exact .notAnObject id

theorem reads_items (list : String) (index : Nat) (items : List Json) :
    Reads (List.Forall₂ Json.HeldBy items)
      (fun fault => ∃ before item after, items = before ++ item :: after ∧
        (∀ earlier ∈ before, earlier.IsFlatItem) ∧
          item.ItemFault list (index + before.length) fault)
      (recordsOf list index items) := by
  induction items generalizing index with
  | nil => exact .nil
  | cons item rest ih =>
    rw [recordsOf_cons]
    refine (reads_item list index item).bind ?_ fun record hrecord => ?_
    · intro fault h
      exact ⟨[], item, rest, rfl, nofun, h⟩
    · refine (ih (index + 1)).bind ?_ fun records hrecords => ?_
      · rintro fault ⟨before, faulty, after, rfl, hbefore, h⟩
        refine ⟨item :: before, faulty, after, rfl, ?_, ?_⟩
        · exact List.forall_mem_cons.2 ⟨isFlatItem_of_heldBy hrecord, hbefore⟩
        · rwa [List.length_cons, Nat.add_comm before.length, ← Nat.add_assoc]
      · exact .cons hrecord hrecords

def readBinding (name : String) : Json → Except ContextFault Binding
  | .array items => do return .list (← recordsOf name 0 items)
  | json =>
    match Value.ofJson? json with
    | some v => .ok (.scalar v)
    | none => .error (.unsupported name json.kindName)

theorem bindMembers_eq (members : List (String × Json)) (c : Context) :
    bindMembers members c = readMembers readBinding members c := by
  induction members generalizing c with
  | nil => rfl
  | cons e rest ih =>
    obtain ⟨name, json⟩ := e
    cases json with
    | array items =>
      rw [bindMembers, readMembers, readBinding]
      cases recordsOf name 0 items with
      | error fault => rfl
      | ok records => exact ih _
    | object members => rfl
    | _ => exact ih _

theorem reads_binding (name : String) (json : Json) :
    Reads json.BoundTo (json.MemberFault name) (readBinding name json) := by
  cases json with
  | array items =>
    refine (reads_items name 0 items).bind ?_ fun records hrecords => ?_
    · rintro fault ⟨before, item, after, rfl, hbefore, h⟩
      rw [Nat.zero_add] at h
      exact .item hbefore h
    · exact .list hrecords
  | object members => exact .object members
  | null => exact .scalar .null
  | boolean b => exact .scalar (.boolean b)
  | integer n => exact .scalar (.integer n)
  | real x => exact .scalar (.real x)
  | string s => exact .scalar (.string s)

theorem reads_ofJson (json : Json) : Reads json.ReadAs json.DocumentFault (ofJson json) := by
  cases json with
  | object members =>
    rw [ofJson, bindMembers_eq]
    refine (reads_members reads_binding (fun _ _ => isFlatMember_of_boundTo)
      (fun _ _ _ => not_isFlatMember_of_memberFault) members).imp ?_ ?_
    · intro c h
      exact .object h
    · rintro fault ⟨name, json, hfirst, h⟩
      exact .member hfirst h
  | _ => exact .notAnObject id

/-- Just the flat documents are read. The context of such a document binds its members and nothing
else, and a document that is not flat is refused with its first fault. -/
theorem ofJson_flat (json : Json) :
    ((∃ c, ofJson json = .ok c) ↔ json.IsFlat) ∧
      (∀ c, ofJson json = .ok c → json.ReadAs c) ∧
        ∀ fault, ofJson json = .error fault → json.DocumentFault fault := by
  have hreads := reads_ofJson json
  cases hresult : ofJson json with
  | ok c =>
    rw [hresult] at hreads
    refine ⟨iff_of_true ⟨c, rfl⟩ (isFlat_of_readAs hreads), ?_, nofun⟩
    intro other hother
    cases hother
    exact hreads
  | error fault =>
    rw [hresult] at hreads
    refine ⟨iff_of_false nofun (not_isFlat_of_documentFault hreads), nofun, ?_⟩
    intro other hother
    cases hother
    exact hreads

/-- The array comes before the object, and in the array the field "x" before the field "y". -/
theorem ofJson_flat_refused :
    let json : Json := .object [("b", .object []),
      ("a", .array [.object [], .object [("y", .array []), ("x", .object []), ("w", .null)]])]
    ofJson json = .error (.nested "a" 1 "x") ∧
      json.DocumentFault (.nested "a" 1 "x") :=
  have hrefused := by decide +kernel
  ⟨hrefused, (ofJson_flat _).2.2 _ hrefused⟩

end Context

end QuotePress
