/-! # Maps from names, in ascending order of the names

Names are compared by code point, which is also the order of their UTF-8 bytes. A map holds each
name once. -/
namespace QuotePress

def Ascending {α : Type} (entries : List (String × α)) : Prop :=
  entries.Pairwise fun a b => a.1 < b.1

/-- A finite map from names; its entries strictly ascend by name. -/
@[ext]
structure NameMap (α : Type) where
  entries : List (String × α)
  ascending : Ascending entries

namespace NameMap

variable {α : Type}

instance [DecidableEq α] : DecidableEq (NameMap α) := fun a b =>
  decidable_of_iff (a.entries = b.entries) NameMap.ext_iff.symm

def empty : NameMap α := ⟨[], .nil⟩

instance : Inhabited (NameMap α) := ⟨empty⟩

/-- Puts an entry at its place among ascending entries, over an entry of the same name. -/
def insertEntry (name : String) (a : α) : List (String × α) → List (String × α)
  | [] => [(name, a)]
  | (other, b) :: rest =>
    if name < other then (name, a) :: (other, b) :: rest
    else if name = other then (name, a) :: rest
    else (other, b) :: insertEntry name a rest

/-- The names after an insertion are the old ones and the new one. -/
theorem name_mem_insertEntry {name other : String} {a : α} {entries : List (String × α)} :
    other ∈ (insertEntry name a entries).map Prod.fst ↔
      other = name ∨ other ∈ entries.map Prod.fst := by
  induction entries with
  | nil => simp [insertEntry]
  | cons e rest ih =>
    obtain ⟨n, b⟩ := e
    simp only [insertEntry]
    split
    · simp
    · split
      · subst n; simp
      · simp only [List.map_cons, List.mem_cons, ih]
        exact ⟨fun h => by rcases h with h | h | h <;> simp [h],
          fun h => by rcases h with h | h | h <;> simp [h]⟩

theorem ascending_insertEntry {name : String} {a : α} {entries : List (String × α)}
    (h : Ascending entries) : Ascending (insertEntry name a entries) := by
  induction entries with
  | nil => simp [insertEntry, Ascending]
  | cons e rest ih =>
    obtain ⟨n, b⟩ := e
    obtain ⟨hn, hr⟩ := List.pairwise_cons.1 h
    simp only [insertEntry]
    split
    · rename_i hlt
      refine List.pairwise_cons.2 ⟨fun p hp => ?_, h⟩
      rcases List.mem_cons.1 hp with rfl | hp
      · exact hlt
      · exact String.lt_trans hlt (hn p hp)
    · split
      · rename_i heq
        subst heq
        exact List.pairwise_cons.2 ⟨hn, hr⟩
      · rename_i hlt hne
        refine List.pairwise_cons.2 ⟨fun p hp => ?_, ih hr⟩
        have hm : p.1 ∈ (insertEntry name a rest).map Prod.fst :=
          List.mem_map.2 ⟨p, hp, rfl⟩
        rcases name_mem_insertEntry.1 hm with hp | hp
        · show n < p.1
          rw [hp]
          rcases Decidable.em (n < name) with h' | h'
          · exact h'
          · exact absurd (String.le_antisymm (String.not_lt.1 h') (String.not_lt.1 hlt)) hne
        · obtain ⟨q, hq, hqp⟩ := List.mem_map.1 hp
          exact hqp ▸ hn q hq

def insert (m : NameMap α) (name : String) (a : α) : NameMap α :=
  ⟨insertEntry name a m.entries, ascending_insertEntry m.ascending⟩

def erase (m : NameMap α) (name : String) : NameMap α :=
  ⟨m.entries.filter (·.1 ≠ name), m.ascending.filter _⟩

def findEntry (name : String) : List (String × α) → Option α
  | [] => none
  | (other, a) :: rest => if name = other then some a else findEntry name rest

def get? (m : NameMap α) (name : String) : Option α :=
  findEntry name m.entries

def contains (m : NameMap α) (name : String) : Bool :=
  (m.get? name).isSome

def names (m : NameMap α) : List String :=
  m.entries.map Prod.fst

def size (m : NameMap α) : Nat :=
  m.entries.length

theorem ascending_map {β : Type} (f : α → β) {entries : List (String × α)}
    (h : Ascending entries) : Ascending (entries.map fun e => (e.1, f e.2)) := by
  rw [Ascending, List.pairwise_map]
  exact h

/-- The same names with other values. -/
def map {β : Type} (f : α → β) (m : NameMap α) : NameMap β :=
  ⟨m.entries.map fun e => (e.1, f e.2), ascending_map f m.ascending⟩

/-- Binds the entries one after the other, so that the last of repeated names wins. -/
def ofList (entries : List (String × α)) : NameMap α :=
  entries.foldl (fun m e => m.insert e.1 e.2) empty

@[simp]
theorem get?_empty (name : String) : (empty : NameMap α).get? name = none := rfl

theorem findEntry_insertEntry (name other : String) (a : α) (entries : List (String × α)) :
    findEntry other (insertEntry name a entries) =
      if other = name then some a else findEntry other entries := by
  induction entries with
  | nil => simp [insertEntry, findEntry]
  | cons e rest ih => grind [insertEntry, findEntry]

theorem findEntry_filter (name other : String) (entries : List (String × α)) :
    findEntry other (entries.filter (·.1 ≠ name)) =
      if other = name then none else findEntry other entries := by
  induction entries with
  | nil => simp [findEntry]
  | cons e rest ih => grind [findEntry]

theorem findEntry_map {β : Type} (f : α → β) (name : String) (entries : List (String × α)) :
    findEntry name (entries.map fun e => (e.1, f e.2)) = (findEntry name entries).map f := by
  induction entries with
  | nil => rfl
  | cons e rest ih => grind [findEntry]

@[simp]
theorem get?_map {β : Type} (f : α → β) (m : NameMap α) (name : String) :
    (m.map f).get? name = (m.get? name).map f :=
  findEntry_map f name m.entries

@[simp]
theorem get?_insert (m : NameMap α) (name other : String) (a : α) :
    (m.insert name a).get? other = if other = name then some a else m.get? other :=
  findEntry_insertEntry name other a m.entries

@[simp]
theorem get?_erase (m : NameMap α) (name other : String) :
    (m.erase name).get? other = if other = name then none else m.get? other :=
  findEntry_filter name other m.entries

end NameMap

end QuotePress
