import QuotePress.NameMap
import Mathlib.Data.List.Induction
import Mathlib.Data.List.Nodup
import Mathlib.Data.List.Perm.Basic

/-! # Maps that are put together entry by entry

The last of repeated names counts. If no name is repeated, no entry replaces another: each is found
again, and their order has no part in the map. -/
namespace QuotePress.NameMap

variable {α β : Type}

theorem findEntry_eq_some_iff {entries : List (String × α)} (h : Ascending entries) {name : String}
    {a : α} : findEntry name entries = some a ↔ (name, a) ∈ entries := by
  induction entries with
  | nil => simp [findEntry]
  | cons e rest ih =>
    obtain ⟨other, b⟩ := e
    obtain ⟨hother, hrest⟩ := List.pairwise_cons.1 h
    rw [findEntry, List.mem_cons, Prod.mk.injEq]
    split_ifs with heq
    · subst name
      have hnot : (other, a) ∉ rest := fun hmem => String.lt_irrefl other (hother _ hmem)
      simp [hnot, eq_comm]
    · simp [heq, ih hrest]

theorem mem_entries_iff {m : NameMap α} {name : String} {a : α} :
    (name, a) ∈ m.entries ↔ m.get? name = some a :=
  (findEntry_eq_some_iff m.ascending).symm

theorem get?_ofList_eq_lookup (entries : List (String × α)) (name : String) :
    (ofList entries).get? name = entries.reverse.lookup name := by
  induction entries using List.reverseRecOn with
  | nil => rfl
  | append_singleton entries e ih =>
    have hlast : ofList (entries ++ [e]) = (ofList entries).insert e.1 e.2 := by
      rw [ofList, List.foldl_append]
      rfl
    rw [hlast, get?_insert, List.reverse_append, List.reverse_singleton, List.singleton_append,
      List.lookup_cons, ih]
    by_cases heq : name = e.1
    · rw [if_pos heq, beq_iff_eq.2 heq]
    · rw [if_neg heq, beq_eq_false_iff_ne.2 heq]

section Insertions

variable {entries : List (String × β)} {name : String}

theorem get?_foldl_insert_other (f : β → α) (m : NameMap α)
    (h : name ∉ entries.map Prod.fst) :
    (entries.foldl (fun m e => m.insert e.1 (f e.2)) m).get? name = m.get? name := by
  induction entries generalizing m with
  | nil => rfl
  | cons e rest ih =>
    rw [List.map_cons, List.mem_cons, not_or] at h
    rw [List.foldl_cons, ih _ h.2, get?_insert, if_neg h.1]

theorem get?_foldl_insert (f : β → α) (m : NameMap α) (hnames : (entries.map Prod.fst).Nodup)
    {b : β} (h : (name, b) ∈ entries) :
    (entries.foldl (fun m e => m.insert e.1 (f e.2)) m).get? name = some (f b) := by
  induction entries generalizing m with
  | nil => cases h
  | cons e rest ih =>
    rw [List.map_cons, List.nodup_cons] at hnames
    rw [List.foldl_cons]
    rcases List.mem_cons.1 h with rfl | h
    · rw [get?_foldl_insert_other f _ hnames.1, get?_insert, if_pos rfl]
    · exact ih _ hnames.2 h

theorem isSome_get?_foldl_insert (f : β → α) (m : NameMap α) :
    ((entries.foldl (fun m e => m.insert e.1 (f e.2)) m).get? name).isSome = true ↔
      name ∈ entries.map Prod.fst ∨ (m.get? name).isSome = true := by
  induction entries generalizing m with
  | nil => simp
  | cons e rest ih =>
    rw [List.foldl_cons, ih, get?_insert, List.map_cons, List.mem_cons]
    by_cases h : name = e.1
    · simp [h]
    · simp [h]

end Insertions

variable {entries others : List (String × α)} {name : String}

theorem get?_ofList {a : α} (hnames : (entries.map Prod.fst).Nodup) (h : (name, a) ∈ entries) :
    (ofList entries).get? name = some a :=
  get?_foldl_insert id _ hnames h

theorem isSome_get?_ofList :
    ((ofList entries).get? name).isSome = true ↔ name ∈ entries.map Prod.fst :=
  (isSome_get?_foldl_insert id empty).trans (or_iff_left nofun)

theorem mem_names_iff {m : NameMap α} : name ∈ m.names ↔ (m.get? name).isSome = true := by
  rw [names, List.mem_map, Option.isSome_iff_exists]
  constructor
  · rintro ⟨⟨_, a⟩, hmem, rfl⟩
    exact ⟨a, mem_entries_iff.1 hmem⟩
  · rintro ⟨a, hget⟩
    exact ⟨(name, a), mem_entries_iff.2 hget, rfl⟩

theorem nodup_names (m : NameMap α) : m.names.Nodup := by
  rw [names, List.Nodup, List.pairwise_map]
  refine m.ascending.imp ?_
  intro first second hlt heq
  rw [heq] at hlt
  exact String.lt_irrefl _ hlt

/-- Maps that bind the same are the same. -/
theorem ext_get? {first second : NameMap α} (h : ∀ name, first.get? name = second.get? name) :
    first = second := by
  have hmem (e : String × α) : e ∈ first.entries ↔ e ∈ second.entries := by
    rw [mem_entries_iff, mem_entries_iff, h]
  have hnodup (m : NameMap α) : m.entries.Nodup := .of_map Prod.fst m.nodup_names
  apply NameMap.ext
  refine ((List.perm_ext_iff_of_nodup (hnodup first) (hnodup second)).2 hmem).eq_of_pairwise ?_
    first.ascending second.ascending
  intro a b _ _ hab hba
  exact absurd hba (String.lt_asymm hab)

def NoneReplaced (entries : List (String × α)) : Prop :=
  ∀ before name a after, entries = before ++ (name, a) :: after →
    (ofList before).get? name = none

/-- In whatever order the entries are bound, they make up the map, and none replaces another. -/
def BindsOnce (m : NameMap α) (entries : List (String × α)) : Prop :=
  ∀ others, others.Perm entries → m = ofList others ∧ NoneReplaced others

section Distinct

variable (hnames : (entries.map Prod.fst).Nodup)

include hnames

theorem noneReplaced_of_nodup : NoneReplaced entries := by
  rintro before name a after rfl
  rw [List.map_append, List.map_cons, List.nodup_append'] at hnames
  rw [← Option.not_isSome_iff_eq_none, isSome_get?_ofList]
  intro hbefore
  exact hnames.2.2 hbefore List.mem_cons_self

theorem names_ofList_perm : (ofList entries).names.Perm (entries.map Prod.fst) := by
  refine (List.perm_ext_iff_of_nodup (nodup_names _) hnames).2 ?_
  intro name
  rw [mem_names_iff, isSome_get?_ofList]

/-- The order of entries under different names has no part in the map. -/
theorem ofList_perm (h : entries.Perm others) : ofList entries = ofList others := by
  have hothers : (others.map Prod.fst).Nodup := (h.map Prod.fst).nodup_iff.1 hnames
  apply ext_get?
  intro name
  by_cases hname : name ∈ entries.map Prod.fst
  · obtain ⟨⟨_, a⟩, hmem, rfl⟩ := List.mem_map.1 hname
    rw [get?_ofList hnames hmem, get?_ofList hothers (h.mem_iff.1 hmem)]
  · have hother : name ∉ others.map Prod.fst := fun hmem => hname ((h.map Prod.fst).mem_iff.2 hmem)
    rw [← isSome_get?_ofList, Option.not_isSome_iff_eq_none] at hname hother
    rw [hname, hother]

theorem bindsOnce_of_nodup : (ofList entries).BindsOnce entries := by
  intro others hperm
  refine ⟨ofList_perm hnames hperm.symm, noneReplaced_of_nodup ?_⟩
  exact (hperm.map Prod.fst).nodup_iff.2 hnames

end Distinct

end QuotePress.NameMap
