import Mathlib.Data.List.Induction
import QuotePress.Service

/-! # The template of a tenant after any history

Templates are saved, written and removed and settings are replaced in any order. Which template a
tenant has afterwards is read off the history alone: the write that stands, else the last
settings. -/
namespace QuotePress

inductive ServiceChange where
  | save (now : Timestamp) (tenant source : String)
  | configure (settings : Settings)
  | put (now : Timestamp) (tenant source : String)
  | remove (tenant : String)

namespace ServiceChange

def apply (service : Service MemoryStore) : ServiceChange → Service MemoryStore
  | .save now tenant source => (Id.run (service.saveTemplate now tenant source)).2
  | .configure settings => { service with settings := settings }
  | .put now tenant source =>
    { service with store := (Id.run (TemplateStore.put service.store now tenant source)).2 }
  | .remove tenant =>
    { service with store := (Id.run (TemplateStore.remove service.store tenant)).2 }

def run (start : Settings) (history : List ServiceChange) : Service MemoryStore :=
  history.foldl apply ⟨NameMap.empty, start⟩

def tenant? : ServiceChange → Option String
  | .save _ tenant _ | .put _ tenant _ | .remove tenant => some tenant
  | .configure _ => none

def lastSettings (start : Settings) : List ServiceChange → Settings
  | [] => start
  | .configure settings :: rest => lastSettings settings rest
  | _ :: rest => lastSettings start rest

def kept? (service : Service MemoryStore) (tenant : String) : Option String :=
  (service.store.get? tenant).map StoredTemplate.source

def keeps (tenant : String) (kept : Option String) : ServiceChange → Option String
  | .save _ other source =>
    if other = tenant then if Text.isBlank source then none else some source else kept
  | .put _ other source => if other = tenant then some source else kept
  | .remove other => if other = tenant then none else kept
  | .configure _ => kept

theorem apply_save_blank {source : String} (h : Text.isBlank source = true)
    (service : Service MemoryStore) (now : Timestamp) (tenant : String) :
    apply service (.save now tenant source) = apply service (.remove tenant) := by
  simp only [apply, Service.saveTemplate, h, ↓reduceIte]
  rfl

theorem apply_save_text {source : String} (h : Text.isBlank source = false)
    (service : Service MemoryStore) (now : Timestamp) (tenant : String) :
    apply service (.save now tenant source) = apply service (.put now tenant source) := by
  simp only [apply, Service.saveTemplate, h, Bool.false_eq_true, ↓reduceIte]
  rfl

theorem kept?_put (service : Service MemoryStore) (now : Timestamp) (tenant other source : String) :
    kept? (apply service (.put now other source)) tenant =
      if other = tenant then some source else kept? service tenant := by
  change ((service.store.insert other ⟨source, now⟩).get? tenant).map StoredTemplate.source = _
  rw [NameMap.get?_insert]
  by_cases h : other = tenant
  · rw [if_pos h, if_pos h.symm]
    rfl
  · rw [if_neg h, if_neg (Ne.symm h)]
    rfl

theorem kept?_remove (service : Service MemoryStore) (tenant other : String) :
    kept? (apply service (.remove other)) tenant =
      if other = tenant then none else kept? service tenant := by
  change ((service.store.erase other).get? tenant).map StoredTemplate.source = _
  rw [NameMap.get?_erase]
  by_cases h : other = tenant
  · rw [if_pos h, if_pos h.symm]
    rfl
  · rw [if_neg h, if_neg (Ne.symm h)]
    rfl

theorem kept?_apply (service : Service MemoryStore) (change : ServiceChange) (tenant : String) :
    kept? (change.apply service) tenant = change.keeps tenant (kept? service tenant) := by
  cases change with
  | configure settings => rfl
  | put now other source => exact kept?_put service now tenant other source
  | remove other => exact kept?_remove service tenant other
  | save now other source =>
    cases hblank : Text.isBlank source with
    | true => rw [apply_save_blank hblank, kept?_remove, keeps, hblank, if_pos rfl]
    | false =>
      rw [apply_save_text hblank, kept?_put, keeps, hblank, if_neg Bool.false_ne_true]

theorem settings_apply (service : Service MemoryStore) (change : ServiceChange) :
    (change.apply service).settings = lastSettings service.settings [change] := by
  cases change with
  | save now tenant source =>
    cases hblank : Text.isBlank source with
    | false => rw [apply_save_text hblank]; rfl
    | true => rw [apply_save_blank hblank]; rfl
  | configure settings => rfl
  | put now tenant source => rfl
  | remove tenant => rfl

theorem template?_eq_none_iff (choice : Fallback) : choice.template? = none ↔
    choice = .disabled ∨
      ∃ version, choice = .pinned version ∧ version ∉ ShippedTemplate.versions := by
  cases choice with
  | latest => simp [Fallback.template?]
  | disabled => simp [Fallback.template?]
  | pinned version =>
    simp only [Fallback.template?, ShippedTemplate.ofVersion?, List.find?_eq_none,
      decide_eq_true_eq, reduceCtorEq, Fallback.pinned.injEq, exists_eq_left', false_or,
      ShippedTemplate.versions, List.mem_map, not_exists, not_and]

end ServiceChange

end QuotePress
