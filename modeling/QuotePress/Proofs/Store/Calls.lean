import QuotePress.Proofs.Store.Reading

/-! # Calls on stores of templates

The same calls can be made on a store in memory and on the files of a directory. What a call does to
the files of a directory is said in terms of the three operations on files that it needs. -/
namespace QuotePress

inductive StoreCall where
  | get (tenant : String)
  | put (tenant source : String)
  | remove (tenant : String)
  | reopen
  deriving DecidableEq

/-- What a call tells. Points in time are left out. -/
inductive StoreAnswer where
  | found (source : Option String)
  | saved (source : String)
  | removed (existed : Bool)
  | reopened
  deriving DecidableEq

namespace StoreCall

variable {σ : Type} {m : Type → Type} [Monad m] [TemplateStore σ m]

def tenant? : StoreCall → Option String
  | .get tenant | .put tenant _ | .remove tenant => some tenant
  | .reopen => none

def run (anew : σ → σ) (now : Timestamp) (store : σ) :
    StoreCall → m (Except DocumentError StoreAnswer × σ)
  | .get tenant => do
    let result ← TemplateStore.get store tenant
    return (result.map fun stored => .found (stored.map StoredTemplate.source), store)
  | .put tenant source => do
    let (result, store) ← TemplateStore.put store now tenant source
    return (result.map fun stored => .saved stored.source, store)
  | .remove tenant => do
    let (result, store) ← TemplateStore.remove store tenant
    return (result.map .removed, store)
  | .reopen => return (.ok .reopened, anew store)

def runAll (anew : σ → σ) (clock : Nat → Timestamp) :
    List StoreCall → σ → m (List (Except DocumentError StoreAnswer) × σ)
  | [], store => return ([], store)
  | call :: rest, store => do
    let (answer, store) ← run anew (clock 0) store call
    let (answers, store) ← runAll anew (fun n => clock (n + 1)) rest store
    return (answer :: answers, store)

/-- The answer to a call where only some names can be tenants. -/
def confined (call : StoreCall) (answer : Except DocumentError StoreAnswer) :
    Except DocumentError StoreAnswer :=
  match call.tenant? with
  | none => answer
  | some tenant =>
    if FileStore.isTenant tenant then answer else .error (.invalidTenant tenant)

end StoreCall

def MemoryStore.step (now : Timestamp) (call : StoreCall) (memory : MemoryStore) :
    Except DocumentError StoreAnswer × MemoryStore :=
  Id.run (call.run id now memory)

def MemoryStore.steps (clock : Nat → Timestamp) (calls : List StoreCall) (memory : MemoryStore) :
    List (Except DocumentError StoreAnswer) × MemoryStore :=
  Id.run (StoreCall.runAll id clock calls memory)

theorem MemoryStore.steps_cons (clock : Nat → Timestamp) (call : StoreCall)
    (rest : List StoreCall) (memory : MemoryStore) :
    MemoryStore.steps clock (call :: rest) memory =
      let (answer, next) := MemoryStore.step (clock 0) call memory
      let (answers, last) := MemoryStore.steps (fun n => clock (n + 1)) rest next
      (answer :: answers, last) := rfl

namespace FileStore

def step (directory : Path) (now : Timestamp) (call : StoreCall) (t : FileTree) :
    Except DocumentError StoreAnswer × FileTree :=
  let ((answer, _), t) :=
    (call.run (fun _ => ⟨directory⟩) now (⟨directory⟩ : FileStore) : StateM FileTree _) t
  (answer, t)

def steps (directory : Path) (clock : Nat → Timestamp) (calls : List StoreCall) (t : FileTree) :
    List (Except DocumentError StoreAnswer) × FileTree :=
  let ((answers, _), t) := (StoreCall.runAll (fun _ => ⟨directory⟩) clock calls
    (⟨directory⟩ : FileStore) : StateM FileTree _) t
  (answers, t)

variable {directory : Path} {now : Timestamp} {call : StoreCall} {t : FileTree}
  {tenant source : String}

theorem run_store (directory : Path) (now : Timestamp) (call : StoreCall) (t : FileTree) :
    (call.run (fun _ => ⟨directory⟩) now (⟨directory⟩ : FileStore) : StateM FileTree _) t =
      (((step directory now call t).1, ⟨directory⟩), (step directory now call t).2) := by
  cases call <;> rfl

theorem steps_cons (directory : Path) (clock : Nat → Timestamp) (call : StoreCall)
    (rest : List StoreCall) (t : FileTree) :
    steps directory clock (call :: rest) t =
      let (answer, u) := step directory (clock 0) call t
      let (answers, v) := steps directory (fun n => clock (n + 1)) rest u
      (answer :: answers, v) := by
  rw [steps, StoreCall.runAll, run_bind, run_store]
  rfl

theorem step_get (directory : Path) (now : Timestamp) (tenant : String) (t : FileTree) :
    step directory now (.get tenant) t =
      ((read directory tenant t).map fun stored => .found (stored.map StoredTemplate.source), t) :=
  Prod.ext rfl (Reads.get ⟨directory⟩ tenant t)

theorem step_put (directory : Path) (now : Timestamp) (tenant source : String) (t : FileTree) :
    step directory now (.put tenant source) t =
      let (result, left) := ((⟨directory⟩ : FileStore).put now tenant source : StateM FileTree _) t
      (result.map fun stored => .saved stored.source, left) := rfl

theorem step_remove (directory : Path) (now : Timestamp) (tenant : String) (t : FileTree) :
    step directory now (.remove tenant) t =
      let (result, left) := ((⟨directory⟩ : FileStore).remove tenant : StateM FileTree _) t
      (result.map .removed, left) := rfl

theorem step_invalid (hcall : call.tenant? = some tenant) (h : isTenant tenant = false)
    (now : Timestamp) (t : FileTree) :
    step directory now call t = (.error (.invalidTenant tenant), t) := by
  cases call with
  | get name =>
    cases hcall
    rw [step_get, read_invalid h]
    rfl
  | put name source =>
    cases hcall
    rw [step_put, put, file_invalid h]
    rfl
  | remove name =>
    cases hcall
    rw [step_remove, remove, file_invalid h]
    rfl
  | reopen => cases hcall

theorem put_valid (directory : Path) (h : isTenant tenant = true) (now : Timestamp)
    (source : String) : ((⟨directory⟩ : FileStore).put now tenant source : StateM FileTree _) =
      deposit directory (path directory tenant) (StoredTemplate.mk source now).toJson.pretty
        ⟨source, now⟩ := by
  rw [put, file_valid h]
  rfl

/-- Where no file is refused, a template is put by making the directory and writing the file. -/
theorem put_succeeds (h : isTenant tenant = true)
    (hsucceed : ∀ f, (step directory now (.put tenant source) t).1 ≠ .error (.file f)) :
    ∃ made written, t.makeDirectories directory = (.ok (), made) ∧
      made.writeBytes (path directory tenant)
        (StoredTemplate.mk source now).toJson.pretty.toUTF8 = .ok ((), written) ∧
      step directory now (.put tenant source) t = (.ok (.saved source), written) := by
  rw [step_put, put_valid directory h] at hsucceed ⊢
  rcases deposit_run directory (path directory tenant)
      (StoredTemplate.mk source now).toJson.pretty (StoredTemplate.mk source now) t with
    ⟨made, written, hmake, hwrite, hrun⟩ | ⟨f, hrun⟩
  · rw [hrun]
    exact ⟨made, written, hmake, hwrite, rfl⟩
  · rw [hrun] at hsucceed
    exact absurd rfl (hsucceed f)

theorem step_remove_valid (directory : Path) (h : isTenant tenant = true) (now : Timestamp)
    (t : FileTree) :
    step directory now (.remove tenant) t =
      match t.probe (path directory tenant) with
      | .ok true =>
        match t.removeFile (path directory tenant) with
        | .error f => (.error (.file f), t)
        | .ok ((), left) => (.ok (.removed true), left)
      | _ => (.ok (.removed false), t) := by
  rw [step_remove, remove, file_valid h]
  dsimp only
  rw [run_bind, isThere_run]
  cases t.probe (path directory tenant) with
  | error f => rfl
  | ok there =>
    cases there with
    | false => rfl
    | true =>
      have hremove : (FileSystem.removeFile (path directory tenant) : StateM FileTree _) t =
          FileTree.attempt (fun t => t.removeFile (path directory tenant)) t := rfl
      dsimp only
      rw [if_pos rfl, run_bind, hremove, FileTree.attempt]
      cases t.removeFile (path directory tenant) <;> rfl

theorem remove_succeeds (h : isTenant tenant = true)
    (hsucceed : ∀ f, (step directory now (.remove tenant) t).1 ≠ .error (.file f)) :
    (∃ left, t.removeFile (path directory tenant) = .ok ((), left) ∧
      step directory now (.remove tenant) t = (.ok (.removed true), left)) ∨
    ((∀ bytes, ¬ t.FileAt (path directory tenant) bytes) ∧
      step directory now (.remove tenant) t = (.ok (.removed false), t)) := by
  have hstep := step_remove_valid directory h now t
  split at hstep
  · left
    cases hremove : t.removeFile (path directory tenant) with
    | error f =>
      rw [hremove] at hstep
      exact absurd (congrArg Prod.fst hstep) (hsucceed f)
    | ok result =>
      rw [hremove] at hstep
      exact ⟨result.2, rfl, hstep⟩
  · rename_i hprobe
    exact Or.inr ⟨fun bytes hfile => hprobe (FileTree.probe_fileAt hfile), hstep⟩

end FileStore

theorem MemoryStore.get?_step_other {call : StoreCall} {other : String}
    (h : call.tenant? ≠ some other) (later : Timestamp) (memory : MemoryStore) :
    (MemoryStore.step later call memory).2.get? other = memory.get? other := by
  cases call with
  | get tenant => rfl
  | reopen => rfl
  | put tenant source =>
    change (memory.insert tenant ⟨source, later⟩).get? other = _
    rw [NameMap.get?_insert, if_neg fun hsame => h (congrArg some hsame.symm)]
  | remove tenant =>
    change (memory.erase tenant).get? other = _
    rw [NameMap.get?_erase, if_neg fun hsame => h (congrArg some hsame.symm)]

end QuotePress
