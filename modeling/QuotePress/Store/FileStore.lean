import QuotePress.Store.StoredTemplate

/-! # Custom templates in files

Every tenant has a file of its own in one directory, called after the tenant. -/
namespace QuotePress

structure FileStore where
  directory : Path
  deriving DecidableEq

namespace FileStore

/-- Names of tenants become names of files: ASCII letters, digits, hyphens and underscores. -/
def isTenant (tenant : String) : Bool :=
  !tenant.isEmpty && tenant.toList.all fun c => c.isAlphanum || c = '-' || c = '_'

def file (store : FileStore) (tenant : String) : Except DocumentError Path :=
  if isTenant tenant then .ok (store.directory.join (tenant ++ ".json"))
  else .error (.invalidTenant tenant)

variable {m : Type → Type} [Monad m] [FileSystem m]

/-- Whether a file is there; one that cannot be told of is not. -/
def isThere (path : Path) : m Bool := do
  match ← FileSystem.probe path with
  | .ok there => return there
  | .error _ => return false

def get (store : FileStore) (tenant : String) :
    m (Except DocumentError (Option StoredTemplate)) := do
  match store.file tenant with
  | .error e => return .error e
  | .ok path =>
    if ← isThere path then
      match ← FileSystem.readText path with
      | .error f => return .error (.file f)
      | .ok text =>
        return (DocumentError.liftStored (Json.decode StoredTemplate.decoder text)).map some
    else return .ok none

def put (store : FileStore) (now : Timestamp) (tenant source : String) :
    m (Except DocumentError StoredTemplate) := do
  match store.file tenant with
  | .error e => return .error e
  | .ok path =>
    match ← FileSystem.makeDirectories store.directory with
    | .error f => return .error (.file f)
    | .ok () =>
      let stored : StoredTemplate := ⟨source, now⟩
      let written ← FileSystem.writeText path stored.toJson.pretty
      return (DocumentError.liftFile written).map fun () => stored

def remove (store : FileStore) (tenant : String) : m (Except DocumentError Bool) := do
  match store.file tenant with
  | .error e => return .error e
  | .ok path =>
    if ← isThere path then
      return (DocumentError.liftFile (← FileSystem.removeFile path)).map fun () => true
    else return .ok false

instance : TemplateStore FileStore m where
  get := get
  put store now tenant source := return (← store.put now tenant source, store)
  remove store tenant := return (← store.remove tenant, store)

end FileStore

end QuotePress
