import QuotePress.Proofs.Calendar.Reading
import QuotePress.Proofs.Files.Actions
import QuotePress.Proofs.Json.Records
import QuotePress.Store.FileStore

/-! # What a file store reads

The file of a tenant decides what the store reads for the tenant. A template that was stored is read
back with its source and its point in time. -/
namespace QuotePress

namespace StoredTemplate

theorem decodes_time {levels : Nat} {time : Timestamp} (h : time.Legal) :
    Json.Decodes timeDecoder levels (.string time.text) time := by
  have hread := Timestamp.read_text h
  simp only [Json.Decodes, timeDecoder, Json.Reading.ofJson, Json.Decoder.text, Json.liftFault,
    ok_bind, hread]
  rfl

theorem decode_pretty (t : StoredTemplate) (h : t.updatedAt.Legal) :
    Json.decode decoder t.toJson.pretty = .ok t := by
  have hdecodes : Json.Decodes decoder 127 t.toJson t :=
    Json.Decoder.record_fills "StoredTemplate" (by decide) <|
      .cons rfl <| .cons ((decodes_time h).map_set _ _ _ _) <| .nil _
  exact Json.decode_render hdecodes (by simp [toJson, Json.Legible, Json.LegibleMembers]) _

end StoredTemplate

namespace Reads

theorem isThere (p : Path) : Reads (FileStore.isThere p) := by
  refine (probe p).bind fun answer => ?_
  cases answer with
  | ok there => exact pure there
  | error f => exact pure false

theorem get (store : FileStore) (tenant : String) : Reads (store.get tenant) := by
  rw [FileStore.get]
  cases store.file tenant with
  | error e => exact pure _
  | ok path =>
    refine (isThere path).bind fun there => ?_
    cases there with
    | false => exact pure _
    | true =>
      refine (readText path).bind fun text => ?_
      cases text with
      | error f => exact pure _
      | ok s => exact pure _

end Reads

namespace FileStore

variable {directory : Path} {tenant other : String} {t u : FileTree} {bytes : ByteArray}

def path (directory : Path) (tenant : String) : Path :=
  directory.join (tenant ++ ".json")

theorem file_valid (h : isTenant tenant = true) :
    (⟨directory⟩ : FileStore).file tenant = .ok (path directory tenant) := if_pos h

theorem file_invalid (h : isTenant tenant = false) :
    (⟨directory⟩ : FileStore).file tenant = .error (.invalidTenant tenant) := by
  rw [file, if_neg (by simp [h])]

theorem isName_file (h : isTenant tenant = true) : Path.IsName (tenant ++ ".json") := by
  rw [isTenant, Bool.and_eq_true, List.all_eq_true] at h
  refine Path.isName_append (fun hslash => ?_) (by decide) (by decide)
  exact absurd (h.2 _ hslash) (by decide)

def read (directory : Path) (tenant : String) (t : FileTree) :
    Except DocumentError (Option StoredTemplate) :=
  ((get ⟨directory⟩ tenant : StateM FileTree _) t).1

theorem read_invalid (h : isTenant tenant = false) (t : FileTree) :
    read directory tenant t = .error (.invalidTenant tenant) := by
  rw [read, get, file_invalid h]
  rfl

theorem isThere_run (p : Path) (t : FileTree) : (isThere p : StateM FileTree _) t =
    (match t.probe p with
    | .ok there => there
    | .error _ => false, t) := by
  have hprobe : (FileSystem.probe p : StateM FileTree _) t = (t.probe p, t) := rfl
  rw [isThere, run_bind, hprobe]
  cases t.probe p <;> rfl

theorem read_valid (h : isTenant tenant = true) (t : FileTree) :
    read directory tenant t =
      match t.probe (path directory tenant) with
      | .ok true =>
        match t.readText (path directory tenant) with
        | .error f => .error (.file f)
        | .ok text =>
          (DocumentError.liftStored (Json.decode StoredTemplate.decoder text)).map some
      | _ => .ok none := by
  have htext : (FileSystem.readText (path directory tenant) : StateM FileTree _) t =
      (t.readText (path directory tenant), t) := rfl
  rw [read, get, file_valid h]
  dsimp only
  rw [run_bind, isThere_run]
  cases t.probe (path directory tenant) with
  | error f => rfl
  | ok there =>
    cases there with
    | false => rfl
    | true =>
      dsimp only
      rw [if_pos rfl, run_bind, htext]
      cases t.readText (path directory tenant) <;> rfl

theorem read_fileAt (h : isTenant tenant = true) (hfile : t.FileAt (path directory tenant) bytes) :
    read directory tenant t =
      match String.fromUTF8? bytes with
      | none => .error (.file .notText)
      | some text =>
        (DocumentError.liftStored (Json.decode StoredTemplate.decoder text)).map some := by
  rw [read_valid h, FileTree.probe_fileAt hfile, FileTree.readText_fileAt hfile]
  cases String.fromUTF8? bytes <;> rfl

/-- Without a file nothing is read, unless a directory is in the way. -/
theorem read_none (h : isTenant tenant = true)
    (hnone : ∀ bytes, ¬ t.FileAt (path directory tenant) bytes)
    (hsucceed : ∀ f, read directory tenant t ≠ .error (.file f)) :
    read directory tenant t = .ok none := by
  rw [read_valid h] at hsucceed ⊢
  split
  · rename_i hprobe
    rw [hprobe] at hsucceed
    cases htext : t.readText (path directory tenant) with
    | error f =>
      rw [htext] at hsucceed
      exact absurd rfl (hsucceed f)
    | ok text =>
      obtain ⟨bytes, hfile, -⟩ := FileTree.readText_eq_ok_iff.1 htext
      exact absurd hfile (hnone bytes)
  · rfl

theorem read_absent (h : isTenant tenant = true)
    (habsent : t.probe (path directory tenant) ≠ .ok true) :
    read directory tenant t = .ok none ∧ ∀ bytes, ¬ t.FileAt (path directory tenant) bytes := by
  constructor
  · rw [read_valid h]
    split
    · exact absurd ‹_› habsent
    · rfl
  · intro bytes hfile
    exact habsent (FileTree.probe_fileAt hfile)

theorem read_congr (h : isTenant tenant = true)
    (hfiles : ∀ bytes, u.FileAt (path directory tenant) bytes ↔
      t.FileAt (path directory tenant) bytes)
    (ht : ∀ f, read directory tenant t ≠ .error (.file f))
    (hu : ∀ f, read directory tenant u ≠ .error (.file f)) :
    read directory tenant u = read directory tenant t := by
  by_cases hfile : ∃ bytes, t.FileAt (path directory tenant) bytes
  · obtain ⟨bytes, hfile⟩ := hfile
    rw [read_fileAt h hfile, read_fileAt h ((hfiles bytes).2 hfile)]
  · have hnone (bytes : ByteArray) : ¬ t.FileAt (path directory tenant) bytes :=
      fun h => hfile ⟨bytes, h⟩
    rw [read_none h hnone ht, read_none h (fun bytes h => hnone bytes ((hfiles bytes).1 h)) hu]

end FileStore

end QuotePress
