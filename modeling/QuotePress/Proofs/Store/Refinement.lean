import QuotePress.Proofs.Store.Calls

/-! # Templates in files are kept as in memory

Call by call, the files of the tenants mirror a store in memory. The directory of the store need not
be there before the first template is put; from then on it is. -/
namespace QuotePress

namespace FileStore

/-- No tenant has a file in a directory once it is made, as far as it can be made. -/
def Vacant (directory : Path) (t : FileTree) : Prop :=
  ∀ tenant, isTenant tenant = true → ∀ bytes,
    ¬ (t.makeDirectories directory).2.FileAt (path directory tenant) bytes

variable {directory : Path} {t u : FileTree} {tenant other : String}

def Holds (directory : Path) (t : FileTree) (tenant : String) : Option String → Prop
  | none => ∀ bytes, ¬ t.FileAt (path directory tenant) bytes
  | some source => ∃ time : Timestamp, time.Legal ∧
    t.FileAt (path directory tenant) (StoredTemplate.mk source time).toJson.pretty.toUTF8

/-- The files of all tenants are as in memory; and the directory is there, or else nothing is kept,
nor will be when the directory is made. -/
structure Mirrors (directory : Path) (t : FileTree) (memory : MemoryStore) : Prop where
  holds : ∀ tenant, isTenant tenant = true →
    Holds directory t tenant ((memory.get? tenant).map StoredTemplate.source)
  ready : t.makeDirectories directory = (.ok (), t) ∨
    Vacant directory t ∧ ∀ tenant, isTenant tenant = true → memory.get? tenant = none

theorem Vacant.not_fileAt (h : Vacant directory t) (htenant : isTenant tenant = true)
    (bytes : ByteArray) : ¬ t.FileAt (path directory tenant) bytes := fun hfile =>
  h tenant htenant bytes (hfile.kept (FileTree.keeps_makeDirectories t directory))

theorem fileAt_other {names : List String} {bytes : ByteArray}
    (hkeeps : FileTree.Keeps (· ≠ names) t.entries u.entries)
    (hnames : t.names (path directory tenant) = .ok names) (htenant : isTenant tenant = true)
    (hother : isTenant other = true) (hne : other ≠ tenant) :
    u.FileAt (path directory other) bytes ↔ t.FileAt (path directory other) bytes := by
  obtain ⟨-, above, habove, rfl⟩ := (FileTree.names_join_iff (isName_file htenant)).1 hnames
  refine hkeeps.fileAt_join_iff habove (isName_file hother) fun hsame => hne ?_
  have hname : other ++ ".json" = tenant ++ ".json" :=
    List.singleton_inj.1 (List.append_cancel_left hsame)
  have htext := congrArg String.toList hname
  rw [String.toList_append, String.toList_append] at htext
  exact String.toList_inj.1 (List.append_cancel_right htext)

theorem Holds.congr (hfiles : ∀ bytes, u.FileAt (path directory tenant) bytes ↔
      t.FileAt (path directory tenant) bytes) {kept : Option String}
    (h : Holds directory t tenant kept) : Holds directory u tenant kept := by
  cases kept with
  | none => exact fun bytes hfile => h bytes ((hfiles bytes).1 hfile)
  | some source =>
    obtain ⟨time, hlegal, hfile⟩ := h
    exact ⟨time, hlegal, (hfiles _).2 hfile⟩

theorem Holds.read {kept : Option String} (h : Holds directory t tenant kept)
    (htenant : isTenant tenant = true)
    (hsucceed : ∀ f, FileStore.read directory tenant t ≠ .error (.file f)) :
    ∃ stored, FileStore.read directory tenant t = .ok stored ∧
      stored.map StoredTemplate.source = kept := by
  cases kept with
  | none => exact ⟨none, read_none htenant h hsucceed, rfl⟩
  | some source =>
    obtain ⟨time, hlegal, hfile⟩ := h
    refine ⟨some ⟨source, time⟩, ?_, rfl⟩
    rw [read_fileAt htenant hfile, FileTree.fromUTF8?_toUTF8]
    dsimp only
    rw [StoredTemplate.decode_pretty ⟨source, time⟩ hlegal]
    rfl

end FileStore

namespace FileStore.Mirrors

variable {directory : Path} {now later : Timestamp} {call : StoreCall} {t u made : FileTree}
  {tenant source : String} {memory : MemoryStore}

/-- A call keeps the mirror if it spares the files of other tenants and leaves in the file of its
own tenant what it leaves in memory. -/
theorem next (h : Mirrors directory t memory)
    (hothers : ∀ other, isTenant other = true → call.tenant? ≠ some other → ∀ bytes,
      u.FileAt (path directory other) bytes ↔ t.FileAt (path directory other) bytes)
    (hown : ∀ tenant, call.tenant? = some tenant → isTenant tenant = true →
      Holds directory u tenant
        (((MemoryStore.step later call memory).2.get? tenant).map StoredTemplate.source))
    (hready : u.makeDirectories directory = (.ok (), u) ∨
      Vacant directory u ∧ ∀ tenant, isTenant tenant = true →
        (MemoryStore.step later call memory).2.get? tenant = none) :
    Mirrors directory u (MemoryStore.step later call memory).2 := by
  refine ⟨fun tenant htenant => ?_, hready⟩
  by_cases hcall : call.tenant? = some tenant
  · exact hown tenant hcall htenant
  · rw [MemoryStore.get?_step_other hcall]
    exact (h.holds tenant htenant).congr (hothers tenant htenant hcall)

/-- Making the directory brings no templates to light. -/
theorem fileAt_made (h : Mirrors directory t memory)
    (hmade : t.makeDirectories directory = (.ok (), made)) (htenant : isTenant tenant = true)
    (bytes : ByteArray) :
    made.FileAt (path directory tenant) bytes ↔ t.FileAt (path directory tenant) bytes := by
  rcases h.ready with hthere | ⟨hvacant, -⟩
  · cases hthere.symm.trans hmade
    exact Iff.rfl
  · have hnone := hvacant tenant htenant bytes
    rw [hmade] at hnone
    exact iff_of_false hnone (hvacant.not_fileAt htenant bytes)

theorem step_put (h : Mirrors directory t memory) (hnow : now.Legal)
    (htenant : isTenant tenant = true)
    (hsucceed : ∀ f, (step directory now (.put tenant source) t).1 ≠ .error (.file f)) :
    (step directory now (.put tenant source) t).1 = .ok (.saved source) ∧
      Mirrors directory (step directory now (.put tenant source) t).2
        (MemoryStore.step later (.put tenant source) memory).2 ∧
      ∀ other, isTenant other = true → StoreCall.tenant? (.put tenant source) ≠ some other →
        ∀ bytes, (step directory now (.put tenant source) t).2.FileAt (path directory other) bytes ↔
          t.FileAt (path directory other) bytes := by
  obtain ⟨made, written, hmade, hwrite, hstep⟩ := put_succeeds htenant hsucceed
  obtain ⟨names, hnames, hkeeps⟩ := FileTree.keeps_writeBytes hwrite
  rw [hstep]
  have hothers : ∀ other, isTenant other = true →
      StoreCall.tenant? (.put tenant source) ≠ some other → ∀ bytes,
        written.FileAt (path directory other) bytes ↔ t.FileAt (path directory other) bytes := by
    intro other hother hcall bytes
    have hne : other ≠ tenant := fun hsame => hcall (congrArg some hsame.symm)
    exact (fileAt_other hkeeps hnames htenant hother hne).trans (h.fileAt_made hmade hother bytes)
  refine ⟨rfl, h.next hothers ?_ (Or.inl (FileTree.makeDirectories_again hmade hkeeps)), hothers⟩
  rintro _ ⟨⟩ -
  have hget : (MemoryStore.step later (.put tenant source) memory).2.get? tenant =
      some ⟨source, later⟩ := by
    change (memory.insert tenant ⟨source, later⟩).get? tenant = _
    rw [NameMap.get?_insert, if_pos rfl]
  rw [hget]
  exact ⟨now, hnow, FileTree.at?_writeBytes hwrite⟩

theorem step_remove (h : Mirrors directory t memory) (htenant : isTenant tenant = true)
    (hsucceed : ∀ f, (step directory now (.remove tenant) t).1 ≠ .error (.file f)) :
    (step directory now (.remove tenant) t).1 = .ok (.removed (memory.contains tenant)) ∧
      Mirrors directory (step directory now (.remove tenant) t).2
        (MemoryStore.step later (.remove tenant) memory).2 ∧
      ∀ other, isTenant other = true → StoreCall.tenant? (.remove tenant) ≠ some other →
        ∀ bytes, (step directory now (.remove tenant) t).2.FileAt (path directory other) bytes ↔
          t.FileAt (path directory other) bytes := by
  have hholds := h.holds tenant htenant
  have hget : (MemoryStore.step later (.remove tenant) memory).2.get? tenant = none := by
    change (memory.erase tenant).get? tenant = _
    rw [NameMap.get?_erase, if_pos rfl]
  rcases remove_succeeds htenant hsucceed with ⟨left, hremove, hstep⟩ | ⟨hnone, hstep⟩
  · obtain ⟨names, hnames, hkeeps⟩ := FileTree.keeps_removeFile hremove
    obtain ⟨bytes, hfile⟩ := FileTree.fileAt_of_removeFile hremove
    rw [hstep]
    have hothers : ∀ other, isTenant other = true →
        StoreCall.tenant? (.remove tenant) ≠ some other → ∀ bytes,
          left.FileAt (path directory other) bytes ↔ t.FileAt (path directory other) bytes := by
      intro other hother hcall bytes
      exact fileAt_other hkeeps hnames htenant hother fun hsame => hcall (congrArg some hsame.symm)
    have hthere : t.makeDirectories directory = (.ok (), t) :=
      h.ready.resolve_right fun hvacant => hvacant.1.not_fileAt htenant bytes hfile
    refine ⟨?_, h.next hothers ?_ (Or.inl (FileTree.makeDirectories_again hthere hkeeps)), hothers⟩
    · cases hkept : memory.get? tenant with
      | none =>
        rw [hkept] at hholds
        exact absurd hfile (hholds bytes)
      | some stored => rw [NameMap.contains, hkept, Option.isSome_some]
    · rintro _ ⟨⟩ -
      rw [hget]
      intro bytes hfile
      cases hfile.symm.trans (FileTree.at?_removeFile hremove)
  · rw [hstep]
    refine ⟨?_, h.next (fun _ _ _ _ => Iff.rfl) ?_ (h.ready.imp_right ?_), fun _ _ _ _ => Iff.rfl⟩
    · cases hkept : memory.get? tenant with
      | none => rw [NameMap.contains, hkept, Option.isSome_none]
      | some stored =>
        rw [hkept] at hholds
        obtain ⟨time, -, hfile⟩ := hholds
        exact absurd hfile (hnone _)
    · rintro _ ⟨⟩ -
      rw [hget]
      exact hnone
    · rintro ⟨hvacant, hempty⟩
      refine ⟨hvacant, fun other hvalid => ?_⟩
      by_cases hsame : other = tenant
      · rw [hsame, hget]
      · have hother : StoreCall.tenant? (.remove tenant) ≠ some other := fun hcall =>
          hsame (Option.some.inj hcall).symm
        rw [MemoryStore.get?_step_other hother]
        exact hempty other hvalid

/-- One call is answered as in memory, keeps the mirror, and spares the files of other tenants. -/
theorem step (h : Mirrors directory t memory) (hnow : now.Legal) (later : Timestamp)
    (call : StoreCall)
    (hsucceed : ∀ f, (FileStore.step directory now call t).1 ≠ .error (.file f)) :
    (FileStore.step directory now call t).1 =
        call.confined (MemoryStore.step later call memory).1 ∧
      Mirrors directory (FileStore.step directory now call t).2
        (MemoryStore.step later call memory).2 ∧
      ∀ other, isTenant other = true → call.tenant? ≠ some other → ∀ bytes,
        (FileStore.step directory now call t).2.FileAt (path directory other) bytes ↔
          t.FileAt (path directory other) bytes := by
  cases hcall : call.tenant? with
  | none =>
    cases call with
    | get tenant | put tenant source | remove tenant => cases hcall
    | reopen => exact ⟨rfl, h, fun _ _ _ _ => Iff.rfl⟩
  | some tenant =>
    cases htenant : isTenant tenant with
    | false =>
      rw [step_invalid hcall htenant, StoreCall.confined, hcall]
      have hget (other : String) (hother : isTenant other = true) :
          (MemoryStore.step later call memory).2.get? other = memory.get? other := by
        refine MemoryStore.get?_step_other (fun hsame => ?_) later memory
        cases hcall.symm.trans hsame
        cases htenant.symm.trans hother
      refine ⟨by simp [htenant], h.next (fun _ _ _ _ => Iff.rfl) ?_ (h.ready.imp_right ?_),
        fun _ _ _ _ => Iff.rfl⟩
      · intro other hother hvalid
        rw [hget other hvalid]
        exact h.holds other hvalid
      · rintro ⟨hvacant, hempty⟩
        exact ⟨hvacant, fun other hother => (hget other hother).trans (hempty other hother)⟩
    | true =>
      have hconfined (answer : Except DocumentError StoreAnswer) :
          call.confined answer = answer := by
        rw [StoreCall.confined, hcall]
        exact if_pos htenant
      rw [hconfined]
      cases call with
      | reopen => cases hcall
      | put name source =>
        cases hcall
        exact h.step_put hnow htenant hsucceed
      | remove name =>
        cases hcall
        exact h.step_remove htenant hsucceed
      | get name =>
        cases hcall
        rw [step_get] at hsucceed ⊢
        have hread : ∀ f, FileStore.read directory tenant t ≠ .error (.file f) := by
          intro f hfault
          rw [hfault] at hsucceed
          exact hsucceed f rfl
        obtain ⟨stored, hstored, hsource⟩ := (h.holds tenant htenant).read htenant hread
        refine ⟨?_, h, fun _ _ _ _ => Iff.rfl⟩
        rw [hstored]
        change Except.ok (StoreAnswer.found (stored.map StoredTemplate.source)) = _
        rw [hsource]
        rfl

end FileStore.Mirrors

namespace FileStore

theorem Vacant.mirrors {directory : Path} {t : FileTree} (h : Vacant directory t) :
    Mirrors directory t NameMap.empty :=
  ⟨fun _ htenant => h.not_fileAt htenant, Or.inr ⟨h, fun _ _ => rfl⟩⟩

/-- In a run from files that mirror a store in memory, all calls are answered as in memory, and each
spares what is read for other tenants. -/
theorem Mirrors.steps {directory : Path} (clock later : Nat → Timestamp)
    {calls : List StoreCall} {t : FileTree} {memory : MemoryStore} (h : Mirrors directory t memory)
    (hclock : ∀ n, (clock n).Legal)
    (hsucceed : ∀ answer ∈ (FileStore.steps directory clock calls t).1, ∀ f,
      answer ≠ .error (.file f)) :
    (FileStore.steps directory clock calls t).1 =
        List.zipWith StoreCall.confined calls (MemoryStore.steps later calls memory).1 ∧
      ∀ before call after other, calls = before ++ call :: after → isTenant other = true →
        call.tenant? ≠ some other → ∀ bytes,
          (FileStore.steps directory clock (before ++ [call]) t).2.FileAt
              (path directory other) bytes ↔
            (FileStore.steps directory clock before t).2.FileAt (path directory other) bytes := by
  induction calls generalizing clock later t memory with
  | nil => exact ⟨rfl, fun before call after other hsplit => by cases before <;> cases hsplit⟩
  | cons call rest ih =>
    rw [steps_cons] at hsucceed
    obtain ⟨hanswer, hnext, hothers⟩ := h.step (hclock 0) (later 0) call
      fun f => hsucceed _ List.mem_cons_self f
    obtain ⟨hanswers, hspared⟩ := ih _ (fun n => later (n + 1)) hnext
      (fun n => hclock (n + 1)) fun answer hmem => hsucceed answer (List.mem_cons_of_mem _ hmem)
    constructor
    · rw [steps_cons, MemoryStore.steps_cons]
      exact congrArg₂ List.cons hanswer hanswers
    · intro before made after other hsplit hother hcall bytes
      cases before with
      | nil =>
        cases hsplit
        rw [List.nil_append, steps_cons]
        exact hothers other hother hcall bytes
      | cons first before =>
        cases hsplit
        rw [List.cons_append, steps_cons, steps_cons]
        exact hspared before made after other rfl hother hcall bytes

/-- If every step back up in the path of a directory is from a directory that is there, then no
template comes to light when the directory is made. -/
theorem vacant_of_resolve {directory : Path} {t : FileTree} {above : List String}
    (hresolve : t.resolve directory.parts [] = .ok above)
    (hnone : ∀ tenant, isTenant tenant = true → ∀ bytes,
      ¬ t.FileAt (path directory tenant) bytes) : Vacant directory t := by
  intro tenant htenant bytes hfile
  have hkeeps := FileTree.keeps_makeDirectories t directory
  exact hnone tenant htenant bytes
    ((hkeeps.fileAt_join_iff hresolve (isName_file htenant) trivial).1 hfile)

/-- Templates in files are kept as in memory. In a run on a directory without templates, with no
file refused, every call for what can be a tenant is answered as by a store in memory, whatever the
points in time; every other call is rejected and changes no file; and a call for one tenant changes
nothing of what is read for another. -/
theorem answers_as_memory (directory : Path) (t : FileTree) (calls : List StoreCall)
    (clock later : Nat → Timestamp) (hvacant : Vacant directory t) (hclock : ∀ n, (clock n).Legal)
    (hsucceed : ∀ answer ∈ (steps directory clock calls t).1, ∀ f, answer ≠ .error (.file f)) :
    (steps directory clock calls t).1 =
        List.zipWith StoreCall.confined calls
          (MemoryStore.steps later calls NameMap.empty).1 ∧
      (∀ call tenant, StoreCall.tenant? call = some tenant → isTenant tenant = false →
        ∀ now u, step directory now call u = (.error (.invalidTenant tenant), u)) ∧
      ∀ before call after other, calls = before ++ call :: after → call.tenant? ≠ some other →
        let earlier := (steps directory clock before t).2
        let now := (steps directory clock (before ++ [call]) t).2
        (∀ f, read directory other earlier ≠ .error (.file f)) →
          (∀ f, read directory other now ≠ .error (.file f)) →
            read directory other now = read directory other earlier := by
  obtain ⟨hanswers, hspared⟩ := hvacant.mirrors.steps clock later hclock hsucceed
  refine ⟨hanswers, fun call tenant hcall htenant now u => step_invalid hcall htenant now u, ?_⟩
  intro before call after other hsplit hcall earlier now hearlier hnow
  cases hother : isTenant other with
  | false => rw [read_invalid hother, read_invalid hother]
  | true =>
    exact read_congr hother (hspared before call after other hsplit hother hcall) hearlier hnow

/-- A run on no files at all, in which what is put for one tenant is read from a store that is
opened anew, and what cannot be a tenant is rejected. -/
theorem answers_as_memory_reopened :
    let calls : List StoreCall := [.put "acme" "a\"\n\x01é", .reopen, .get "acme", .put "../b" "x",
      .remove "acme", .get "acme"]
    (steps ⟨"data/templates"⟩ (fun _ => default) calls FileTree.empty).1 =
        List.zipWith StoreCall.confined calls
          (MemoryStore.steps (fun _ => ⟨Date.epoch, 1, 0⟩) calls NameMap.empty).1 ∧
      (steps ⟨"data/templates"⟩ (fun _ => default) calls FileTree.empty).1 =
        [.ok (.saved "a\"\n\x01é"), .ok .reopened, .ok (.found (some "a\"\n\x01é")),
          .error (.invalidTenant "../b"), .ok (.removed true), .ok (.found none)] := by
  intro calls
  have hrun : (steps ⟨"data/templates"⟩ (fun _ => default) calls FileTree.empty).1 =
      [.ok (.saved "a\"\n\x01é"), .ok .reopened, .ok (.found (some "a\"\n\x01é")),
        .error (.invalidTenant "../b"), .ok (.removed true), .ok (.found none)] := by
    decide +kernel
  have hvacant : Vacant ⟨"data/templates"⟩ FileTree.empty := by
    refine vacant_of_resolve (FileTree.resolve_descending (by decide +kernel) _) ?_
    intro tenant htenant bytes hfile
    obtain ⟨-, names, -, hlookup⟩ := FileTree.fileAt_iff.1 hfile
    cases names with
    | nil => cases hlookup
    | cons name names =>
      obtain ⟨-, entry, hfind, -⟩ := FileTree.lookup_cons_iff.1 hlookup
      cases hfind
  have hlegal : (default : Timestamp).Legal := ⟨by decide, by decide, by decide⟩
  refine ⟨(answers_as_memory _ _ calls _ _ hvacant (fun _ => hlegal) ?_).1, hrun⟩
  rw [hrun]
  simp

end FileStore

end QuotePress
