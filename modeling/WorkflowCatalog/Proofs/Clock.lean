import WorkflowCatalog.Proofs.Imports
import WorkflowCatalog.Proofs.Progress

/-!
# What the clock is for

The time of a call is written on each file that is new to a version, and used for nothing else. So calls at two
times differ in these marks alone: whatever is built, the marks may be put on before or after.
-/
namespace WorkflowCatalog

open Fetch

/-- The file as if it had been created at that time. -/
def SourceFile.stamped (t : Timestamp) (f : SourceFile) : SourceFile := { f with createdAt := t }

/-- The version as if all its files had been created at that time. -/
def Version.stamped (t : Timestamp) (v : Version) : Version :=
  { v with sourceFiles := v.sourceFiles.map (SourceFile.stamped t) }

def Entry.stamped (t : Timestamp) (e : Entry) : Entry := { e with versions := e.versions.map (Version.stamped t) }

def Store.stamped (t : Timestamp) (s : Store) : Store := { s with entries := s.entries.map (Entry.stamped t) }

/-- The same call at another time. -/
def Context.withClock (c : Context) (t : Timestamp) : Context := { c with now := t }

variable {t : Timestamp}

theorem SourceFile.stamped_fetched (now : Timestamp) (type : FileType) (path absolutePath content : String) :
    (fetched now type path absolutePath content).stamped t = fetched t type path absolutePath content := rfl

@[simp] theorem SourceFile.key_stamped (f : SourceFile) : (f.stamped t).key = f.key := rfl

@[simp] theorem Version.name_stamped (v : Version) : (v.stamped t).name = v.name := rfl

@[simp] theorem Entry.version?_stamped (e : Entry) (name : String) :
    (e.stamped t).version? name = (e.version? name).map (Version.stamped t) := by
  simp only [version?, stamped, List.find?_map]
  rfl

/-! ## Following imports -/

theorem Except.map_bind {ε α β γ : Type} (x : Except ε α) (f : α → Except ε β) (g : β → γ) :
    (x >>= f).map g = x >>= fun a => (f a).map g := by
  cases x <;> rfl

theorem Except.bind_map {ε α β γ : Type} (x : Except ε α) (g : α → β) (f : β → Except ε γ) :
    x.map g >>= f = x >>= fun a => f (g a) := by
  cases x <;> rfl

/-- What each step keeps up, a run keeps up. -/
theorem foldlM_map {ε α β : Type} {f g : β → α → Except ε β} {φ : β → β} (h : ∀ b a, g (φ b) a = (f b a).map φ) (b : β)
    (xs : List α) : xs.foldlM g (φ b) = (xs.foldlM f b).map φ := by
  induction xs generalizing b with
  | nil => rfl
  | cons a xs ih =>
    rw [List.foldlM_cons, List.foldlM_cons, h, Except.bind_map, Except.map_bind]
    simp only [ih]

def ResolvedImports.stamped (t : Timestamp) (r : ResolvedImports) : ResolvedImports :=
  { r with files := r.files.map (Prod.map id (SourceFile.stamped t)) }

theorem ResolvedImports.addFile_stamped (r : ResolvedImports) (written : String) (f : SourceFile) :
    (r.stamped t).addFile written (f.stamped t) = (r.addFile written f).stamped t := by
  have taken : (r.stamped t).hasKey written = r.hasKey written := by
    simp only [hasKey, stamped, List.any_map]
    rfl
  have same (g : String × SourceFile) : (Prod.map id (SourceFile.stamped t) g).1 = g.1 := rfl
  unfold addFile
  rw [taken]
  simp only [stamped, Ascending.map_put same]
  rfl

namespace Resolution

variable {extract : String → String → List ImportRef} {fetch : String → Except SyncError (Option String)}
  {now : Timestamp}

def stamped (t : Timestamp) (r : Resolution) : Resolution := { r with resolved := r.resolved.stamped t }

theorem follow_stamped (importer : String) (r : Resolution) (i : ImportRef) :
    follow fetch t importer (r.stamped t) i = (follow fetch now importer r i).map (stamped t) := by
  unfold follow
  split
  · rfl
  · dsimp only
    change (if r.seen.contains _ = true then _ else _) = _
    split
    · rfl
    · cases fetch (destination importer (Path.dropFileScheme i.path)) with
      | error e => rfl
      | ok found =>
        cases found with
        | none => rfl
        | some text =>
          have added := ResolvedImports.addFile_stamped (t := t) r.resolved (Path.dropFileScheme i.path) (.fetched now
            i.type (Path.dropFileScheme i.path) (destination importer (Path.dropFileScheme i.path)) text)
          rw [SourceFile.stamped_fetched] at added
          simp only [bind, Except.bind, pure, Except.pure, Except.map, stamped, added]

theorem levels_stamped (depth : Nat) (r : Resolution) :
    levels extract fetch t depth (r.stamped t) = (levels extract fetch now depth r).map (stamped t) := by
  have file (r : Resolution) (file : String × String) :
      followFile extract fetch t (r.stamped t) file = (followFile extract fetch now r file).map (stamped t) :=
    foldlM_map (follow_stamped file.1) r _
  induction depth generalizing r with
  | zero => rfl
  | succ depth ih =>
    unfold levels
    change (if r.queue.isEmpty = true then _ else _) = _
    split
    · rfl
    · have next := foldlM_map file { r with queue := [] } r.queue
      change r.queue.foldlM (followFile extract fetch t) (stamped t { r with queue := [] }) >>= _ = _
      rw [next, Except.bind_map, Except.map_bind]
      simp only [ih]

end Resolution

theorem resolveImports_clock {extract : String → String → List ImportRef}
    {fetch : String → Except SyncError (Option String)} (now : Timestamp) (depth : Nat) (path content : String) :
    resolveImports extract fetch t depth path content =
      (resolveImports extract fetch now depth path content).map (ResolvedImports.stamped t) := by
  have walked : Resolution.levels extract fetch t depth (.start (Path.normalize path) content) =
      (Resolution.levels extract fetch now depth (.start (Path.normalize path) content)).map (Resolution.stamped t) :=
    Resolution.levels_stamped depth (.start (Path.normalize path) content)
  rw [resolveImports, walked, Except.bind_map, resolveImports, Except.map_bind]
  rfl

/-! ## Collecting files -/

/-- What was collected, as if at that time. -/
def Build.stamped (t : Timestamp) (found : List SourceFile × List Validation) : List SourceFile × List Validation :=
  (found.1.map (SourceFile.stamped t), found.2)

namespace Build

variable (c : Context) (repository reference : String)

theorem manifestFile_withClock (l : Language) (text : String) :
    manifestFile (c.withClock t) l text = (manifestFile c l text).map (SourceFile.stamped t) := by
  unfold manifestFile
  split <;> rfl

theorem answer_descriptorFiles (path : String) (l : Language) (manifestText : String) (checks : List Validation) :
    (descriptorFiles c repository reference path l manifestText checks).answer =
      (primaryText c repository reference path l manifestText).answer >>= fun
        | none => .ok ([], Validation.pass (Validation.fail checks (.descriptor l) (path ++ " not found")) .imports)
        | some text =>
          (resolveImports (l.importsFrom path) (c.world.remote.text repository reference) c.now
            c.options.maxImportDepth path text).map fun resolved =>
              (.fetched c.now l.primaryType path path text :: resolved.files.map Prod.snd,
                judgeImports resolved.missing (judge l path text checks)) := by
  have follows (text : String) : IsSteady (resolveImports (l.importsFrom path) (Fetch.text c repository reference) c.now
      c.options.maxImportDepth path text) := steady_resolveImports (steady_text c repository reference) _ _ _
  unfold descriptorFiles
  rw [answer_bind (steady_primaryText c _ _ _ _ _) fun found => by
    cases found with
    | none => exact steady_pure _
    | some text => exact steady_bind (follows text) fun _ => steady_pure _]
  congr 1
  funext found
  cases found with
  | none => rfl
  | some text =>
    dsimp only
    rw [answer_bind (follows text) fun _ => steady_pure _, answer_resolveImports (steady_text c repository reference)]
    simp only [answer_text]
    rfl

theorem descriptorFiles_withClock (path : String) (l : Language) (manifestText : String) (checks : List Validation) :
    (descriptorFiles (c.withClock t) repository reference path l manifestText checks).answer =
      (descriptorFiles c repository reference path l manifestText checks).answer.map (stamped t) := by
  rw [answer_descriptorFiles, answer_descriptorFiles, Except.map_bind]
  congr 1
  funext found
  cases found with
  | none => rfl
  | some text =>
    dsimp only
    change (resolveImports _ (c.world.remote.text repository reference) t c.options.maxImportDepth path text).map _ = _
    rw [resolveImports_clock c.now]
    cases resolveImports (l.importsFrom path) (c.world.remote.text repository reference) c.now
        c.options.maxImportDepth path text with
    | error e => rfl
    | ok resolved =>
      have files : (resolved.stamped t).files.map Prod.snd = (resolved.files.map Prod.snd).map (SourceFile.stamped t) := by
        simp only [ResolvedImports.stamped, List.map_map]
        rfl
      simp only [Except.map, stamped, files]
      rfl

theorem testFiles_withClock (type : FileType) (paths : List String) (checks : List Validation) :
    (testFiles (c.withClock t) repository reference type paths checks).answer =
      (testFiles c repository reference type paths checks).answer.map (stamped t) := by
  induction paths generalizing checks with
  | nil => rfl
  | cons path paths ih =>
    have steady (d : Context) (checks : List Validation) := steady_testFiles d repository reference type paths checks
    unfold testFiles
    dsimp only
    rw [answer_bind (steady_text (c.withClock t) _ _ _) fun found => by
        cases found with
        | none => exact steady _ _
        | some text => exact steady_bind (steady _ _) fun _ => steady_pure _,
      answer_bind (steady_text c _ _ _) fun found => by
        cases found with
        | none => exact steady _ _
        | some text => exact steady_bind (steady _ _) fun _ => steady_pure _, Except.map_bind]
    congr 1
    funext found
    cases found with
    | none => exact ih _
    | some text =>
      dsimp only
      rw [answer_bind (steady _ _) fun _ => steady_pure _, answer_bind (steady _ _) fun _ => steady_pure _, ih,
        Except.bind_map, Except.map_bind]
      rfl

theorem parameterFiles_withClock (l : Language) (paths : List String) (checks : List Validation) :
    (parameterFiles (c.withClock t) repository reference l paths checks).answer =
      (parameterFiles c repository reference l paths checks).answer.map (stamped t) := by
  unfold parameterFiles
  cases l.testType? with
  | none => rfl
  | some type =>
    dsimp only
    rw [answer_bind (steady_testFiles _ _ _ _ _ _) fun _ => steady_pure _,
      answer_bind (steady_testFiles _ _ _ _ _ _) fun _ => steady_pure _, testFiles_withClock, Except.bind_map,
      Except.map_bind]
    rfl

/-- The files of a version are the same whenever they are collected. -/
theorem collect_withClock (e : Entry) (v : Version) (s : VersionSource) :
    (collect (c.withClock t) e v s).answer = (collect c e v s).answer.map (stamped t) := by
  unfold collect
  change (if c.languages.contains e.language = true then _ else _ : Fetch _).answer = _
  split
  · unfold gather
    dsimp only
    rw [answer_bind (steady_descriptorFiles _ _ _ _ _ _ _) fun _ =>
        steady_bind (steady_parameterFiles _ _ _ _ _ _) fun _ => steady_pure _,
      answer_bind (steady_descriptorFiles _ _ _ _ _ _ _) fun _ =>
        steady_bind (steady_parameterFiles _ _ _ _ _ _) fun _ => steady_pure _,
      descriptorFiles_withClock, Except.bind_map, Except.map_bind]
    congr 1
    funext found
    rw [answer_bind (steady_parameterFiles _ _ _ _ _ _) fun _ => steady_pure _,
      answer_bind (steady_parameterFiles _ _ _ _ _ _) fun _ => steady_pure _, parameterFiles_withClock,
      Except.bind_map, Except.map_bind]
    congr 1
    funext tests
    simp only [answer_pure, Except.map, stamped, manifestFile_withClock, List.map_append]
  · rfl

end Build

/-! ## Building versions -/

theorem SourceFile.refreshed_stamped (f : SourceFile) (a : DigestAlgorithm) (changed : Bool) :
    (f.stamped t).refreshed a changed = (f.refreshed a changed).stamped t := by
  obtain ⟨id, type, path, absolutePath, content, checksums, createdAt⟩ := f
  cases content with
  | none => rfl
  | some text => cases changed <;> rfl

namespace Merge

theorem find?_stamped (k : FileKey) (files : List SourceFile) :
    find? k (files.map (SourceFile.stamped t)) = (find? k files).map (SourceFile.stamped t) := by
  simp only [find?, List.find?_map]
  rfl

theorem joined_stamped (a : DigestAlgorithm) (existing : List SourceFile) (fetched : SourceFile) :
    joined a (existing.map (SourceFile.stamped t)) (fetched.stamped t) = (joined a existing fetched).stamped t := by
  unfold joined
  rw [SourceFile.key_stamped, find?_stamped]
  cases find? fetched.key existing with
  | none => exact SourceFile.refreshed_stamped { fetched with id := fetched.key.fileId } a true
  | some old =>
    exact SourceFile.refreshed_stamped { old with content := fetched.content, path := fetched.path } a
      (decide (old.content ≠ fetched.content))

theorem files_stamped (existing fetched : List SourceFile) (a : DigestAlgorithm) :
    (merge (existing.map (SourceFile.stamped t)) (fetched.map (SourceFile.stamped t)) a).files =
      (merge existing fetched a).files.map (SourceFile.stamped t) := by
  have keys : ∀ f : SourceFile, (f.stamped t).key = f.key := fun _ => rfl
  simp only [merge, ← Ascending.map_lastOf keys, ← Ascending.map_firstOf keys, List.map_map]
  refine List.map_congr_left fun f _ => ?_
  exact joined_stamped a _ f

end Merge

namespace Build

variable (c : Context) (e : Entry) (s : VersionSource)

theorem outline_stamped : outline (e.stamped t) s = (outline e s).stamped t := by
  unfold outline
  rw [Entry.version?_stamped]
  cases e.version? s.remote.name <;> rfl

/-- What comes of a build is the same at any time, but for the marks. -/
theorem version_stamped :
    (version (c.withClock t) (e.stamped t) s).answer = (version c e s).answer.map (Version.stamped t) := by
  unfold version
  dsimp only
  change (if s.declaration.language = e.language then _ else _ : Fetch Version).answer = _
  split
  · unfold revise
    dsimp only
    rw [answer_bind (steady_ofExcept _) fun _ => steady_bind (steady_collect _ _ _ _) fun _ => steady_pure _,
      answer_bind (steady_ofExcept _) fun _ => steady_bind (steady_collect _ _ _ _) fun _ => steady_pure _,
      answer_ofExcept, answer_ofExcept, outline_stamped, Except.map_bind]
    change (outline e s).ensureMutable e.path >>= _ = _
    congr 1
    funext _
    rw [answer_bind (steady_collect _ _ _ _) fun _ => steady_pure _,
      answer_bind (steady_collect _ _ _ _) fun _ => steady_pure _]
    change (collect (c.withClock t) e (outline e s) s).answer >>= _ = _
    rw [collect_withClock, Except.bind_map, Except.map_bind]
    congr 1
    funext found
    have files := Merge.files_stamped (t := t) (outline e s).sourceFiles found.1 c.options.algorithm
    simp only [answer_pure, Except.map]
    congr 1
    exact congrArg (fun files => { (outline e s) with
      sourceFiles := files, validations := Validation.aggregate (outline e s).validations found.2 }) files
  · rfl

end Build

/-! ## Entries and catalogs -/

theorem Entry.stamped_upsert (e : Entry) (v : Version) :
    (e.upsert v).stamped t = (e.stamped t).upsert (v.stamped t) := by
  have names : ∀ v : Version, (v.stamped t).name = v.name := fun _ => rfl
  simp only [upsert, stamped, Keyed.map_upsert names]

theorem Entry.stamped_remove (e : Entry) (name : String) : (e.remove name).stamped t = (e.stamped t).remove name := by
  simp only [remove, stamped, Version.remove, List.eraseP_map]
  rfl

theorem Sync.stamped_withSettings (e : Entry) (sources : List VersionSource) :
    (withSettings e sources).stamped t = withSettings (e.stamped t) sources := by
  cases sources <;> rfl

/-- Whether the settings of an entry change has nothing to do with the marks on its files. -/
theorem Sync.withSettings_stamped_eq_iff (e : Entry) (sources : List VersionSource) :
    withSettings (e.stamped t) sources = e.stamped t ↔ withSettings e sources = e := by
  cases sources with
  | nil => exact iff_of_true rfl rfl
  | cons s _ =>
    cases e
    simp [withSettings, Entry.withSettings, Entry.stamped]

theorem Store.stamped_save (s : Store) (e : Entry) : (s.save e).stamped t = (s.stamped t).save (e.stamped t) := by
  have ids : ∀ e : Entry, (e.stamped t).id = e.id := fun _ => rfl
  simp only [save, stamped, Keyed.map_upsert ids]

theorem Store.entry?_stamped (s : Store) (p : EntryPath) :
    Store.entry? (s.stamped t) p = (s.entry? p).map (Entry.stamped t) := by
  unfold Store.entry? Store.stamped
  rw [List.find?_map]
  rfl

theorem VersionDiff.find?_stamped (name : String) (vs : List Version) :
    find? name (vs.map (Version.stamped t)) = (find? name vs).map (Version.stamped t) := by
  simp only [find?, List.find?_map]
  rfl

open VersionDiff in
/-- A comparison does not look at files. -/
theorem diff_stamped (vs : List Version) (listing : RemoteListing) (mode : DiffMode) (forced : List String) :
    diff (vs.map (Version.stamped t)) listing mode forced = diff vs listing mode forced := by
  have added : isAdded (vs.map (Version.stamped t)) = isAdded vs := by
    funext r
    simp only [isAdded, find?_stamped, Option.isNone_map]
  have updated : isUpdated (vs.map (Version.stamped t)) forced = isUpdated vs forced := by
    funext r
    simp only [isUpdated, find?_stamped]
    cases find? r.name vs <;> rfl
  have kept : isKept (vs.map (Version.stamped t)) forced = isKept vs forced := by
    funext r
    simp only [isKept, find?_stamped]
    cases find? r.name vs <;> rfl
  have frozen : isFrozen (vs.map (Version.stamped t)) = isFrozen vs := by
    funext r
    simp only [isFrozen, find?_stamped]
    cases find? r.name vs <;> rfl
  simp only [diff, added, updated, kept, frozen, List.filter_map, List.map_map]
  rfl

end WorkflowCatalog
