import WorkflowCatalog.Proofs.Remotes

/-!
# Versions next to one that fails

Where a version that cannot be built does not stop a call, it is of no matter for the other versions of the repository
whether its files can be fetched and what is in them: each of the others comes to the same, and the same is told of it.
-/
namespace WorkflowCatalog

open Fetch Sync

/-- Two remotes agree on the listing of a repository, on all of its manifests, and on all of its files but those of one
reference. -/
structure Remote.AgreesBut (r r' : Remote) (repository reference : String) : Prop where
  list : r'.list repository = r.list repository
  manifests : ∀ n, r'.file repository n Manifest.path = r.file repository n Manifest.path
  files : ∀ n, n ≠ reference → ∀ path, r'.file repository n path = r.file repository n path

/-! ## The times of new files -/

/-- The file with another time of creation, unless it was known before. -/
def SourceFile.dated (t : Timestamp) (known : List SourceFile) (f : SourceFile) : SourceFile :=
  if (Merge.find? f.key known).isSome then f else f.stamped t

/-- The version with another time of creation for those of its files that the version before did not have. -/
def Version.dated (t : Timestamp) (old : Option Version) (v : Version) : Version :=
  { v with sourceFiles := v.sourceFiles.map (SourceFile.dated t ((old.map Version.sourceFiles).getD [])) }

namespace Merge

variable {now t : Timestamp}

theorem find?_lastOf_eq_none {k : FileKey} {files : List SourceFile}
    (h : find? k (Ascending.lastOf SourceFile.key files) = none) : find? k files = none := by
  rw [find?, Ascending.find?_lastOf, List.find?_eq_none] at h
  rw [find?, List.find?_eq_none]
  exact fun f hf => h f (List.mem_reverse.mpr hf)

/-- When a file was fetched is of no matter unless it is new. -/
theorem joined_dated (a : DigestAlgorithm) (existing : List SourceFile) (fetched : SourceFile) :
    (joined a (Ascending.lastOf SourceFile.key existing) (fetched.stamped now)).dated t existing =
      (joined a (Ascending.lastOf SourceFile.key existing) fetched).dated t existing := by
  unfold joined
  rw [SourceFile.key_stamped]
  cases h : find? fetched.key (Ascending.lastOf SourceFile.key existing) with
  | some old => rfl
  | none =>
    have stamps : created a (fetched.stamped now) = (created a fetched).stamped now :=
      SourceFile.refreshed_stamped { fetched with id := fetched.key.fileId } a true
    have key : (created a fetched).key = fetched.key := by
      obtain ⟨checksums, e⟩ := SourceFile.refreshed_eq { fetched with id := fetched.key.fileId } a true
      rw [created, e]
      rfl
    rw [stamps, SourceFile.dated, SourceFile.dated, SourceFile.key_stamped, key, find?_lastOf_eq_none h]
    rfl

theorem files_dated (existing fetched : List SourceFile) (a : DigestAlgorithm) :
    (merge existing (fetched.map (SourceFile.stamped now)) a).files.map (SourceFile.dated t existing) =
      (merge existing fetched a).files.map (SourceFile.dated t existing) := by
  have keys : ∀ f : SourceFile, (f.stamped now).key = f.key := fun _ => rfl
  simp only [merge, ← Ascending.map_firstOf keys, List.map_map]
  refine List.map_congr_left fun f _ => ?_
  exact joined_dated a existing f

end Merge

/-- A build at another time comes to the same but for the times of new files. -/
theorem Build.dated_withClock (c : Context) (e : Entry) (s : VersionSource) (now t : Timestamp) :
    (version (c.withClock now) e s).answer.map (Version.dated t (e.version? s.remote.name)) =
      (version c e s).answer.map (Version.dated t (e.version? s.remote.name)) := by
  unfold version
  dsimp only
  split
  · unfold revise
    dsimp only
    rw [answer_bind (steady_ofExcept _) fun _ => steady_bind (steady_collect _ _ _ _) fun _ => steady_pure _,
      answer_bind (steady_ofExcept _) fun _ => steady_bind (steady_collect _ _ _ _) fun _ => steady_pure _,
      answer_ofExcept, Except.map_bind, Except.map_bind]
    congr 1
    funext _
    rw [answer_bind (steady_collect _ _ _ _) fun _ => steady_pure _,
      answer_bind (steady_collect _ _ _ _) fun _ => steady_pure _, collect_withClock, Except.bind_map, Except.map_bind,
      Except.map_bind]
    congr 1
    funext found
    have old : (outline e s).sourceFiles = ((e.version? s.remote.name).map Version.sourceFiles).getD [] := by
      unfold outline
      cases e.version? s.remote.name <;> rfl
    simp only [answer_pure, Except.map, Except.ok.injEq, Version.dated]
    rw [← old]
    exact congrArg (fun files => { (outline e s) with
      sourceFiles := files, validations := Validation.aggregate (outline e s).validations found.2 })
      (Merge.files_dated (outline e s).sourceFiles found.1 c.options.algorithm)
  · rfl

namespace Job

open Reconcile

variable {c : Context} {r : Remote} {repository reference n : String} {now t : Timestamp}

/-- A job comes to the same for a version whose files are the same. -/
theorem alike_of_agree (agree : c.world.remote.AgreesBut r repository reference) (other : n ≠ reference) {j : Job}
    {old : Option Entry} (address : j.path.repositoryPath = repository) (complete : j.listing.complete = true)
    (stored : ∀ e, old = some e → e.path = j.path ∧ e.HasDistinctNames) :
    Alike (fun _ => Version.dated t (old.bind fun e => e.version? n)) n c j ((c.withRemote r).withClock now) j old := by
  refine alike_of_builds complete complete Iff.rfl (fun e found => (stored e found).2) ?_ ?_
  · intro existing d d' compared compared' change _
    rw [Except.ok.inj (compared.symm.trans compared')]
  · intro before isNew d before' isNew' d' begins begins'
    obtain ⟨rfl, -⟩ := Prod.mk.inj (Option.some.inj (begins.start.symm.trans begins'.start))
    rw [map_rebuilt?, map_rebuilt?]
    cases found : j.sources.find? fun u => u.remote.name == n with
    | none => rw [Option.bind_none, Option.bind_none]
    | some u =>
      have named : u.remote.name = n := by simpa using List.find?_some found
      have path : (withSettings before j.sources).path.repositoryPath = repository := by
        rw [(sameCore_withSettings before j.sources).path, begins.path fun e found => (stored e found).1, address]
      have version : (withSettings before j.sources).version? u.remote.name = old.bind fun e => e.version? n := by
        rw [version?_withSettings, named, begins.version? n]
      have files : ∀ path, r.file (withSettings before j.sources).path.repositoryPath u.remote.name path =
          c.world.remote.file (withSettings before j.sources).path.repositoryPath u.remote.name path := by
        rw [path, named]
        exact agree.files n other
      have built := Build.dated_withClock (c.withRemote r) (withSettings before j.sources) u now t
      rw [Build.version_withRemote files, version] at built
      rw [Option.bind_some, Option.bind_some, built]

end Job

namespace Reconcile

/-- Nothing but a version itself suffers from files of it that cannot be fetched, or that hold something else. Every
other version of the repository is the same after a refresh, at whatever time, but for the times of new files, and the
same is told of it. -/
theorem siblings_undisturbed {s : Store} (h : s.Reachable) {c : Context} (quiet : c.IsQuiet)
    (lenient : c.options.isolation = .perVersion) {repository : String} (username : String) {r : Remote}
    {reference : String} (agree : c.world.remote.AgreesBut r repository reference) {n : String} (other : n ≠ reference)
    (now t : Timestamp) :
    Alike (fun q _ => Version.dated t ((s.entry? q).bind fun e => e.version? n)) n
      (run c s (.refresh repository username))
      (run ((c.withRemote r).withClock now) s (.refresh repository username)) := by
  have hs := h.wellFormed
  cases listed : c.world.remote.list repository with
  | error err =>
    have refused {c : Context} (failed : c.world.remote.list repository = .error err) :
        Idle s (run c s (.refresh repository username)) := by
      cases plan : plan c s (.refresh repository username) with
      | error e => exact idle_of_refused plan
      | ok a =>
        obtain ⟨-, _, _, _, -, listed, -⟩ := plan_refresh_eq_ok_iff.mp plan
        exact nomatch failed.symm.trans listed
    exact (refused listed).alike (refused (agree.list.trans listed))
  | ok vs =>
    have texts (v : RemoteVersion) : r.text repository v.name Manifest.path =
        c.world.remote.text repository v.name Manifest.path := Remote.text_congr (agree.manifests v.name)
    have readable : Readable c.world.remote repository vs ↔ Readable r repository vs := by
      unfold Readable
      simp only [texts]
    refine alike_refresh hs quiet ((quiet.withRemote r).withClock now) lenient lenient rfl listed
      (agree.list.trans listed) readable fun p survey survey' path surveyed surveyed' => ?_
    obtain rfl : survey = survey' := by
      have same : surveyOf r repository vs = surveyOf c.world.remote repository vs := surveyOf_congr fun v _ => texts v
      exact Except.ok.inj (surveyed.symm.trans (same.symm.trans surveyed'))
    refine ⟨fun _ _ => Iff.rfl, fun name => ?_⟩
    have address : p.repositoryPath = repository := (EntryPath.ofRepository?_eq_some (repositoryPath_eq_ok path)).2.1
    refine Job.alike_of_agree agree other address rfl fun e found => ?_
    exact ⟨(hs.entry?_eq_some_iff.mp found).2, (hs.entries.entry? found).distinct⟩

/-- The branch comes to the same whether or not the files of the tag can be fetched. -/
theorem sample_sibling_undisturbed :
    let c := Sample.context [Sample.main, ⟨"v1", .tag, "c2", none⟩]
    let r : Remote := { c.world.remote with
      file := fun repository n path =>
        if n = "v1" ∧ path ≠ Manifest.path then .error (.remoteFetch repository n path "timed out")
        else c.world.remote.file repository n path }
    let o := run c Sample.registered.1 Sample.refresh
    let o' := run ((c.withRemote r).withClock Sample.now) Sample.registered.1 Sample.refresh
    o.Tells Sample.path .added "v1" ∧ ¬ o'.Tells Sample.path .added "v1" ∧
      Alike (fun q _ => Version.dated Sample.now ((Sample.registered.val.entry? q).bind fun e => e.version? "main"))
        "main" o o' := by
  intro c r o o'
  have quiet : c.IsQuiet := ⟨fun _ => rfl, fun _ => rfl⟩
  have agree : c.world.remote.AgreesBut r "org/repo" "v1" :=
    ⟨rfl, fun n => if_neg fun failing => failing.2 rfl, fun n other path => if_neg fun failing => other failing.1⟩
  refine ⟨by decide +kernel, by decide +kernel, ?_⟩
  exact siblings_undisturbed Sample.registered.2 quiet rfl "alice" agree (by decide) Sample.now Sample.now

end Reconcile

end WorkflowCatalog
