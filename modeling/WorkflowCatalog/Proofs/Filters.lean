import WorkflowCatalog.Proofs.Mirrors
import WorkflowCatalog.Proofs.Removal

/-!
# Versions that the filters let in

A manifest tells for each entry which branches and tags it takes. A push and a refresh keep to that, and a refresh never
takes away what the filters let in as it is listed. A call that rebuilds one version does not ask the filters, and a push
goes by the kind of reference that the event names, whatever the remote lists; what they store against the filters or
the listing is only there until the next refresh.
-/
namespace WorkflowCatalog

open Sync

/-- Whether a call takes a version only if the filters of the entry let it in. -/
def Call.isFiltered : Call → Bool
  | event _ | refresh _ _ => true
  | refreshVersion _ _ _ _ => false

namespace Remote

/-- The manifest at the version declares the entry of that name. -/
def Declares (r : Remote) (repository n : String) (entry : Option String) (d : Declaration) : Prop :=
  ∃ text m, r.text repository n Manifest.path = .ok (some text) ∧ Manifest.parse text = .ok m ∧ m.entry? entry = some d

/-- A version of that name and kind is listed. -/
def Lists (r : Remote) (repository n : String) (type : ReferenceType) : Prop :=
  ∃ vs, r.list repository = .ok vs ∧ ∃ v ∈ vs, v.name = n ∧ v.referenceType = type

theorem Declares.accepts {r : Remote} {repository : String} {entry : Option String} {d : Declaration}
    {v : RemoteVersion} (h : r.Declares repository v.name entry d)
    (accepted : d.filters.accepts v.referenceType v.name = true) : r.accepts repository entry v = true := by
  obtain ⟨text, m, found, parsed, declared⟩ := h
  obtain ⟨member, name⟩ := (Manifest.entry?_eq_some_iff parsed).mp declared
  simp only [Remote.accepts, found, parsed]
  exact List.any_eq_true.mpr ⟨d, member, by rw [name, accepted, beq_self_eq_true]; rfl⟩

end Remote

namespace Reconcile

variable {c : Context} {s : Store} {call : Call} {js : List Job} {j : Job} {source : VersionSource}

/-- A push and a refresh have sources only for versions that the filters let in. -/
theorem Planned.accepted (h : Planned c s call (.jobs js)) (hj : j ∈ js) (hs : source ∈ j.sources)
    (filtered : call.isFiltered = true) :
    source.declaration.filters.accepts source.remote.referenceType source.remote.name = true := by
  cases h with
  | push =>
    obtain ⟨d, hd, rfl⟩ := List.mem_map.mp hj
    obtain rfl := List.mem_singleton.mp hs
    exact (List.mem_filter.mp hd).2
  | refresh _ _ surveyed =>
    obtain ⟨entry, -, rfl⟩ := List.mem_map.mp hj
    exact (isSource_of_surveyOf surveyed source (List.mem_filter.mp hs).1).accepted
  | refreshVersion => cases filtered

/-- Unless an event says otherwise, a version is taken to be of the kind that is listed. -/
theorem Planned.lists (h : Planned c s call (.jobs js)) (hj : j ∈ js) (hs : source ∈ j.sources) :
    (∃ e, call = .event e) ∨
      c.world.remote.Lists call.repository source.remote.name source.remote.referenceType := by
  cases h with
  | push => exact .inl ⟨_, rfl⟩
  | refresh _ listed surveyed =>
    obtain ⟨entry, -, rfl⟩ := List.mem_map.mp hj
    have member := (isSource_of_surveyOf surveyed source (List.mem_filter.mp hs).1).listed
    exact .inr ⟨_, listed, source.remote, member, rfl, rfl⟩
  | refreshVersion _ listed =>
    obtain rfl := List.mem_singleton.mp hj
    obtain rfl := List.mem_singleton.mp hs
    obtain ⟨vs, list, first⟩ := listedOn_eq_ok listed
    exact .inr ⟨vs, list, _, List.mem_of_find?_eq_some first, rfl, rfl⟩

/-- A refresh leaves a version that is listed as it is stored and let in by the filters. -/
theorem kept_of_accepted (hs : s.WellFormed) {repository : String} {q : EntryPath} {n : String} {v : Version}
    {d : Declaration} (stored : (s.entry? q).bind (fun e => e.version? n) = some v)
    (declares : c.world.remote.Declares repository n q.name d)
    (accepted : d.filters.accepts v.referenceType n = true)
    (lists : c.world.remote.Lists repository n v.referenceType) (username : String) :
    (((run c s (.refresh repository username)).store.entry? q).bind fun e => e.version? n).isSome = true := by
  obtain ⟨e, entry, version⟩ := Option.bind_eq_some_iff.mp stored
  by_contra gone
  rw [Bool.not_eq_true, Option.isSome_eq_false_iff, Option.isNone_iff_eq_none, Option.bind_eq_none_iff] at gone
  obtain ⟨-, -, removable⟩ := removable_of_gone hs entry version gone
  -- A refresh takes away only what is not among the versions that the filters let in.
  cases removable with
  | unlisted listed _ absent =>
    obtain ⟨vs, list, u, member, rfl, type⟩ := lists
    obtain rfl := Except.ok.inj (listed.symm.trans list)
    rw [← type] at accepted
    exact Bool.false_ne_true ((absent u member rfl).2.symm.trans (declares.accepts accepted))

/-- In a catalog that can come about, each version that a call tells of as added or updated is declared for the entry by
the manifest at that version. A push and a refresh store it only if the filters let it in, and all calls but a push store
it as it is listed. If it is let in and listed as it is stored, then no refresh of the same remote takes it away. -/
theorem told_version_declared (h : s.Reachable) (c : Context) (call : Call) {x : SyncResult}
    (hx : x ∈ (run c s call).results) {n : String} (hn : n ∈ x.added ∨ n ∈ x.updated) :
    ∃ (p q : EntryPath) (v : Version) (d : Declaration),
      repositoryPath call.repository = .ok p ∧ q.sameRepository p = true ∧ x.entry = some q.toText ∧
        ((run c s call).store.entry? q).bind (fun e => e.version? n) = some v ∧
        c.world.remote.Declares call.repository n q.name d ∧
        (call.isFiltered = true → d.filters.accepts v.referenceType n = true) ∧
        ((∃ e, call = .event e) ∨ c.world.remote.Lists call.repository n v.referenceType) ∧
        ∀ (later : Context) (username : String), later.world.remote = c.world.remote →
          d.filters.accepts v.referenceType n = true → c.world.remote.Lists call.repository n v.referenceType →
          (((run later (run c s call).store (.refresh call.repository username)).store.entry? q).bind
            fun e => e.version? n).isSome = true := by
  have hs := h.wellFormed
  have after := hs.run c call
  obtain ⟨isNew, hn⟩ : ∃ isNew, n ∈ told isNew x := hn.elim (fun h => ⟨true, h⟩) fun h => ⟨false, h⟩
  obtain ⟨js, planned, j, hj, _, _, _, part, hx⟩ := part_of_told hs hx hn
  obtain ⟨entry, e, f, v, source, files, checks, saved, version, hsource, built, -, -⟩ :=
    part.effect.built (fun e found => (hs.entry?_eq_some_iff.mp found).2)
      (fun e found => (hs.entries.entry? found).distinct) hx hn
  obtain ⟨p, repository, paths⟩ := planned.path_of_jobs
  obtain ⟨name, -, text, m, parsed, declared⟩ := planned.finds hj hsource
  have member := List.mem_of_find?_eq_some hsource
  have type : v.referenceType = source.remote.referenceType := by
    rw [built.eq]
    rfl
  have stored : ((run c s call).store.entry? j.path).bind (fun e => e.version? n) = some v := by
    rw [part.entry?, saved]
    exact version
  have declares : c.world.remote.Declares call.repository n j.path.name source.declaration :=
    ⟨source.manifestText, m, text, parsed, declared⟩
  refine ⟨p, j.path, v, source.declaration, repository, EntryPath.sameRepository_iff.mpr (paths j hj), entry, stored,
    declares, fun filtered => ?_, ?_, fun later username same accepted lists => ?_⟩
  · rw [type, ← name]
    exact planned.accepted hj member filtered
  · rw [type, ← name]
    exact planned.lists hj member
  · rw [← same] at declares lists
    exact kept_of_accepted after stored declares accepted lists username

end Reconcile

namespace Sample

/-- There is a branch, and the manifest takes tags only. -/
def choosy : Context := { context [] with
  world := { (context []).world with
    remote := {
      list := fun _ => .ok [main]
      file := fun repository n path =>
        if path = Manifest.path then .ok (some (manifest ++ "\n  filters:\n    tags:\n    - main").toUTF8)
        else (remote []).file repository n path } } }

def rebuild : Call := .refreshVersion "org/repo" none "main" "alice"

/-- The branch is pushed under the name of a tag. -/
def pushTag : Call := .event ⟨"org/repo", "refs/tags/main", "alice", "1", .push⟩

end Sample

namespace Reconcile

/-- A branch that the filters do not let in is added by a call that rebuilds it, or by a push that takes it for a tag,
and the next refresh takes it away. -/
theorem sample_version_vanishes :
    Sample.choosy.world.remote.accepts "org/repo" none Sample.main = false ∧
      ∀ call ∈ [Sample.rebuild, Sample.pushTag],
        let o := run Sample.choosy Sample.registered.1 call
        let later := run Sample.choosy o.store Sample.refresh
        o.isDone = true ∧ (∃ x ∈ o.results, "main" ∈ x.added) ∧ later.isDone = true ∧
          ∃ x ∈ later.results, "main" ∈ x.removed := by
  decide +kernel

/-- The branch of the small catalog is let in, and stays when it is refreshed again. -/
theorem sample_version_stays :
    let c := Sample.context [Sample.main]
    ∃ x ∈ (run c Sample.registered.1 Sample.refresh).results, "main" ∈ x.added ∧ ∃ q : EntryPath,
      x.entry = some q.toText ∧ ∀ (later : Context) (username : String), later.world.remote = c.world.remote →
        (((run later (run c Sample.registered.1 Sample.refresh).store (.refresh "org/repo" username)).store.entry? q).bind
          fun e => e.version? "main").isSome = true := by
  intro c
  have added : ∃ x ∈ (run c Sample.registered.1 Sample.refresh).results, "main" ∈ x.added := by decide +kernel
  obtain ⟨x, hx, named⟩ := added
  obtain ⟨p, q, v, d, -, -, entry, -, -, accepted, lists, stays⟩ :=
    told_version_declared Sample.registered.2 c Sample.refresh hx (.inl named)
  refine ⟨x, hx, named, q, entry, fun later username same => ?_⟩
  exact stays later username same (accepted rfl) (lists.resolve_left nofun)

end Reconcile

end WorkflowCatalog
