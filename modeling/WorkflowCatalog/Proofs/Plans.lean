import WorkflowCatalog.Proofs.Addresses
import WorkflowCatalog.Proofs.Calls
import WorkflowCatalog.Proofs.Manifests

/-!
# What a call has read

If there is anything to be done for a call, then everything it asked for was there: the account, the address of
the repository, and for each kind of call what the remote and its manifests say.
-/
namespace WorkflowCatalog

/-- The repository that a call is about. -/
def Call.repository : Call → String
  | event e => e.repository
  | refresh repository _ => repository
  | refreshVersion repository _ _ _ => repository

theorem Remote.describe_eq_some {r : Remote} {repository reference : String} {v : RemoteVersion}
    (h : r.describe repository reference = .ok (some v)) :
    ∃ vs, r.list repository = .ok vs ∧ vs.find? (fun v => v.name == reference) = some v := by
  unfold describe at h
  cases hl : r.list repository with
  | error e => simp [hl, Except.map] at h
  | ok vs => exact ⟨vs, rfl, by simpa [hl, Except.map] using h⟩

namespace Reconcile

theorem repositoryPath_eq_ok {repository : String} {p : EntryPath} (h : repositoryPath repository = .ok p) :
    EntryPath.ofRepository? repository none = some p := by
  unfold repositoryPath at h
  split at h
  · rename_i q hq
    rw [hq, Except.ok.inj h]
  · simp at h

theorem plain_of_repositoryPath {repository : String} {p : EntryPath} (h : repositoryPath repository = .ok p) :
    p.IsPlain :=
  (EntryPath.ofRepository?_eq_some (repositoryPath_eq_ok h)).1

theorem address_of_repositoryPath {repository : String} {p : EntryPath} (h : repositoryPath repository = .ok p) :
    p.repositoryPath = repository :=
  (EntryPath.ofRepository?_eq_some (repositoryPath_eq_ok h)).2.1

theorem manifestOn_eq_ok {r : Remote} {repository reference text : String} {m : Manifest}
    (h : manifestOn r repository reference = .ok (text, m)) :
    r.text repository reference Manifest.path = .ok (some text) ∧ Manifest.parse text = .ok m := by
  obtain ⟨found, ht, h⟩ := bind_eq_ok.mp h
  cases found with
  | none => simp at h
  | some t =>
    cases hm : Manifest.parse t with
    | error e => simp [hm] at h
    | ok n =>
      simp only [hm] at h
      obtain ⟨rfl, rfl⟩ := Prod.mk.inj (Except.ok.inj h)
      exact ⟨ht, hm⟩

theorem listedOn_eq_ok {r : Remote} {repository reference : String} {v : RemoteVersion}
    (h : listedOn r repository reference = .ok v) :
    ∃ vs, r.list repository = .ok vs ∧ vs.find? (fun v => v.name == reference) = some v := by
  obtain ⟨found, hd, h⟩ := bind_eq_ok.mp h
  cases found with
  | none => simp at h
  | some w =>
    obtain rfl := Except.ok.inj h
    exact Remote.describe_eq_some hd

theorem lookedUp_eq_ok {α : Type} {c : Context} {l : Lookup} {a b : α} (h : lookedUp c l a = .ok b) : b = a := by
  unfold lookedUp at h
  split at h
  · simp at h
  · exact (Except.ok.inj h).symm

theorem Survey.mem_names {s : Survey} {existing : List Entry} {name : Option String} :
    name ∈ s.names existing ↔
      (∃ v ∈ s.sources, v.declaration.name = name) ∨ ∃ e ∈ existing, e.path.name = name := by
  have inj : ∀ {n : Option String} {ns : List (Option String)}, n ∈ ns ↔ n.toList ∈ ns.map Option.toList := by
    intro n ns
    rw [List.mem_map]
    refine ⟨fun h => ⟨n, h, rfl⟩, ?_⟩
    rintro ⟨m, hm, e⟩
    cases m <;> cases n <;> simp_all
  rw [inj, names, Ascending.mem_keys_lastOf, ← inj, List.mem_append, List.mem_map, List.mem_map]

theorem Survey.nodup_names (s : Survey) (existing : List Entry) : (s.names existing).Nodup :=
  List.Pairwise.of_map Option.toList (fun _ _ ne e => ne (congrArg Option.toList e))
    (Ascending.isAscending_lastOf Option.toList _).nodup_keys

/-- What there is to be done for a call, and what was read to find that out. -/
inductive Planned (c : Context) (s : Store) : Call → Agenda → Prop
  | push {e : WebhookEvent} {reference : GitReference} {p : EntryPath} {text : String} {m : Manifest}
      {v : RemoteVersion} (type : e.type = .push) (parsed : GitReference.parse e.gitReference = .ok reference)
      (repository : repositoryPath e.repository = .ok p)
      (manifest : manifestOn c.world.remote e.repository reference.name = .ok (text, m))
      (listed : listedOn c.world.remote e.repository reference.name = .ok v) :
      Planned c s (.event e) (.jobs (pushJobs p text { v with referenceType := reference.type } m.entries))
  | delete {e : WebhookEvent} {reference : GitReference} {p : EntryPath} (type : e.type = .delete)
      (parsed : GitReference.parse e.gitReference = .ok reference) (repository : repositoryPath e.repository = .ok p) :
      Planned c s (.event e) (.deletion reference.name (s.forRepository p))
  | refresh {repository username : String} {p : EntryPath} {vs : List RemoteVersion} {survey : Survey}
      (path : repositoryPath repository = .ok p) (listed : c.world.remote.list repository = .ok vs)
      (surveyed : surveyOf c.world.remote repository vs = .ok survey) :
      Planned c s (.refresh repository username)
        (.jobs (refreshJobs p survey (survey.names (s.forRepository p))))
  | refreshVersion {repository : String} {entry : Option String} {version username : String} {p : EntryPath}
      {v : RemoteVersion} {text : String} {m : Manifest} {d : Declaration}
      (path : repositoryPath repository = .ok p) (listed : listedOn c.world.remote repository version = .ok v)
      (manifest : manifestOn c.world.remote repository version = .ok (text, m)) (declared : m.entry? entry = some d) :
      Planned c s (.refreshVersion repository entry version username)
        (.jobs [⟨{ p with name := entry }, [⟨v, d, text⟩], .ofVersions [v], .push, [version]⟩])

theorem planned {c : Context} {s : Store} {call : Call} {a : Agenda} (h : plan c s call = .ok a) :
    Planned c s call a := by
  cases call with
  | event e =>
    simp only [plan] at h
    cases ht : e.type with
    | push =>
      simp only [ht] at h
      obtain ⟨reference, hr, h⟩ := bind_eq_ok.mp h
      obtain ⟨_, -, h⟩ := bind_eq_ok.mp h
      obtain ⟨p, hp, h⟩ := bind_eq_ok.mp h
      obtain ⟨⟨text, m⟩, hm, h⟩ := bind_eq_ok.mp h
      obtain ⟨v, hv, h⟩ := bind_eq_ok.mp h
      obtain rfl := Except.ok.inj h
      exact .push ht hr hp hm hv
    | delete =>
      simp only [ht] at h
      obtain ⟨reference, hr, h⟩ := bind_eq_ok.mp h
      obtain ⟨_, -, h⟩ := bind_eq_ok.mp h
      obtain ⟨p, hp, h⟩ := bind_eq_ok.mp h
      obtain ⟨entries, he, h⟩ := bind_eq_ok.mp h
      obtain rfl := Except.ok.inj h
      obtain rfl := lookedUp_eq_ok he
      exact .delete ht hr hp
  | refresh repository username =>
    obtain ⟨_, -, h⟩ := bind_eq_ok.mp h
    obtain ⟨p, hp, h⟩ := bind_eq_ok.mp h
    obtain ⟨vs, hl, h⟩ := bind_eq_ok.mp h
    obtain ⟨survey, hs, h⟩ := bind_eq_ok.mp h
    obtain ⟨existing, he, h⟩ := bind_eq_ok.mp h
    obtain rfl := Except.ok.inj h
    obtain rfl := lookedUp_eq_ok he
    exact .refresh hp hl hs
  | refreshVersion repository entry version username =>
    obtain ⟨_, -, h⟩ := bind_eq_ok.mp h
    obtain ⟨p, hp, h⟩ := bind_eq_ok.mp h
    obtain ⟨v, hv, h⟩ := bind_eq_ok.mp h
    obtain ⟨⟨text, m⟩, hm, h⟩ := bind_eq_ok.mp h
    cases hd : m.entry? entry with
    | none => simp [hd] at h
    | some d =>
      simp only [hd] at h
      obtain rfl := Except.ok.inj h
      exact .refreshVersion hp hv hm hd

/-- Every job is for an entry of the repository that the call is about. -/
theorem Planned.path_of_jobs {c : Context} {s : Store} {call : Call} {js : List Job} (h : Planned c s call (.jobs js)) :
    ∃ p, repositoryPath call.repository = .ok p ∧ ∀ j ∈ js, ∃ name, j.path = { p with name := name } := by
  cases h with
  | push _ _ repository _ _ =>
    refine ⟨_, repository, fun j hj => ?_⟩
    obtain ⟨d, -, rfl⟩ := List.mem_map.mp hj
    exact ⟨_, rfl⟩
  | refresh path _ _ =>
    refine ⟨_, path, fun j hj => ?_⟩
    obtain ⟨name, -, rfl⟩ := List.mem_map.mp hj
    exact ⟨_, rfl⟩
  | refreshVersion path _ _ _ =>
    refine ⟨_, path, fun j hj => ?_⟩
    rw [List.mem_singleton.mp hj]
    exact ⟨_, rfl⟩

theorem Planned.plain_jobs {c : Context} {s : Store} {call : Call} {js : List Job} (h : Planned c s call (.jobs js)) :
    ∀ j ∈ js, j.path.IsPlain := by
  obtain ⟨p, repository, paths⟩ := h.path_of_jobs
  intro j hj
  obtain ⟨name, e⟩ := paths j hj
  exact e ▸ (plain_of_repositoryPath repository).withName name

theorem Planned.address_jobs {c : Context} {s : Store} {call : Call} {js : List Job} (h : Planned c s call (.jobs js)) :
    ∀ j ∈ js, j.path.repositoryPath = call.repository := by
  obtain ⟨p, repository, paths⟩ := h.path_of_jobs
  have address := address_of_repositoryPath repository
  intro j hj
  obtain ⟨name, e⟩ := paths j hj
  rw [e]
  exact address

/-- A call compares with complete listings only. -/
theorem Planned.complete_jobs {c : Context} {s : Store} {call : Call} {js : List Job}
    (h : Planned c s call (.jobs js)) : ∀ j ∈ js, j.listing.complete = true := by
  intro j hj
  cases h with
  | push =>
    obtain ⟨d, -, rfl⟩ := List.mem_map.mp hj
    rfl
  | refresh =>
    obtain ⟨name, -, rfl⟩ := List.mem_map.mp hj
    rfl
  | refreshVersion =>
    obtain rfl := List.mem_singleton.mp hj
    rfl

/-- No two jobs of a call are for one entry. -/
theorem Planned.distinct_jobs {c : Context} {s : Store} {call : Call} {js : List Job} (h : Planned c s call (.jobs js)) :
    (js.map Job.path).Nodup := by
  cases h with
  | push _ _ _ manifest _ =>
    have names := (Manifest.wellFormed_of_parse (manifestOn_eq_ok manifest).2).names
    rw [pushJobs, List.map_map]
    refine List.pairwise_map.mpr ((List.pairwise_map.mp names).filter _ |>.imp fun ne e => ne ?_)
    exact congrArg EntryPath.name e
  | refresh _ _ _ =>
    rw [refreshJobs, List.map_map]
    exact List.pairwise_map.mpr ((Survey.nodup_names _ _).imp fun ne e => ne (congrArg EntryPath.name e))
  | refreshVersion _ _ _ _ => simp

end Reconcile

end WorkflowCatalog
