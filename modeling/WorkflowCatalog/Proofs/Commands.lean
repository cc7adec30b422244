import WorkflowCatalog.Proofs.Disks
import WorkflowCatalog.Proofs.Events
import WorkflowCatalog.Proofs.FailedSaves

/-!
# Commands for events

A command reads files, runs a call on the catalog of one directory, which it writes at each save of the call, and adds
to the events that are kept beside it. So a command for an event leaves every catalog as it was, or as a call with that
event leaves it, of which a save may fail. The type of the event is that of the command where the arguments tell the
event. Where they name a file with the event, the type is the one in the file, whatever the command is called.
-/
namespace WorkflowCatalog

/-! ## What commands read -/

theorem EventType.ofName?_name (t : EventType) : ofName? t.name = some t := by cases t <;> rfl

namespace WebhookEvent

open Json.Record

theorem coding : Json.Coding toJson ofJson? where
  plain e := .object (by simp)
  present _ := nofun
  read e := by
    unfold toJson ofJson?
    refine bind_record rfl (by decide) ?_
    refine bind_required rfl rfl ?_
    refine bind_required rfl rfl ?_
    refine bind_required rfl rfl ?_
    refine bind_required rfl rfl ?_
    exact bind_required rfl (EventType.ofName?_name _) rfl

/-- An event is read back from what is written of it. -/
theorem read?_pretty (e : WebhookEvent) : read? e.toJson.pretty = some e := by
  rw [read?, Json.read?_pretty (coding.plain e)]
  exact coding.read e

end WebhookEvent

namespace CommandLine

namespace Session

open CommandLine.Job

variable (environment : List (String × String)) (now : Timestamp)

/-- A session with the files of a disk. -/
def onDisk : Session (StateM Disk) := ⟨Disk.files, environment, now⟩

variable {environment now}

/-- A text is read where one is found. -/
theorem readText_cases (path failure : String) (d : Disk) :
    (∃ t, d.found path = .text t ∧ Performs ((onDisk environment now).readText path failure) d t d) ∨
    (∀ t, d.found path ≠ .text t) ∧ Fails ((onDisk environment now).readText path failure) d := by
  cases found : d.found path with
  | text t =>
    refine .inl ⟨t, rfl, (performs_found path).bind ?_⟩
    rw [found]
    exact performs_pure t
  | nothing =>
    refine .inr ⟨nofun, (performs_found path).fails ?_⟩
    rw [found]
    exact fails_throw failure
  | unreadable =>
    refine .inr ⟨nofun, (performs_found path).fails ?_⟩
    rw [found]
    exact fails_throw failure

theorem reads_readText (path failure : String) :
    Reads ((onDisk environment now).readText path failure) fun d t => d.found path = .text t := by
  refine reads_of_performs_or_fails fun d => ?_
  rcases readText_cases path failure d with ⟨t, found, performed⟩ | ⟨-, failed⟩
  · exact .inl ⟨t, performed, found⟩
  · exact .inr failed

/-- The catalog of the directory is opened, if it can be. -/
theorem openCatalog_cases (directory : String) (d : Disk) :
    (∃ s file, d.catalog? directory = some s ∧
      Performs ((onDisk environment now).openCatalog directory) d ⟨directory, s, file, none⟩ d) ∨
    d.catalog? directory = none ∧ Fails ((onDisk environment now).openCatalog directory) d := by
  unfold Disk.catalog?
  cases found : d.found (DiskCatalog.filePath directory) with
  | nothing =>
    refine .inl ⟨.empty, none, rfl, (performs_found _).bind ?_⟩
    rw [found]
    exact (performs_pure none).bind (performs_pure _)
  | unreadable =>
    refine .inr ⟨rfl, (performs_found _).fails ?_⟩
    rw [found]
    exact fails_throw _
  | text t =>
    dsimp only
    cases read : Store.read? t with
    | none =>
      refine .inr ⟨rfl, (performs_found _).fails ?_⟩
      rw [found]
      refine (performs_pure (some t)).fails ?_
      unfold DiskCatalog.load
      dsimp only
      rw [read]
      exact fails_throw _
    | some s =>
      refine .inl ⟨s, some t, rfl, (performs_found _).bind ?_⟩
      rw [found]
      refine (performs_pure (some t)).bind ?_
      unfold DiskCatalog.load
      dsimp only
      rw [read]
      exact performs_pure _

theorem reads_openCatalog (directory : String) :
    Reads ((onDisk environment now).openCatalog directory) fun d c =>
      d.catalog? directory = some c.store ∧ c.directory = directory := by
  refine reads_of_performs_or_fails fun d => ?_
  rcases openCatalog_cases directory d with ⟨s, file, opened, performed⟩ | ⟨-, failed⟩
  · exact .inl ⟨_, performed, opened, rfl⟩
  · exact .inr failed

theorem performs_openCatalog {directory : String} {d : Disk} {s : Store} (opened : d.catalog? directory = some s) :
    ∃ file, Performs ((onDisk environment now).openCatalog directory) d ⟨directory, s, file, none⟩ d := by
  rcases openCatalog_cases directory d with ⟨s', file, opened', performed⟩ | ⟨missing, -⟩
  · obtain rfl : s' = s := Option.some.inj (opened'.symm.trans opened)
    exact ⟨file, performed⟩
  · exact nomatch missing.symm.trans opened

theorem reads_openSnapshot (path : Option String) :
    Reads ((onDisk environment now).openSnapshot path) fun _ _ => True := by
  cases path with
  | none => exact reads_pure_any _
  | some path =>
    refine (reads_readText path _).andThen fun t => ?_
    cases Snapshot.read? t with
    | none => exact reads_throw _
    | some snapshot => exact reads_pure_any snapshot

end Session

/-- The event of a command, where it is told or can be read. -/
def EventSource.event? (d : Disk) : EventSource → Option WebhookEvent
  | .arguments e => some e
  | .file path =>
    match d.found path with
    | .text t => WebhookEvent.read? t
    | _ => none

namespace Session

open CommandLine.Job

variable {environment : List (String × String)} {now : Timestamp}

/-- The event is told, or read if it can be. -/
theorem openEvent_cases (source : EventSource) (d : Disk) :
    (∃ e, source.event? d = some e ∧ Performs ((onDisk environment now).openEvent source) d e d) ∨
    source.event? d = none ∧ Fails ((onDisk environment now).openEvent source) d := by
  cases source with
  | arguments e => exact .inl ⟨e, rfl, performs_pure e⟩
  | file path =>
    rcases readText_cases path ("Failed to read " ++ path) d with ⟨t, found, performed⟩ | ⟨none_there, failed⟩
    · rw [EventSource.event?, found]
      dsimp only
      cases told : WebhookEvent.read? t with
      | none =>
        refine .inr ⟨rfl, performed.fails ?_⟩
        rw [told]
        exact fails_throw _
      | some e =>
        refine .inl ⟨e, rfl, performed.bind ?_⟩
        rw [told]
        exact performs_pure e
    · refine .inr ⟨?_, failed.bind⟩
      rw [EventSource.event?]
      cases found : d.found path with
      | text t => exact absurd found (none_there t)
      | nothing => rfl
      | unreadable => rfl

theorem reads_openEvent (source : EventSource) :
    Reads ((onDisk environment now).openEvent source) fun d e => source.event? d = some e := by
  refine reads_of_performs_or_fails fun d => ?_
  rcases openEvent_cases source d with ⟨e, told, performed⟩ | ⟨-, failed⟩
  · exact .inl ⟨e, performed, told⟩
  · exact .inr failed

theorem performs_openEvent {source : EventSource} {d : Disk} {e : WebhookEvent} (told : source.event? d = some e) :
    Performs ((onDisk environment now).openEvent source) d e d := by
  rcases openEvent_cases source d with ⟨e', told', performed⟩ | ⟨missing, -⟩
  · obtain rfl : e' = e := Option.some.inj (told'.symm.trans told)
    exact performed
  · exact nomatch missing.symm.trans told

theorem reads_settingsText? (path : String) :
    Reads ((onDisk environment now).settingsText? path) fun _ _ => True := by
  have other : Reads (do
      match ← await (Disk.files.read (path ++ ".toml")) with
      | .text t => return some t
      | _ => return none) fun _ (_ : Option String) => True := by
    refine (reads_found _).andThen fun f => ?_
    cases f <;> exact reads_pure_any _
  refine (reads_found path).andThen fun f => ?_
  cases f with
  | nothing => exact other
  | unreadable => exact other
  | text t =>
    dsimp only
    split
    · exact reads_pure_any _
    · exact reads_throw _

theorem reads_settings (i : Invocation) : Reads ((onDisk environment now).settings i) fun _ _ => True := by
  unfold settings
  dsimp only
  split
  · refine (reads_settingsText? _).andThen fun found => ?_
    cases found with
    | none => exact reads_throw _
    | some t =>
      refine (reads_pure (some t)).andThen fun text => ?_
      split
      · exact reads_pure_any _
      · exact reads_throw _
  · refine (reads_settingsText? _).andThen fun text => ?_
    split
    · exact reads_pure_any _
    · exact reads_throw _
  · refine (reads_pure none).andThen fun text => ?_
    split
    · exact reads_pure_any _
    · exact reads_throw _

end Session

/-! ## What commands write -/

namespace Session

open CommandLine.Job

variable {environment : List (String × String)} {now : Timestamp}

theorem performs_replaceFile {c : DiskCatalog} {d : Disk} {t : String} (written : c.file = some t) :
    Performs ((onDisk environment now).replaceFile c) d () (d.write (DiskCatalog.filePath c.directory) (.text t)) := by
  unfold replaceFile
  rw [written]
  exact fun _ => rfl

/-- The entries that are saved, up to one that cannot be. -/
def savedOf (failing : Option (Nat × SyncError)) (es : List Entry) : List Entry :=
  match failing with
  | none => es
  | some (made, _) => es.take made

theorem savedOf_map_cons (failing : Option (Nat × SyncError)) (e : Entry) (es : List Entry) :
    savedOf (failing.map fun (made, err) => (made + 1, err)) (e :: es) = e :: savedOf failing es := by
  cases failing <;> rfl

variable (environment now) in
/-- The catalog of a directory becomes what it was with the entries that are saved. -/
theorem performs_saveEntries (c : DiskCatalog) (es : List Entry) {d : Disk}
    (opened : d.catalog? c.directory = some c.store) :
    ∃ failing e, Performs ((onDisk environment now).saveEntries c es) d failing e ∧
      Disk.Becomes c.directory ((savedOf failing es).foldl Store.save c.store) d e ∧
      (d.Takes c.directory → failing = none) := by
  induction es generalizing c d with
  | nil => exact ⟨none, d, performs_pure none, .refl opened, fun _ => rfl⟩
  | cons e es ih =>
    cases fault : d.fault c.directory with
    | some f =>
      obtain ⟨left, failed⟩ := c.saveEntry_fault e f
      refine ⟨some (0, .catalog (DiskCatalog.faultMessage c.directory f)), d, (performs_fault c.directory).bind ?_,
        .refl opened, fun takes => ?_⟩
      · rw [fault, failed]
        exact performs_pure _
      · exact nomatch fault.symm.trans (takes d.writes)
    | none =>
      let saved : DiskCatalog := { c with store := c.store.save e, file := some (c.store.save e).write, staged := none }
      have written := Disk.becomes_write d c.directory (c.store.save e)
      obtain ⟨failing, d', others, becomes, none_fails⟩ := ih saved written.here
      refine ⟨failing.map fun (made, err) => (made + 1, err), d', (performs_fault c.directory).bind ?_, ?_,
        fun takes => ?_⟩
      · rw [fault, c.saveEntry_none e]
        exact (performs_replaceFile (c := saved) rfl).bind (others.bind (performs_pure _))
      · rw [savedOf_map_cons]
        exact written.trans becomes
      · rw [none_fails takes]
        rfl

variable (environment now) in
/-- A call leaves the catalog of its directory as it is found to leave it, with saves that fail where they do. -/
theorem performs_runCall {c : Context} (quiet : c.IsQuiet) (catalog : DiskCatalog) (call : Call) {d : Disk}
    (opened : d.catalog? catalog.directory = some catalog.store) :
    ∃ c' e, Performs ((onDisk environment now).runCall catalog c call) d (Reconcile.run c' catalog.store call) e ∧
      Disk.Becomes catalog.directory (Reconcile.run c' catalog.store call).store d e ∧
      (d.Takes catalog.directory → c' = c) := by
  obtain ⟨failing, e, saves, becomes, none_fails⟩ :=
    performs_saveEntries environment now catalog (Reconcile.run c catalog.store call).log.saves opened
  cases failing with
  | none =>
    refine ⟨c, e, saves.bind (performs_pure _), ?_, fun _ => rfl⟩
    rw [Reconcile.store_run]
    exact becomes
  | some failing =>
    obtain ⟨made, err⟩ := failing
    refine ⟨c.failingAfter made err, e, saves.bind (performs_pure _), ?_, fun takes => nomatch none_fails takes⟩
    rw [Reconcile.store_run, Reconcile.saves_failingAfter quiet made err]
    exact becomes

theorem changes_append (beside : String) (results : List SyncResult) :
    Changes (results.forM fun r =>
        await (Disk.files.append (EventLog.filePath beside) (EventLog.line ⟨now, r⟩))) Disk.SameCatalogs := by
  induction results with
  | nil => exact (reads_pure ()).changes Disk.SameCatalogs.refl
  | cons r results ih =>
    exact Changes.bind (fun _ d => Disk.sameCatalogs_append d beside _) Disk.SameCatalogs.trans fun _ => ih

theorem changes_record (beside : String) (o : Outcome) :
    Changes ((onDisk environment now).record beside o) Disk.SameCatalogs := by
  refine (reads_fault beside).then Disk.SameCatalogs.refl fun fault => ?_
  refine Changes.imp (R := Disk.SameCatalogs) ?_ fun _ _ same _ => same
  split
  · exact changes_append beside o.recorded
  · exact (reads_pure ()).changes Disk.SameCatalogs.refl

theorem reads_report (o : Outcome) : Reads (report (m := StateM Disk) o) fun _ _ => True := by
  refine (reads_print _).andThen fun _ => ?_
  split
  · cases o.failure? <;> exact reads_throw _
  · exact reads_pure_any _

/-- What is done once a call has ended. -/
theorem changes_closing (beside : String) (o : Outcome) :
    Changes ((onDisk environment now).record beside o >>= fun _ => report o) Disk.SameCatalogs :=
  (changes_record beside o).bind Disk.SameCatalogs.trans fun _ => (reads_report o).changes Disk.SameCatalogs.refl

theorem isQuiet_context (snapshot : Snapshot) (options : Options) (languages : List Language) (now : Timestamp) :
    Context.IsQuiet ⟨world snapshot, options, languages, now⟩ := ⟨fun _ => rfl, fun _ => rfl⟩

end Session

/-- Each catalog is as it was, or as the call leaves it. -/
def Disk.Follows (call : Call) (d e : Disk) : Prop :=
  ∀ directory, e.catalog? directory = d.catalog? directory ∨
    ∃ s c, d.catalog? directory = some s ∧ e.catalog? directory = some (Reconcile.run c s call).store

theorem Disk.Follows.refl (call : Call) (d : Disk) : d.Follows call d := fun _ => .inl rfl

namespace Session

open CommandLine.Job

variable {environment : List (String × String)} {now : Timestamp}

theorem changes_reconcile (settings : Settings) (snapshotPath : Option String) (call : Call) :
    Changes ((onDisk environment now).reconcile settings snapshotPath call) (Disk.Follows call) := by
  refine (reads_openSnapshot snapshotPath).then (.refl call) fun snapshot => ?_
  refine (reads_openCatalog settings.dataDirectory).then (fun d _ => .refl call d) fun catalog => ?_
  intro lines d opened _
  have here : d.catalog? catalog.directory = some catalog.store := opened.2 ▸ opened.1
  obtain ⟨c, e, ran, becomes, -⟩ := performs_runCall environment now
    (isQuiet_context snapshot settings.options Language.all now) catalog call here
  refine (?_ : Leaves _ d (d.Follows call)) lines
  refine ran.leaves ((changes_closing settings.dataDirectory _).leaves fun f same directory => ?_)
  by_cases at_directory : directory = catalog.directory
  · subst at_directory
    exact .inr ⟨catalog.store, c, here, (becomes.append same).here⟩
  · exact .inl ((becomes.append same).elsewhere directory at_directory)

end Session

/-- Each catalog is as it was, or as a call with the event leaves it. -/
def Disk.Undergoes (source : EventSource) (d e : Disk) : Prop :=
  ∀ directory, e.catalog? directory = d.catalog? directory ∨
    ∃ event s c, source.event? d = some event ∧ d.catalog? directory = some s ∧
      e.catalog? directory = some (Reconcile.run c s (.event event)).store

namespace Session

open CommandLine.Job

variable {environment : List (String × String)} {now : Timestamp}

theorem changes_event (settings : Settings) (source : EventSource) (snapshot : Option String) :
    Changes ((onDisk environment now).command settings (.event source snapshot)) (Disk.Undergoes source) := by
  refine (reads_openEvent source).then (fun _ _ => .inl rfl) fun event => ?_
  refine (changes_reconcile settings snapshot (.event event)).imp fun d e changed told directory => ?_
  exact (changed directory).imp_right fun ⟨s, c, opened, saved⟩ => ⟨event, s, c, told, opened, saved⟩

/-- A run of a command for an event. -/
theorem undergoes_run {i : Invocation} {source : EventSource} {snapshot : Option String}
    (command : i.command = .event source snapshot) (d : Disk) :
    d.Undergoes source ((CommandLine.run (onDisk environment now) i).run d).2 := by
  have changes : Changes ((onDisk environment now).settings i >>= fun settings =>
      (onDisk environment now).command settings (.event source snapshot)) (Disk.Undergoes source) :=
    (reads_settings i).then (fun _ _ => .inl rfl) fun settings =>
      (changes_event settings source snapshot).imp fun _ _ h _ => h
  rw [← command] at changes
  exact changes [] d

end Session

/-! ## What a command for an event does

Where the event and the catalog can be read and saves succeed, the catalog is what the call leaves of it.
-/

namespace Session

open CommandLine.Job

variable {environment : List (String × String)} {now : Timestamp} {d : Disk} {s : Store}

/-- Where nothing but the command line tells of any settings. -/
theorem performs_settings (dataDirectory : Option String) (command : Command) :
    Performs ((onDisk [] now).settings ⟨none, dataDirectory, command⟩) d
      (.initial (dataDirectory.getD ".workflow-sync")) d := by
  have unnamed : (onDisk [] now).defaultDataDirectory = ".workflow-sync" := rfl
  have initial : Settings.load ".workflow-sync" none [] = .ok (.initial ".workflow-sync") := by rfl
  refine (performs_pure none).bind ?_
  rw [unnamed]
  dsimp only [onDisk]
  rw [initial]
  exact performs_pure _

theorem leaves_reconcile {settings : Settings} {call : Call} {c : Context}
    (context : c = ⟨world .empty, settings.options, Language.all, now⟩)
    (opened : d.catalog? settings.dataDirectory = some s) (takes : d.Takes settings.dataDirectory) :
    Leaves ((onDisk environment now).reconcile settings none call) d
      fun e => e.catalog? settings.dataDirectory = some (Reconcile.run c s call).store := by
  subst context
  obtain ⟨file, opens⟩ : ∃ file, Performs ((onDisk environment now).openCatalog settings.dataDirectory) d
      ⟨settings.dataDirectory, s, file, none⟩ d := performs_openCatalog opened
  obtain ⟨c, e, ran, becomes, same⟩ := performs_runCall environment now
    (isQuiet_context .empty settings.options Language.all now) ⟨settings.dataDirectory, s, file, none⟩ call opened
  obtain rfl := same takes
  refine (performs_pure Snapshot.empty).leaves (opens.leaves (ran.leaves ?_))
  exact (changes_closing settings.dataDirectory _).leaves fun f same => (becomes.append same).here

end Session

/-- The files after a run. Arguments that cannot be read change nothing. -/
def Disk.after (d : Disk) (environment : List (String × String)) (now : Timestamp) (args : List String) : Disk :=
  match Invocation.ofArguments environment args with
  | .error _ => d
  | .ok i => ((run (Session.onDisk environment now) i).run d).2

/-- The catalog after a run without a snapshot. -/
theorem catalog?_after {now : Timestamp} {args : List String} {d : Disk} {dataDirectory : Option String}
    {source : EventSource} {e : WebhookEvent} {directory : String} {s : Store} {c : Context}
    (made : Invocation.ofArguments [] args = .ok ⟨none, dataDirectory, .event source none⟩)
    (told : source.event? d = some e) (named : dataDirectory.getD ".workflow-sync" = directory)
    (opened : d.catalog? directory = some s) (takes : d.Takes directory)
    (context : c = ⟨Session.world .empty, .initial, Language.all, now⟩) :
    (d.after [] now args).catalog? directory = some (Reconcile.run c s (.event e)).store := by
  subst named
  have leaves : Job.Leaves ((Session.onDisk [] now).settings ⟨none, dataDirectory, .event source none⟩ >>=
      fun settings => (Session.onDisk [] now).command settings (.event source none)) d
      fun f => f.catalog? _ = some (Reconcile.run c s (.event e)).store :=
    (Session.performs_settings dataDirectory _).leaves <| (Session.performs_openEvent told).leaves <|
      Session.leaves_reconcile context opened takes
  rw [Disk.after, made]
  exact leaves []

/-- The event that is in a file, where the arguments name one. -/
def Disk.storedEvent? (d : Disk) (environment : List (String × String)) (args : List String) : Option WebhookEvent :=
  match Invocation.ofArguments environment args with
  | .ok ⟨_, _, .event (.file path) _⟩ => EventSource.event? d (.file path)
  | _ => none

/-- The command that the arguments are for. -/
def subcommand? (args : List String) : Option String :=
  match read topLevel .empty .free args with
  | .ok (_, some (name, _)) => some name
  | _ => none

/-- The command for events of a type. -/
def eventCommand : EventType → String
  | .push => "push"
  | .delete => "delete"

/-- An event that is told by the arguments is of the type that the command stands for. -/
theorem exists_source_of_eventOf? {type : EventType} {g : Given} {c : Command} (h : eventOf? type g = some c) :
    ∃ source snapshot, c = .event source snapshot ∧ ∀ e, source = .arguments e → e.type = type := by
  unfold eventOf? at h
  split at h
  · obtain rfl := Option.some.inj h
    exact ⟨_, _, rfl, nofun⟩
  · obtain rfl := Option.some.inj h
    refine ⟨_, _, rfl, ?_⟩
    rintro _ ⟨rfl⟩
    rfl
  · exact nomatch h

theorem exists_source {type : EventType} {environment : List (String × String)} {args : List String} {i : Invocation}
    (invoked : subcommand? args = some (eventCommand type)) (made : Invocation.ofArguments environment args = .ok i) :
    ∃ source snapshot, i.command = .event source snapshot ∧ ∀ e, source = .arguments e → e.type = type := by
  obtain ⟨⟨g, next⟩, outer, made⟩ := bind_eq_ok.mp made
  unfold subcommand? at invoked
  rw [outer] at invoked
  cases next with
  | none => exact nomatch invoked
  | some next =>
    obtain ⟨name, rest⟩ := next
    obtain rfl : name = eventCommand type := Option.some.inj invoked
    obtain ⟨p, inner, made⟩ := bind_eq_ok.mp made
    have command : i.command = p.command := by
      dsimp only at made
      split at made
      · exact nomatch made
      · rw [← Except.ok.inj made]
    have leaf : readLeaf (eventLevel (eventCommand type)) rest (eventOf? type) = .ok p := by
      cases type <;> exact inner
    obtain ⟨⟨given, _⟩, -, leaf⟩ := bind_eq_ok.mp leaf
    dsimp only at leaf
    cases event : eventOf? type given with
    | none => rw [event] at leaf; exact nomatch leaf
    | some c =>
      rw [event] at leaf
      obtain rfl := Except.ok.inj leaf
      rw [command]
      exact exists_source_of_eventOf? event

/-- If the event that is in a file, where one is named, is of the type that the command stands for, then a run of the
command for pushes takes no version from any entry of a catalog, so long as entries have the identifiers of their
addresses, and a run of the command for deletions adds no entry and no version to a catalog, and changes none. -/
theorem event_commands_respect_type {type : EventType} {environment : List (String × String)} {now : Timestamp}
    {args : List String} {d : Disk} (invoked : subcommand? args = some (eventCommand type))
    (same : ∀ e, d.storedEvent? environment args = some e → e.type = type) {directory : String} {s : Store}
    (opened : d.catalog? directory = some s) :
    ∃ t, (d.after environment now args).catalog? directory = some t ∧
      (type = .push → s.All Entry.IsAddressed → t.All Entry.IsAddressed ∧ s.Keeps t) ∧
      (type = .delete → s.Covers t) := by
  unfold Disk.after
  cases made : Invocation.ofArguments environment args with
  | error _ => exact ⟨s, opened, fun _ hs => ⟨hs, .refl s⟩, fun _ => .refl s⟩
  | ok i =>
    obtain ⟨source, snapshot, command, told⟩ := exists_source invoked made
    dsimp only
    rcases Session.undergoes_run command d directory with unchanged | ⟨e, s', c, event, opened', saved⟩
    · exact ⟨s, unchanged.trans opened, fun _ hs => ⟨hs, .refl s⟩, fun _ => .refl s⟩
    · obtain rfl : s' = s := Option.some.inj (opened'.symm.trans opened)
      have right : e.type = type := by
        cases source with
        | arguments given => exact told e (congrArg _ (Option.some.inj event))
        | file path =>
          refine same e ?_
          obtain ⟨_, _, _⟩ := i
          obtain rfl := command
          rw [Disk.storedEvent?, made]
          exact event
      refine ⟨_, saved, ?_, ?_⟩
      · rintro rfl hs
        exact ⟨hs.saves (Entry.invariant_isAddressed.run hs _), Reconcile.keeps_push hs c right⟩
      · rintro rfl
        exact Reconcile.covers_delete c s' right

end CommandLine

namespace Sample

def branchEvent (type : EventType) : WebhookEvent := ⟨"org/repo", "refs/heads/main", "alice", "0", type⟩

/-- A catalog with a version of the branch, and a file with an event of a type. -/
def eventDisk (type : EventType) : CommandLine.Disk where
  found path :=
    if path = DiskCatalog.filePath "data" then .text refreshed.1.write
    else if path = "event.json" then .text (branchEvent type).toJson.pretty
    else .nothing
  faults _ _ := none

/-- The arguments for a command with that file. -/
def eventArguments (type : EventType) : List String :=
  ["--data-dir", "data", CommandLine.eventCommand type, "--event-file", "event.json"]

theorem ofArguments_eventArguments (type : EventType) : CommandLine.Invocation.ofArguments [] (eventArguments type) =
    .ok ⟨none, some "data", .event (.file "event.json") none⟩ := by cases type <;> rfl

theorem subcommand?_eventArguments (type : EventType) :
    CommandLine.subcommand? (eventArguments type) = some (CommandLine.eventCommand type) := by cases type <;> rfl

theorem catalog?_eventDisk (type : EventType) : (eventDisk type).catalog? "data" = some refreshed.1 := by
  unfold CommandLine.Disk.catalog? eventDisk
  dsimp only
  rw [if_pos rfl]
  exact Store.read?_write _

theorem event?_eventDisk (type : EventType) :
    CommandLine.EventSource.event? (eventDisk type) (.file "event.json") = some (branchEvent type) := by
  have other : "event.json" ≠ DiskCatalog.filePath "data" := by decide +kernel
  unfold CommandLine.EventSource.event? eventDisk
  dsimp only
  rw [if_neg other, if_pos rfl]
  exact WebhookEvent.read?_pretty _

theorem storedEvent?_eventDisk (stored type : EventType) :
    (eventDisk stored).storedEvent? [] (eventArguments type) = some (branchEvent stored) := by
  rw [CommandLine.Disk.storedEvent?, ofArguments_eventArguments]
  exact event?_eventDisk stored

end Sample

namespace CommandLine

/-- Each of the two commands, with a file that holds an event of its type. -/
theorem sample_event_commands :
    (∃ t, ((Sample.eventDisk .push).after [] Sample.now (Sample.eventArguments .push)).catalog? "data" = some t ∧
      Sample.refreshed.1.Keeps t) ∧
      ∃ t, ((Sample.eventDisk .delete).after [] Sample.now (Sample.eventArguments .delete)).catalog? "data" = some t ∧
        Sample.refreshed.1.Covers t := by
  have same (type : EventType) (e : WebhookEvent)
      (stored : (Sample.eventDisk type).storedEvent? [] (Sample.eventArguments type) = some e) : e.type = type := by
    rw [Sample.storedEvent?_eventDisk] at stored
    obtain rfl := Option.some.inj stored
    rfl
  have addressed : Sample.refreshed.1.All Entry.IsAddressed := fun e he =>
    (Sample.refreshed.2.wellFormed.entries e he).isAddressed
  obtain ⟨s, pushed, keeps, -⟩ := event_commands_respect_type (Sample.subcommand?_eventArguments .push) (same .push)
    (Sample.catalog?_eventDisk .push)
  obtain ⟨t, deleted, -, covers⟩ := event_commands_respect_type (Sample.subcommand?_eventArguments .delete) (same .delete)
    (Sample.catalog?_eventDisk .delete)
  exact ⟨⟨s, pushed, (keeps rfl addressed).2⟩, t, deleted, covers rfl⟩

/-- The command for pushes, with a file that holds a deletion, takes the version of the branch away. -/
theorem push_command_removes :
    subcommand? (Sample.eventArguments .push) = some "push" ∧
      (Sample.eventDisk .delete).catalog? "data" = some Sample.refreshed.1 ∧
      ∃ t, ((Sample.eventDisk .delete).after [] Sample.now (Sample.eventArguments .push)).catalog? "data" = some t ∧
        ¬ Sample.refreshed.1.Keeps t := by
  let c : Context := ⟨Session.world .empty, .initial, Language.all, Sample.now⟩
  let o := Reconcile.run c Sample.refreshed.1 (.event (Sample.branchEvent .delete))
  have none_left : o.store.entries.all (·.versions.isEmpty) = true := by decide +kernel
  have some_version : Sample.refreshed.1.entries.any (fun e => !e.versions.isEmpty) = true := by decide +kernel
  refine ⟨Sample.subcommand?_eventArguments .push, Sample.catalog?_eventDisk .delete, o.store, ?_, fun keeps => ?_⟩
  · exact catalog?_after (Sample.ofArguments_eventArguments .push) (Sample.event?_eventDisk .delete) rfl
      (Sample.catalog?_eventDisk .delete) (fun _ => rfl) rfl
  · obtain ⟨e, he, versions⟩ := List.any_eq_true.mp some_version
    obtain ⟨v, hv⟩ := List.exists_mem_of_ne_nil e.versions (by simpa using versions)
    obtain ⟨f, hf, -, names⟩ := keeps e he
    obtain ⟨w, hw, -⟩ := names v hv
    rw [List.isEmpty_iff.mp (List.all_eq_true.mp none_left f hf)] at hw
    exact absurd hw List.not_mem_nil

end CommandLine

end WorkflowCatalog
