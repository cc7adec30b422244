import Mathlib.Logic.Hydra
import WorkflowCatalog.Proofs.Reach

/-!
# The worklist of imports

Imports are followed by a loop that takes one file after the other off a queue, and puts the files that it imports at
the end, one import further from the start. The loop ends for every remote, also for one that never runs out of files:
each round takes off one file and puts back only files that are farther from the start, which has a bound. What it ends
with is what is found level by level. Since a path is remembered before it is asked for, no path is asked for twice,
whatever the remote answers, and that of the primary descriptor is not asked for at all.
-/
namespace WorkflowCatalog

/-- Asks for a file of the remote, whose answers may depend on all that was done before. -/
def Fetch.asking (answers : Log → String → Except SyncError (Option String)) (repository reference path : String) :
    Fetch (Option String) := do
  modify (Action.fetch repository reference path :: ·)
  ofExcept (answers (← get) path)

theorem Fetch.run_asking (answers : Log → String → Except SyncError (Option String)) (repository reference path : String)
    (log : Log) : (asking answers repository reference path).run.run log =
      (answers (.fetch repository reference path :: log) path, .fetch repository reference path :: log) := rfl

/-- Files of a remote are asked for in that way. -/
theorem Fetch.text_eq_asking (c : Context) (repository reference : String) :
    text c repository reference = asking (fun _ => c.world.remote.text repository reference) repository reference := by
  funext path
  have read (log : Log) : (file c repository reference path).run.run log =
      (c.world.remote.file repository reference path, .fetch repository reference path :: log) := rfl
  refine ExceptT.ext (StateT.ext fun log => ?_)
  rw [run_asking, text, run_bind, read, Remote.text]
  cases c.world.remote.file repository reference path <;> rfl

namespace Resolution

variable {m : Type → Type} [Monad m] [LawfulMonad m]

/-- Files that were found before stay in front of the queue. -/
def behind (front : List (String × String)) (r : Resolution) : Resolution := { r with queue := front ++ r.queue }

/-- Steps that take no notice of a change to the state can be taken before it. -/
theorem foldlM_comm {α β : Type} {f : β → α → m β} {g : β → β} (h : ∀ b a, f (g b) a = g <$> f b a) (b : β) (xs : List α) :
    xs.foldlM f (g b) = g <$> xs.foldlM f b := by
  induction xs generalizing b with
  | nil => simp
  | cons x xs ih => simp [h, ih]

variable {extract : String → String → List ImportRef} {fetch : String → m (Option String)} {now : Timestamp}

theorem follow_behind (importer : String) (front : List (String × String)) (r : Resolution) (i : ImportRef) :
    follow fetch now importer (r.behind front) i = behind front <$> follow fetch now importer r i := by
  unfold follow
  by_cases url : Path.isUrl i.path = true
  · rw [if_pos url, if_pos url, map_pure]
    rfl
  · rw [if_neg url, if_neg url]
    dsimp only
    have seen : (r.behind front).seen = r.seen := rfl
    by_cases known : r.seen.contains (destination importer (Path.dropFileScheme i.path)) = true
    · rw [if_pos (seen ▸ known), if_pos known, map_pure]
    · rw [if_neg (seen ▸ known), if_neg known, map_bind]
      refine bind_congr fun found => ?_
      cases found with
      | none => rw [map_pure]; rfl
      | some text => simp [behind]

/-- What is in the queue makes no difference to how the imports of a file are followed. -/
theorem followFile_behind (front : List (String × String)) (r : Resolution) (file : String × String) :
    followFile extract fetch now (r.behind front) file = behind front <$> followFile extract fetch now r file :=
  foldlM_comm (follow_behind file.1 front) r _

end Resolution

/-! ## The loop -/

/-- A file whose imports are still to be followed, and how many imports it is away from the start. -/
structure Waiting where
  path : String
  text : String
  depth : Nat
deriving DecidableEq, Repr

/-- The paths that have been remembered, what has been found, and the files that wait. -/
structure Worklist where
  seen : List String
  resolved : ResolvedImports
  queue : List Waiting
deriving DecidableEq, Repr

namespace Worklist

open Resolution

/-- Files that wait at one depth. -/
def waiting (depth : Nat) (files : List (String × String)) : List Waiting := files.map fun f => ⟨f.1, f.2, depth⟩

theorem waiting_append (depth : Nat) (files others : List (String × String)) :
    waiting depth (files ++ others) = waiting depth files ++ waiting depth others := List.map_append

def start (primary content : String) : Worklist := ⟨[primary], .empty, [⟨primary, content, 0⟩]⟩

/-- One round, in which the file was taken off the queue and the rest was left there. Imports of files at the bound are
not followed. -/
def round {m : Type → Type} [Monad m] (extract : String → String → List ImportRef) (fetch : String → m (Option String))
    (now : Timestamp) (bound : Nat) (seen : List String) (resolved : ResolvedImports) (file : Waiting)
    (rest : List Waiting) : m Worklist := do
  if bound ≤ file.depth && !(extract file.path file.text).isEmpty then return ⟨seen, resolved, rest⟩
  let r ← followFile extract fetch now ⟨seen, resolved, []⟩ (file.path, file.text)
  return ⟨r.seen, r.resolved, rest ++ waiting (file.depth + 1) r.queue⟩

section Rounds

variable {m : Type → Type} [Monad m] [LawfulMonad m] {extract : String → String → List ImportRef}
  {fetch : String → m (Option String)} {now : Timestamp} {bound : Nat} {seen : List String} {resolved : ResolvedImports}
  {file : Waiting} {rest : List Waiting}

theorem round_of_bound (deep : bound ≤ file.depth) :
    round extract fetch now bound seen resolved file rest = pure ⟨seen, resolved, rest⟩ := by
  unfold round
  cases none_listed : (extract file.path file.text).isEmpty with
  | false => simp [deep]
  | true => simp [followFile, List.isEmpty_iff.mp none_listed, waiting]

omit [LawfulMonad m] in
theorem round_of_lt (shallow : file.depth < bound) :
    round extract fetch now bound seen resolved file rest =
      followFile extract fetch now ⟨seen, resolved, []⟩ (file.path, file.text) >>= fun r =>
        pure ⟨r.seen, r.resolved, rest ++ waiting (file.depth + 1) r.queue⟩ := by
  unfold round
  rw [if_neg (by simp [Nat.not_le.mpr shallow])]

end Rounds

section Runs

variable (extract : String → String → List ImportRef) (fetch : String → Fetch (Option String)) (now : Timestamp)
  (bound : Nat)

/-- The first comes from the second, each with what was done by then, in one round. -/
inductive Follows : Worklist × Log → Worklist × Log → Prop
  | round {seen : List String} {resolved : ResolvedImports} {file : Waiting} {rest : List Waiting} {log log' : Log}
      {w : Worklist} (run : (round extract fetch now bound seen resolved file rest).run.run log = (.ok w, log')) :
      Follows (w, log') (⟨seen, resolved, file :: rest⟩, log)

/-- What the loop ends with, and what was done by then. -/
inductive Ends : Worklist → Log → Except SyncError ResolvedImports × Log → Prop
  | done {seen : List String} {resolved : ResolvedImports} {log : Log} : Ends ⟨seen, resolved, []⟩ log (.ok resolved, log)
  | failed {seen : List String} {resolved : ResolvedImports} {file : Waiting} {rest : List Waiting} {log log' : Log}
      {e : SyncError} (run : (round extract fetch now bound seen resolved file rest).run.run log = (.error e, log')) :
      Ends ⟨seen, resolved, file :: rest⟩ log (.error e, log')
  | next {seen : List String} {resolved : ResolvedImports} {file : Waiting} {rest : List Waiting} {log log' : Log}
      {w : Worklist} {out : Except SyncError ResolvedImports × Log}
      (run : (round extract fetch now bound seen resolved file rest).run.run log = (.ok w, log')) (ends : Ends w log' out) :
      Ends ⟨seen, resolved, file :: rest⟩ log out

end Runs

variable {extract : String → String → List ImportRef} {fetch : String → Fetch (Option String)} {now : Timestamp}
  {bound : Nat}

/-! ## The end of the loop -/

/-- How many imports each file that waits is away from the bound. -/
def distances (bound : Nat) (w : Worklist) : Multiset Nat := (w.queue.map fun f => bound - f.depth : List Nat)

/-- The files that a round puts in the queue are all nearer to the bound than the file it took off. -/
theorem distances_of_round {seen : List String} {resolved : ResolvedImports} {file : Waiting} {rest : List Waiting}
    {log log' : Log} {w : Worklist}
    (run : (round extract fetch now bound seen resolved file rest).run.run log = (.ok w, log')) :
    ∃ found : List Waiting, w.queue = rest ++ found ∧ ∀ f ∈ found, bound - f.depth < bound - file.depth := by
  rcases Nat.lt_or_ge file.depth bound with shallow | deep
  · rw [round_of_lt shallow, Fetch.run_bind] at run
    rcases ran : (followFile extract fetch now ⟨seen, resolved, []⟩ (file.path, file.text)).run.run log with ⟨e | r, new⟩
    · rw [ran] at run
      exact nomatch congrArg Prod.fst run
    · rw [ran] at run
      obtain rfl := Except.ok.inj (congrArg Prod.fst run)
      refine ⟨waiting (file.depth + 1) r.queue, rfl, fun f hf => ?_⟩
      obtain ⟨found, -, rfl⟩ := List.mem_map.mp hf
      dsimp only
      omega
  · rw [round_of_bound deep] at run
    obtain rfl := Except.ok.inj (congrArg Prod.fst run)
    exact ⟨[], (List.append_nil _).symm, List.forall_mem_nil _⟩

theorem Follows.cutExpand {later earlier : Worklist × Log} (h : Follows extract fetch now bound later earlier) :
    Relation.CutExpand (· < ·) (distances bound later.1) (distances bound earlier.1) := by
  cases h with
  | @round seen resolved file rest log log' w run =>
    obtain ⟨found, queue, nearer⟩ := distances_of_round run
    refine ⟨(found.map fun f => bound - f.depth : List Nat), bound - file.depth, fun d hd => ?_, ?_⟩
    · obtain ⟨f, hf, rfl⟩ := List.mem_map.mp (Multiset.mem_coe.mp hd)
      exact nearer f hf
    · unfold distances
      rw [queue, List.map_append, List.map_cons, ← Multiset.coe_add, ← Multiset.cons_coe, Multiset.cons_add,
        ← Multiset.singleton_add, add_comm]

/-- No round can follow another for ever, whatever the remote answers and wherever the loop is. -/
theorem wellFounded_follows : WellFounded (Follows extract fetch now bound) :=
  Subrelation.wf Follows.cutExpand (InvImage.wf (fun x : Worklist × Log => distances bound x.1) wellFounded_lt.cutExpand)

/-! ## The loop and the levels -/

theorem ends_nil_iff {seen : List String} {resolved : ResolvedImports} {log : Log}
    {out : Except SyncError ResolvedImports × Log} :
    Ends extract fetch now bound ⟨seen, resolved, []⟩ log out ↔ out = (.ok resolved, log) := by
  constructor
  · rintro ⟨⟩
    rfl
  · rintro rfl
    exact .done

theorem ends_cons_iff {seen : List String} {resolved : ResolvedImports} {file : Waiting} {rest : List Waiting}
    {log : Log} {out : Except SyncError ResolvedImports × Log} :
    Ends extract fetch now bound ⟨seen, resolved, file :: rest⟩ log out ↔
      match (round extract fetch now bound seen resolved file rest).run.run log with
      | (.ok w, log') => Ends extract fetch now bound w log' out
      | (.error e, log') => out = (.error e, log') := by
  constructor
  · intro h
    cases h with
    | failed run => rw [run]
    | next run ends => rw [run]; exact ends
  · intro h
    rcases run : (round extract fetch now bound seen resolved file rest).run.run log with ⟨e | w, log'⟩
    · rw [run] at h
      obtain rfl := h
      exact .failed run
    · rw [run] at h
      exact .next run h

/-- Files at the bound are taken off the queue, and nothing else happens. -/
theorem ends_bound_iff {seen : List String} {resolved : ResolvedImports} {files : List (String × String)} {log : Log}
    {out : Except SyncError ResolvedImports × Log} :
    Ends extract fetch now bound ⟨seen, resolved, waiting bound files⟩ log out ↔ out = (.ok resolved, log) := by
  induction files with
  | nil => exact ends_nil_iff
  | cons file files ih =>
    rw [waiting, List.map_cons, ends_cons_iff, round_of_bound (Nat.le_refl bound)]
    exact ih

/-- Files at one depth are taken off one after the other. The files that they import wait behind those that were found
before at the next depth. -/
theorem ends_front_iff {depth : Nat} (shallow : depth < bound) (front next : List (String × String)) (r : Resolution)
    (log : Log) (out : Except SyncError ResolvedImports × Log) :
    Ends extract fetch now bound ⟨r.seen, r.resolved, waiting depth front ++ waiting (depth + 1) next⟩ log out ↔
      match (front.foldlM (followFile extract fetch now) { r with queue := next }).run.run log with
      | (.ok r', log') => Ends extract fetch now bound ⟨r'.seen, r'.resolved, waiting (depth + 1) r'.queue⟩ log' out
      | (.error e, log') => out = (.error e, log') := by
  induction front generalizing next r log with
  | nil => rfl
  | cons file front ih =>
    have one : followFile extract fetch now { r with queue := next } file =
        behind next <$> followFile extract fetch now ⟨r.seen, r.resolved, []⟩ file := by
      rw [← followFile_behind, behind, List.append_nil]
    rw [waiting, List.map_cons, List.cons_append, ends_cons_iff, round_of_lt shallow, Fetch.run_bind, List.foldlM_cons, one,
      bind_map_left, Fetch.run_bind]
    rcases (followFile extract fetch now ⟨r.seen, r.resolved, []⟩ file).run.run log with ⟨e | r', log'⟩
    · rfl
    · dsimp only [behind]
      rw [← ih, waiting_append, ← List.append_assoc]
      rfl

theorem ends_levels_iff {depth : Nat} (levels : Nat) (within : depth + levels = bound) (r : Resolution) (log : Log)
    (out : Except SyncError ResolvedImports × Log) :
    Ends extract fetch now bound ⟨r.seen, r.resolved, waiting depth r.queue⟩ log out ↔
      out = (Resolution.levels extract fetch now levels r >>= fun r => pure r.resolved).run.run log := by
  induction levels generalizing depth r log with
  | zero =>
    obtain rfl : depth = bound := within
    rw [ends_bound_iff]
    rfl
  | succ levels ih =>
    have queue : waiting depth r.queue = waiting depth r.queue ++ waiting (depth + 1) [] := (List.append_nil _).symm
    rw [queue, ends_front_iff (by omega), levels_succ, bind_assoc, Fetch.run_bind]
    rcases (r.queue.foldlM (followFile extract fetch now) { r with queue := [] }).run.run log with ⟨e | r', log'⟩
    · rfl
    · exact ih (by omega) r' log'

theorem ends_start_iff {path content : String} {log : Log} {out : Except SyncError ResolvedImports × Log} :
    Ends extract fetch now bound (start (Path.normalize path) content) log out ↔
      out = (resolveImports extract fetch now bound path content).run.run log :=
  ends_levels_iff bound (Nat.zero_add bound) (Resolution.start (Path.normalize path) content) log out

end Worklist

/-! ## What is asked for -/

namespace Resolution

/-- No path is asked for that was remembered before, and what is asked for is remembered. Each path that is asked for is
in canonical form. -/
structure Asked (repository reference : String) (seen : List String) (log : Log)
    (out : Except SyncError Resolution × Log) (asked : List String) : Prop where
  log : out.2 = asked.map (Action.fetch repository reference) ++ log
  distinct : seen.Nodup → (asked ++ seen).Nodup
  canonical : ∀ path ∈ asked, Path.normalize path = path
  seen : ∀ r, out.1 = .ok r → r.seen = asked ++ seen

/-- What a part of a resolution asks for, whatever was done before. -/
def AsksOnce (repository reference : String) (seen : List String) (x : Fetch Resolution) : Prop :=
  ∀ log, ∃ asked, Asked repository reference seen log (x.run.run log) asked

variable {extract : String → String → List ImportRef} {answers : Log → String → Except SyncError (Option String)}
  {repository reference : String} {now : Timestamp}

theorem asksOnce_pure {r : Resolution} {seen : List String} (same : r.seen = seen) :
    AsksOnce repository reference seen (pure r) := fun _ =>
  ⟨[], rfl, id, List.forall_mem_nil _, fun _ last => Except.ok.inj last ▸ same⟩

theorem AsksOnce.bind {seen : List String} {x : Fetch Resolution} {f : Resolution → Fetch Resolution}
    (hx : AsksOnce repository reference seen x) (hf : ∀ r, AsksOnce repository reference r.seen (f r)) :
    AsksOnce repository reference seen (x >>= f) := by
  intro log
  obtain ⟨asked, first⟩ := hx log
  rw [Fetch.run_bind]
  rcases ran : x.run.run log with ⟨e | r, new⟩
  · rw [ran] at first
    exact ⟨asked, first.log, first.distinct, first.canonical, nofun⟩
  · rw [ran] at first
    obtain ⟨more, second⟩ := hf r new
    have before : new = asked.map (Action.fetch repository reference) ++ log := first.log
    have known : r.seen = asked ++ seen := first.seen r rfl
    refine ⟨more ++ asked, ?_, ?_, List.forall_mem_append.mpr ⟨second.canonical, first.canonical⟩, fun r' last => ?_⟩
    · rw [second.log, before, List.map_append, List.append_assoc]
    · intro distinct
      rw [List.append_assoc, ← known]
      exact second.distinct (known ▸ first.distinct distinct)
    · rw [second.seen r' last, known, List.append_assoc]

theorem asksOnce_foldlM {α : Type} {f : Resolution → α → Fetch Resolution}
    (h : ∀ r a, AsksOnce repository reference r.seen (f r a)) (xs : List α) (r : Resolution) :
    AsksOnce repository reference r.seen (xs.foldlM f r) := by
  induction xs generalizing r with
  | nil => exact asksOnce_pure rfl
  | cons x xs ih =>
    rw [List.foldlM_cons]
    exact (h r x).bind ih

theorem asksOnce_asking {path : String} {seen : List String} (fresh : path ∉ seen) (canonical : Path.normalize path = path)
    {f : Option String → Fetch Resolution} (h : ∀ found, ∃ r, f found = pure r ∧ r.seen = path :: seen) :
    AsksOnce repository reference seen (Fetch.asking answers repository reference path >>= f) := by
  intro log
  refine ⟨[path], ?_⟩
  rw [Fetch.run_bind, Fetch.run_asking]
  have distinct : seen.Nodup → ([path] ++ seen).Nodup := fun distinct => List.nodup_cons.mpr ⟨fresh, distinct⟩
  cases answers (.fetch repository reference path :: log) path with
  | error e => exact ⟨rfl, distinct, List.forall_mem_singleton.mpr canonical, nofun⟩
  | ok found =>
    obtain ⟨r, answered, remembered⟩ := h found
    dsimp only
    rw [answered]
    exact ⟨rfl, distinct, List.forall_mem_singleton.mpr canonical, fun _ last => Except.ok.inj last ▸ remembered⟩

theorem asksOnce_follow (importer : String) (r : Resolution) (i : ImportRef) :
    AsksOnce repository reference r.seen (follow (Fetch.asking answers repository reference) now importer r i) := by
  unfold follow
  split
  · exact asksOnce_pure rfl
  · dsimp only
    split
    · exact asksOnce_pure rfl
    · rename_i fresh
      have fresh : destination importer (Path.dropFileScheme i.path) ∉ r.seen := by simpa using fresh
      refine asksOnce_asking fresh (Path.normalize_resolve _ _) fun found => ?_
      cases found with
      | none => exact ⟨_, rfl, rfl⟩
      | some text => exact ⟨_, rfl, rfl⟩

theorem asksOnce_followFile (r : Resolution) (file : String × String) :
    AsksOnce repository reference r.seen
      (followFile extract (Fetch.asking answers repository reference) now r file) :=
  asksOnce_foldlM (asksOnce_follow file.1) _ r

theorem asksOnce_levels (depth : Nat) (r : Resolution) :
    AsksOnce repository reference r.seen (levels extract (Fetch.asking answers repository reference) now depth r) := by
  induction depth generalizing r with
  | zero => exact asksOnce_pure rfl
  | succ depth ih =>
    rw [levels_succ]
    have level : AsksOnce repository reference r.seen
        (r.queue.foldlM (followFile extract (Fetch.asking answers repository reference) now) { r with queue := [] }) :=
      asksOnce_foldlM asksOnce_followFile r.queue { r with queue := [] }
    exact level.bind ih

end Resolution

/-- However the remote answers, and wherever the loop is, its rounds come to an end; started on a primary descriptor, it
ends with what is found level by level, and with that alone. What was done by then is to ask for distinct paths in
canonical form, none of which is that of the primary descriptor. -/
theorem worklist_ends (extract : String → String → List ImportRef)
    (answers : Log → String → Except SyncError (Option String)) (repository reference : String) (now : Timestamp)
    (bound : Nat) (path content : String) (before : Log) :
    let fetch := Fetch.asking answers repository reference
    let outcome := (resolveImports extract fetch now bound path content).run.run before
    WellFounded (Worklist.Follows extract fetch now bound) ∧
      (∀ out, Worklist.Ends extract fetch now bound (.start (Path.normalize path) content) before out ↔ out = outcome) ∧
      ∃ asked : List String, outcome.2 = asked.map (Action.fetch repository reference) ++ before ∧ asked.Nodup ∧
        (∀ q ∈ asked, Path.normalize q = q) ∧ Path.normalize path ∉ asked := by
  intro fetch outcome
  refine ⟨Worklist.wellFounded_follows, fun out => Worklist.ends_start_iff, ?_⟩
  have start : Resolution.AsksOnce repository reference [Path.normalize path]
      (Resolution.levels extract fetch now bound (Resolution.start (Path.normalize path) content)) :=
    Resolution.asksOnce_levels bound (Resolution.start (Path.normalize path) content)
  obtain ⟨asked, once⟩ := start before
  have same : outcome.2 = ((Resolution.levels extract fetch now bound
      (Resolution.start (Path.normalize path) content)).run.run before).2 := by
    dsimp only [outcome, resolveImports]
    rw [Fetch.run_bind]
    rcases (Resolution.levels extract fetch now bound (Resolution.start (Path.normalize path) content)).run.run before with
      ⟨_ | _, _⟩ <;> rfl
  have distinct := List.nodup_append.mp (once.distinct (List.nodup_singleton _))
  exact ⟨asked, same.trans once.log, distinct.1, once.canonical,
    fun primary => distinct.2.2 _ primary _ (List.mem_singleton_self _) rfl⟩

/-- Every file is there, and imports a new one and the primary descriptor. -/
example : ((resolveImports (fun path _ => [⟨path ++ "x", .wdl⟩, ⟨"/m", .wdl⟩])
    (Fetch.asking (fun _ _ => .ok (some "")) "org/repo" "main") ImportGraph.Sample.now 2 "m" "").run.run []).2 =
      [.fetch "org/repo" "main" "/mxx", .fetch "org/repo" "main" "/mx"] := by
  decide +kernel

end WorkflowCatalog
