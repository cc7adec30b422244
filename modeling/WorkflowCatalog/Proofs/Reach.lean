import Mathlib.Data.Nat.Find
import WorkflowCatalog.Proofs.Imports
import WorkflowCatalog.Remote

/-!
# How far imports lead

The imports of files make up a graph, in which the primary descriptor is the start. Following them level by level asks
for the paths whose distance from the start is within the bound, each of them once. So one file is kept for each of
those paths that has one, one written path for each that has none, and the resolution fails only if the remote fails
for one of them.
-/
namespace WorkflowCatalog

open Resolution (destination)

/-- Whether the remote answers that there is nothing at the path. -/
def isAbsent (fetch : String → Except SyncError (Option String)) (path : String) : Bool :=
  match fetch path with
  | .ok none => true
  | _ => false

theorem isAbsent_iff {fetch : String → Except SyncError (Option String)} {path : String} :
    isAbsent fetch path = true ↔ fetch path = .ok none := by
  unfold isAbsent
  split <;> simp_all

/-! ## Distances -/

/-- What a resolution works on: how imports are found in a text, what the remote answers, and the primary descriptor. -/
structure ImportGraph where
  extract : String → String → List ImportRef
  fetch : String → Except SyncError (Option String)
  primary : String
  content : String

namespace ImportGraph

variable (g : ImportGraph)

/-- The text of a file; that of the primary descriptor is known from the start. -/
def text? (path : String) : Option String :=
  if path = g.primary then some g.content
  else match g.fetch path with
    | .ok found => found
    | .error _ => none

/-- A file imports what is at `path`, and refers to it by `written`. -/
def Writes (importer written path : String) : Prop :=
  ∃ text, g.text? importer = some text ∧ ∃ i ∈ g.extract importer text,
    Path.isUrl i.path = false ∧ Path.dropFileScheme i.path = written ∧ destination importer written = path

/-- A path is led to by that many imports, one after the other. All files between it and the start are there. -/
inductive Chain : Nat → String → Prop
  | start : Chain 0 g.primary
  | next {n : Nat} {importer written path : String} (chain : Chain n importer)
      (inner : 0 < n → isThere g.fetch importer = true) (writes : g.Writes importer written path) : Chain (n + 1) path

/-- The length of the shortest chain to a path. -/
def IsDistance (n : Nat) (path : String) : Prop := g.Chain n path ∧ ∀ m, g.Chain m path → n ≤ m

/-- The path is another than that of the primary descriptor, and its distance is within the bound. -/
def Within (depth : Nat) (path : String) : Prop := path ≠ g.primary ∧ ∃ n, 1 ≤ n ∧ n ≤ depth ∧ g.IsDistance n path

variable {g}

theorem text?_of_ne {path text : String} (other : path ≠ g.primary) :
    g.text? path = some text ↔ g.fetch path = .ok (some text) := by
  rw [text?, if_neg other]
  split <;> simp_all

theorem eq_primary_of_chain {n : Nat} {path : String} (chain : g.Chain n path) (zero : n = 0) : path = g.primary := by
  cases chain with
  | start => rfl
  | next => contradiction

/-- A path is within the bound if any chain to it is. -/
theorem within_iff {depth : Nat} {path : String} :
    g.Within depth path ↔ path ≠ g.primary ∧ ∃ n ≤ depth, g.Chain n path := by
  constructor
  · rintro ⟨other, n, -, bound, chain, -⟩
    exact ⟨other, n, bound, chain⟩
  · rintro ⟨other, n, bound, chain⟩
    classical
    have some_chain : ∃ m, g.Chain m path := ⟨n, chain⟩
    have shortest : g.Chain (Nat.find some_chain) path := Nat.find_spec some_chain
    have positive : 1 ≤ Nat.find some_chain := by
      by_contra zero
      exact other (eq_primary_of_chain shortest (by omega))
    exact ⟨other, Nat.find some_chain, positive, Nat.le_trans (Nat.find_min' some_chain chain) bound, shortest,
      fun m hm => Nat.find_min' some_chain hm⟩

end ImportGraph

/-! ## Asking for the paths of links -/

namespace Resolution

variable {fetch : String → Except SyncError (Option String)} {now : Timestamp}

/-- An import as it is written and where it leads, unless it is a web resource. -/
def links (importer : String) (i : ImportRef) : List (String × String) :=
  if Path.isUrl i.path then []
  else [(Path.dropFileScheme i.path, destination importer (Path.dropFileScheme i.path))]

/-- The links of all imports of a file. -/
def fileLinks (extract : String → String → List ImportRef) (file : String × String) : List (String × String) :=
  (extract file.1 file.2).flatMap (links file.1)

/-- The second resolution comes from the first by asking for the paths of these links, which were all answered. -/
structure Extends (fetch : String → Except SyncError (Option String)) (r : Resolution)
    (asked : List (String × String)) (r' : Resolution) : Prop where
  seen : r'.seen = (asked.map Prod.snd).reverse ++ r.seen
  distinct : r.seen.Nodup → r'.seen.Nodup
  missing : r'.resolved.missing = r.resolved.missing ++ (asked.filter fun l => isAbsent fetch l.2).map Prod.fst
  queue : ∀ x, x ∈ r'.queue ↔ x ∈ r.queue ∨ x.1 ∈ asked.map Prod.snd ∧ fetch x.1 = .ok (some x.2)
  answered : ∀ l ∈ asked, ∃ found, fetch l.2 = .ok found

namespace Extends

variable {r r₁ r₂ : Resolution} {asked more : List (String × String)}

theorem mem_seen (h : Extends fetch r asked r₁) {path : String} :
    path ∈ r₁.seen ↔ path ∈ asked.map Prod.snd ∨ path ∈ r.seen := by
  rw [h.seen, List.mem_append, List.mem_reverse]

theorem refl (r : Resolution) : Extends fetch r [] r :=
  ⟨rfl, id, (List.append_nil _).symm, by simp, List.forall_mem_nil _⟩

theorem trans (h : Extends fetch r asked r₁) (k : Extends fetch r₁ more r₂) : Extends fetch r (asked ++ more) r₂ where
  seen := by
    rw [k.seen, h.seen]
    simp
  distinct := fun distinct => k.distinct (h.distinct distinct)
  missing := by
    rw [k.missing, h.missing]
    simp
  queue := fun x => by
    rw [k.queue, h.queue, List.map_append, List.mem_append, or_and_right, or_assoc]
  answered := List.forall_mem_append.mpr ⟨h.answered, k.answered⟩

end Extends

/-- What it comes to if the paths of some links are asked for, but those that were asked for before: all are answered,
or the remote fails for one. -/
inductive Asks (fetch : String → Except SyncError (Option String)) (r : Resolution) (ls : List (String × String)) :
    Except SyncError Resolution → Prop
  | answered {asked : List (String × String)} {r' : Resolution} (step : Extends fetch r asked r')
      (only : ∀ l ∈ asked, l ∈ ls) (all : ∀ l ∈ ls, l.2 ∈ r'.seen) : Asks fetch r ls (.ok r')
  | failed {l : String × String} {e : SyncError} (linked : l ∈ ls) (fresh : l.2 ∉ r.seen) (fails : fetch l.2 = .error e) :
      Asks fetch r ls (.error e)

theorem asks_follow (importer : String) (r : Resolution) (i : ImportRef) :
    Asks fetch r (links importer i) (follow fetch now importer r i) := by
  unfold follow links
  by_cases url : Path.isUrl i.path = true
  · rw [if_pos url, if_pos url]
    exact .answered (show Extends fetch r [] _ from ⟨rfl, id, by simp, by simp, List.forall_mem_nil _⟩)
      (List.forall_mem_nil _) (List.forall_mem_nil _)
  · rw [if_neg url, if_neg url]
    dsimp only
    generalize Path.dropFileScheme i.path = written
    generalize destination importer written = path
    by_cases known : path ∈ r.seen
    · rw [if_pos (List.contains_iff_mem.mpr known)]
      exact .answered (.refl r) (List.forall_mem_nil _) (List.forall_mem_singleton.mpr known)
    · rw [if_neg (by simpa using known)]
      have distinct : r.seen.Nodup → (path :: r.seen).Nodup := fun h => List.nodup_cons.mpr ⟨known, h⟩
      have all : ∀ l ∈ [(written, path)], l.2 ∈ path :: r.seen := List.forall_mem_singleton.mpr List.mem_cons_self
      cases answer : fetch path with
      | error e => exact .failed (List.mem_singleton_self _) known answer
      | ok found =>
        have answered : ∀ l ∈ [(written, path)], ∃ found, fetch l.2 = .ok found :=
          List.forall_mem_singleton.mpr ⟨found, answer⟩
        cases found with
        | none =>
          refine .answered (show Extends fetch r [(written, path)] _ from ⟨rfl, distinct, ?_, ?_, answered⟩) (fun _ => id) all
          · simp [isAbsent, answer]
          · rintro ⟨file, text⟩
            simp only [List.map_cons, List.map_nil, List.mem_singleton]
            constructor
            · exact .inl
            · rintro (old | ⟨rfl, there⟩)
              · exact old
              · exact absurd (answer.symm.trans there) (by simp)
        | some text =>
          refine .answered (show Extends fetch r [(written, path)] _ from ⟨rfl, distinct, ?_, ?_, answered⟩) (fun _ => id) all
          · simp [isAbsent, answer, ResolvedImports.addFile]
          · rintro ⟨file, t⟩
            simp only [List.map_cons, List.map_nil, List.mem_singleton, List.mem_append, Prod.mk.injEq]
            constructor
            · rintro (old | ⟨rfl, rfl⟩)
              · exact .inl old
              · exact .inr ⟨rfl, answer⟩
            · rintro (old | ⟨rfl, there⟩)
              · exact .inl old
              · exact .inr ⟨rfl, Option.some.inj (Except.ok.inj (there.symm.trans answer))⟩

theorem Asks.bind {r : Resolution} {ls more : List (String × String)} {x : Except SyncError Resolution}
    {f : Resolution → Except SyncError Resolution} (h : Asks fetch r ls x) (k : ∀ r', Asks fetch r' more (f r')) :
    Asks fetch r (ls ++ more) (x >>= f) := by
  cases h with
  | failed linked fresh fails => exact .failed (List.mem_append_left _ linked) fresh fails
  | @answered asked r₁ step only all =>
    change Asks fetch r (ls ++ more) (f r₁)
    cases later : f r₁ with
    | error e =>
      have second := later ▸ k r₁
      cases second with
      | failed linked fresh fails =>
        exact .failed (List.mem_append_right _ linked) (fun old => fresh (step.mem_seen.mpr (.inr old))) fails
    | ok r₂ =>
      have second := later ▸ k r₁
      cases second with
      | answered step₂ only₂ all₂ =>
        refine .answered (step.trans step₂) ?_ (List.forall_mem_append.mpr ⟨fun l hl => ?_, all₂⟩)
        · exact List.forall_mem_append.mpr ⟨fun l hl => List.mem_append_left _ (only l hl),
            fun l hl => List.mem_append_right _ (only₂ l hl)⟩
        · exact step₂.mem_seen.mpr (.inr (all l hl))

theorem asks_foldlM {α : Type} {f : Resolution → α → Except SyncError Resolution} {ls : α → List (String × String)}
    (h : ∀ r a, Asks fetch r (ls a) (f r a)) (as : List α) (r : Resolution) :
    Asks fetch r (as.flatMap ls) (as.foldlM f r) := by
  induction as generalizing r with
  | nil => exact .answered (.refl r) (List.forall_mem_nil _) (List.forall_mem_nil _)
  | cons a as ih =>
    rw [List.flatMap_cons, List.foldlM_cons]
    exact (h r a).bind ih

/-- One level asks for what the files in the queue lead to. -/
theorem asks_level (extract : String → String → List ImportRef) (queue : List (String × String)) (r : Resolution) :
    Asks fetch r (queue.flatMap (fileLinks extract)) (queue.foldlM (followFile extract fetch now) r) :=
  asks_foldlM (fun r file => asks_foldlM (asks_follow file.1) (extract file.1 file.2) r) queue r

/-- A level with nothing in the queue asks for nothing. -/
theorem levels_succ {m : Type → Type} [Monad m] [LawfulMonad m] (extract : String → String → List ImportRef)
    {fetch : String → m (Option String)} (depth : Nat) (r : Resolution) :
    levels extract fetch now (depth + 1) r =
      r.queue.foldlM (followFile extract fetch now) { r with queue := [] } >>= levels extract fetch now depth := by
  rw [levels]
  split
  · rename_i empty
    have rest : { r with queue := [] } = r := by rw [← List.isEmpty_iff.mp empty]
    rw [List.isEmpty_iff.mp empty, List.foldlM_nil, pure_bind, rest]
    cases depth with
    | zero => rfl
    | succ depth => rw [levels, if_pos empty]
  · rfl

/-! ## Levels -/

variable {g : ImportGraph}

/-- What is known after that many levels, in which the paths of these links were asked for. The queue has the files
that were found last. What every other file leads to was asked for. -/
structure Level (g : ImportGraph) (level : Nat) (asked : List (String × String)) (r : Resolution) : Prop where
  seen : r.seen = (asked.map Prod.snd).reverse ++ [g.primary]
  distinct : r.seen.Nodup
  reach : ∀ path, path ∈ r.seen ↔ ∃ n ≤ level, g.Chain n path
  written : ∀ l ∈ asked, ∃ n < level, ∃ importer, g.Chain n importer ∧ g.Writes importer l.1 l.2
  answered : ∀ l ∈ asked, ∃ found, g.fetch l.2 = .ok found
  missing : r.resolved.missing = (asked.filter fun l => isAbsent g.fetch l.2).map Prod.fst
  queue : ∀ x ∈ r.queue, g.Chain level x.1 ∧ (0 < level → isThere g.fetch x.1 = true) ∧ g.text? x.1 = some x.2
  closed : ∀ importer ∈ r.seen, ∀ written path, g.Writes importer written path →
    path ∈ r.seen ∨ ∃ text, (importer, text) ∈ r.queue

theorem level_start : Level g 0 [] (start g.primary g.content) where
  seen := rfl
  distinct := List.pairwise_singleton _ g.primary
  reach := fun path => by
    rw [start, List.mem_singleton]
    constructor
    · rintro rfl
      exact ⟨0, Nat.le_refl 0, .start⟩
    · rintro ⟨n, bound, chain⟩
      exact ImportGraph.eq_primary_of_chain chain (Nat.le_zero.mp bound)
  written := List.forall_mem_nil _
  answered := List.forall_mem_nil _
  missing := rfl
  queue := List.forall_mem_singleton.mpr ⟨.start, fun positive => absurd positive (Nat.lt_irrefl 0), if_pos rfl⟩
  closed := fun importer first _ _ _ => .inr ⟨g.content, by rw [List.mem_singleton.mp first]; exact List.mem_singleton_self _⟩

namespace Level

variable {level : Nat} {asked more : List (String × String)} {r r' : Resolution}

/-- The links of the files in the queue are written one level further. -/
theorem mem_links (h : Level g level asked r) {l : String × String} :
    l ∈ r.queue.flatMap (fileLinks g.extract) ↔ ∃ x ∈ r.queue, g.Writes x.1 l.1 l.2 := by
  simp only [List.mem_flatMap, fileLinks, links]
  constructor
  · rintro ⟨x, hx, i, hi, hl⟩
    split at hl
    · exact absurd hl List.not_mem_nil
    · rename_i url
      rw [List.mem_singleton] at hl
      subst hl
      exact ⟨x, hx, x.2, (h.queue x hx).2.2, i, hi, by simpa using url, rfl, rfl⟩
  · rintro ⟨x, hx, text, known, i, hi, url, written, leads⟩
    have same : x.2 = text := Option.some.inj ((h.queue x hx).2.2.symm.trans known)
    refine ⟨x, hx, i, same ▸ hi, ?_⟩
    rw [if_neg (by simp [url]), written, leads]
    exact List.mem_singleton_self _

/-- A path that a file in the queue leads to is one import further. -/
theorem chain_of_link (h : Level g level asked r) {l : String × String}
    (hl : l ∈ r.queue.flatMap (fileLinks g.extract)) : g.Chain (level + 1) l.2 := by
  obtain ⟨x, hx, writes⟩ := h.mem_links.mp hl
  obtain ⟨chain, inner, -⟩ := h.queue x hx
  exact .next chain inner writes

theorem primary_mem (h : Level g level asked r) : g.primary ∈ r.seen := (h.reach _).mpr ⟨0, Nat.zero_le _, .start⟩

/-- What one level of imports makes of what is known. -/
theorem next (h : Level g level asked r) (step : Extends g.fetch { r with queue := [] } more r')
    (only : ∀ l ∈ more, l ∈ r.queue.flatMap (fileLinks g.extract))
    (all : ∀ l ∈ r.queue.flatMap (fileLinks g.extract), l.2 ∈ r'.seen) : Level g (level + 1) (asked ++ more) r' := by
  have old : ∀ path ∈ r.seen, path ∈ r'.seen := fun path hp => step.mem_seen.mpr (.inr hp)
  have from_seen : ∀ importer ∈ r.seen, ∀ written path, g.Writes importer written path → path ∈ r'.seen := by
    intro importer hi written path writes
    rcases h.closed importer hi written path writes with seen | ⟨text, queued⟩
    · exact old path seen
    · exact all (written, path) (h.mem_links.mpr ⟨_, queued, writes⟩)
  -- A path that was asked for in this level is not that of the primary descriptor, which was known before.
  have other : ∀ path ∈ more.map Prod.snd, path ≠ g.primary := by
    rintro path hp rfl
    have distinct := step.distinct h.distinct
    rw [step.seen, List.nodup_append] at distinct
    exact distinct.2.2 _ (List.mem_reverse.mpr hp) _ h.primary_mem rfl
  refine ⟨?_, step.distinct h.distinct, fun path => ?_, ?_, ?_, ?_, fun x hx => ?_, ?_⟩
  · rw [step.seen, h.seen]
    simp
  · rw [step.mem_seen]
    constructor
    · rintro (new | seen)
      · obtain ⟨l, hl, rfl⟩ := List.mem_map.mp new
        exact ⟨level + 1, Nat.le_refl _, h.chain_of_link (only l hl)⟩
      · obtain ⟨n, bound, chain⟩ := (h.reach path).mp seen
        exact ⟨n, by omega, chain⟩
    · rintro ⟨n, bound, chain⟩
      rw [← step.mem_seen]
      cases chain with
      | start => exact old _ h.primary_mem
      | @next n importer written _ chain inner writes =>
        exact from_seen importer ((h.reach importer).mpr ⟨n, by omega, chain⟩) written path writes
  · refine List.forall_mem_append.mpr ⟨fun l hl => ?_, fun l hl => ?_⟩
    · obtain ⟨n, bound, writer⟩ := h.written l hl
      exact ⟨n, by omega, writer⟩
    · obtain ⟨x, hx, writes⟩ := h.mem_links.mp (only l hl)
      exact ⟨level, by omega, x.1, (h.queue x hx).1, writes⟩
  · exact List.forall_mem_append.mpr ⟨h.answered, step.answered⟩
  · rw [step.missing, h.missing]
    simp
  · obtain ⟨new, there⟩ := ((step.queue x).mp hx).resolve_left List.not_mem_nil
    obtain ⟨l, hl, same⟩ := List.mem_map.mp new
    exact ⟨same ▸ h.chain_of_link (only l hl), fun _ => by simp [isThere, there],
      (ImportGraph.text?_of_ne (other x.1 new)).mpr there⟩
  · intro importer hi written path writes
    rcases step.mem_seen.mp hi with new | seen
    · obtain ⟨text, known, -⟩ := writes
      have there := (ImportGraph.text?_of_ne (other importer new)).mp known
      exact .inr ⟨text, (step.queue (importer, text)).mpr (.inr ⟨new, there⟩)⟩
    · exact .inl (from_seen importer seen written path writes)

end Level

variable (now) in
/-- All levels come to an answer, or the remote fails for a path within the bound. -/
theorem level_levels {level : Nat} {asked : List (String × String)} {r : Resolution} (h : Level g level asked r)
    (depth : Nat) :
    (∃ asked' r', levels g.extract g.fetch now depth r = .ok r' ∧ Level g (level + depth) asked' r') ∨
      ∃ path e, g.Within (level + depth) path ∧ g.fetch path = .error e ∧
        levels g.extract g.fetch now depth r = .error e := by
  induction depth generalizing level asked r with
  | zero => exact .inl ⟨asked, r, rfl, h⟩
  | succ depth ih =>
    have one : Asks g.fetch { r with queue := [] } (r.queue.flatMap (fileLinks g.extract))
        (r.queue.foldlM (followFile g.extract g.fetch now) { r with queue := [] }) := asks_level g.extract r.queue _
    rw [levels_succ]
    cases result : r.queue.foldlM (followFile g.extract g.fetch now) { r with queue := [] } with
    | error e =>
      rw [result] at one
      cases one with
      | @failed l _ linked fresh fails =>
        have other : l.2 ≠ g.primary := fun same => fresh (same ▸ h.primary_mem)
        exact .inr ⟨l.2, e, ImportGraph.within_iff.mpr ⟨other, level + 1, by omega, h.chain_of_link linked⟩, fails, rfl⟩
    | ok r' =>
      rw [result] at one
      cases one with
      | answered step only all =>
        have rest := ih (h.next step only all)
        rw [show level + 1 + depth = level + (depth + 1) by omega] at rest
        exact rest

/-- No file takes the place of another that is listed by the same text. -/
theorem ascending_levels {depth : Nat} {r r' : Resolution} (hr : Ascending.IsAscending Prod.fst r.resolved.files)
    (h : levels g.extract g.fetch now depth r = .ok r') : Ascending.IsAscending Prod.fst r'.resolved.files := by
  refine levels_induction (P := fun r => Ascending.IsAscending Prod.fst r.resolved.files) (fun _ hr => hr) ?_ hr h
  intro r importer i r' _ step hr
  cases step with
  | url => exact hr
  | known => exact hr
  | missing => exact hr
  | found =>
    obtain ⟨key, -, e⟩ := addFile_eq r.resolved _ _
    rw [e]
    exact Ascending.isAscending_put hr _

end Resolution

/-! ## What is found -/

/-- There is one file, with the text of the remote, for each path within the bound that has one, and one path as it is
written in an import for each that has none. -/
structure ResolvedImports.IsExact (g : ImportGraph) (depth : Nat) (resolved : ResolvedImports) : Prop where
  keys : (resolved.files.map Prod.fst).Nodup
  distinct : (resolved.files.map fun f => f.2.absolutePath).Nodup
  files : ∀ path, path ∈ resolved.files.map (fun f => f.2.absolutePath) ↔ g.Within depth path ∧ isThere g.fetch path = true
  copies : ∀ f ∈ resolved.files, f.2.IsCopy g.fetch
  missing : ∃ absent : List (String × String), resolved.missing = absent.map Prod.fst ∧ (absent.map Prod.snd).Nodup ∧
    (∀ path, path ∈ absent.map Prod.snd ↔ g.Within depth path ∧ g.fetch path = .ok none) ∧
    ∀ l ∈ absent, ∃ n < depth, ∃ importer, g.Chain n importer ∧ g.Writes importer l.1 l.2

theorem Resolution.Level.isExact {g : ImportGraph} {depth : Nat} {asked : List (String × String)} {r : Resolution}
    (h : Level g depth asked r) (sound : Sound g.extract g.fetch g.primary r)
    (ascending : Ascending.IsAscending Prod.fst r.resolved.files) : r.resolved.IsExact g depth where
  keys := ascending.nodup_keys
  distinct := sound.paths.nodup_iff.mpr (h.distinct.filter _)
  files := fun path => by
    rw [sound.paths.mem_iff, List.mem_filter, h.reach, ImportGraph.within_iff]
    simp only [Bool.and_eq_true, decide_eq_true_eq]
    constructor
    · rintro ⟨chain, other, there⟩
      exact ⟨⟨other, chain⟩, there⟩
    · rintro ⟨⟨other, chain⟩, there⟩
      exact ⟨chain, other, there⟩
  copies := sound.copies
  missing := by
    have distinct := h.distinct
    rw [h.seen, List.nodup_append] at distinct
    have asked_iff : ∀ path, path ∈ asked.map Prod.snd ↔ g.Within depth path := by
      intro path
      rw [ImportGraph.within_iff, ← h.reach, h.seen, List.mem_append, List.mem_reverse, List.mem_singleton]
      constructor
      · intro hp
        exact ⟨distinct.2.2 path (List.mem_reverse.mpr hp) g.primary (List.mem_singleton_self _), .inl hp⟩
      · rintro ⟨other, hp⟩
        exact hp.resolve_right other
    refine ⟨asked.filter fun l => isAbsent g.fetch l.2, h.missing, ?_, fun path => ?_, fun l hl => ?_⟩
    · have each := (List.filter_sublist (p := fun l => isAbsent g.fetch l.2) (l := asked)).map Prod.snd
      exact each.nodup ((List.reverse_perm _).nodup_iff.mp distinct.1)
    · rw [← asked_iff, List.mem_map, List.mem_map]
      constructor
      · rintro ⟨l, hl, rfl⟩
        obtain ⟨hl, absent⟩ := List.mem_filter.mp hl
        exact ⟨⟨l, hl, rfl⟩, isAbsent_iff.mp absent⟩
      · rintro ⟨⟨l, hl, rfl⟩, absent⟩
        exact ⟨l, List.mem_filter.mpr ⟨hl, isAbsent_iff.mpr absent⟩, rfl⟩
    · exact h.written l (List.mem_filter.mp hl).1

/-- If the remote answers for all paths within the bound, imports are resolved to exactly those paths. If it fails for
any of them, the resolution fails as it does for one of them. -/
theorem resolveImports_exact (extract : String → String → List ImportRef) (remote : Remote)
    (repository reference : String) (now : Timestamp) (depth : Nat) (path content : String) :
    let g : ImportGraph := ⟨extract, remote.text repository reference, Path.normalize path, content⟩
    let result := resolveImports extract (remote.text repository reference) now depth path content
    ((∀ q, g.Within depth q → ∃ found, g.fetch q = .ok found) →
      ∃ resolved, result = .ok resolved ∧ resolved.IsExact g depth) ∧
    ((∃ q e, g.Within depth q ∧ g.fetch q = .error e) →
      ∃ q e, g.Within depth q ∧ g.fetch q = .error e ∧ result = .error e) := by
  intro g result
  have outcome := Resolution.level_levels now (Resolution.level_start (g := g)) depth
  rw [Nat.zero_add] at outcome
  have result_eq : result = Resolution.levels g.extract g.fetch now depth (Resolution.start g.primary g.content) >>=
      fun r => pure r.resolved := rfl
  rcases outcome with ⟨asked, r, answered, level⟩ | ⟨q, e, within, fails, failed⟩
  · have sound := Resolution.sound_levels (Resolution.sound_start content) answered
    have empty : Ascending.IsAscending Prod.fst (Resolution.start g.primary g.content).resolved.files := List.Pairwise.nil
    have ascending := Resolution.ascending_levels empty answered
    have resolved : result = .ok r.resolved := by
      rw [result_eq, answered]
      rfl
    refine ⟨fun _ => ⟨r.resolved, resolved, level.isExact sound ascending⟩, ?_⟩
    -- All paths within the bound were asked for and answered.
    rintro ⟨q, e, within, fails⟩
    obtain ⟨other, reached⟩ := ImportGraph.within_iff.mp within
    have seen := (level.reach q).mpr reached
    rw [level.seen, List.mem_append, List.mem_reverse, List.mem_singleton] at seen
    obtain ⟨l, hl, rfl⟩ := List.mem_map.mp (seen.resolve_right other)
    obtain ⟨found, answer⟩ := level.answered l hl
    rw [answer] at fails
    contradiction
  · have error : result = .error e := by
      rw [result_eq, failed]
      rfl
    refine ⟨fun all => ?_, fun _ => ⟨q, e, within, fails, error⟩⟩
    obtain ⟨found, answer⟩ := all q within
    rw [answer] at fails
    contradiction

namespace ImportGraph.Sample

/-- Each line of a text is an import. -/
def extract (_ text : String) : List ImportRef :=
  (Text.lines text.toList).map fun line => ⟨String.ofList line, .wdl⟩

/-- Two files write the same path and mean two files. One of them leads back to the start, and one file is not there. -/
def files : List (String × String) :=
  [("/a/x", "t\nhttp://web/w\n../m"), ("/b/x", "file://t\n/gone"), ("/a/t", ""), ("/b/t", "u"), ("/b/u", "")]

def content : String := "a/x\nb/x"

/-- The remote fails for one of the files, if for any. -/
def remote (failing : Option String) : Remote where
  list := fun _ => .ok []
  file := fun repository reference path =>
    if failing = some path then .error (.remoteFetch repository reference path "502 Bad Gateway")
    else .ok ((files.lookup path).map String.toUTF8)

def fetch (failing : Option String) : String → Except SyncError (Option String) :=
  (remote failing).text "org/repo" "main"

def graph (failing : Option String) : ImportGraph := ⟨extract, fetch failing, "/m", content⟩

def now : Timestamp := ⟨"2025-04-01T00:00:00Z", by decide +kernel⟩

end ImportGraph.Sample

open ImportGraph.Sample in
theorem sample_imports_resolved :
    (∃ resolved, resolveImports extract (fetch none) now 2 "m" content = .ok resolved ∧
      resolved.IsExact (graph none) 2) ∧
    ∃ q e, fetch (some "/b/t") q = .error e ∧
      resolveImports extract (fetch (some "/b/t")) now 2 "m" content = .error e := by
  have answered : ∀ q, ∃ found, fetch none q = .ok found := fun q => ⟨_, rfl⟩
  have first : (graph (some "/b/t")).Writes "/m" "b/x" "/b/x" :=
    ⟨content, rfl, ⟨"b/x", .wdl⟩, by decide, by decide, by decide, by decide⟩
  have second : (graph (some "/b/t")).Writes "/b/x" "t" "/b/t" :=
    ⟨"file://t\n/gone", by decide +kernel, ⟨"file://t", .wdl⟩, by decide, by decide, by decide, by decide⟩
  have chain : (graph (some "/b/t")).Chain 2 "/b/t" :=
    .next (.next .start (fun zero => absurd zero (Nat.lt_irrefl 0)) first) (fun _ => by decide +kernel) second
  have within : (graph (some "/b/t")).Within 2 "/b/t" :=
    ImportGraph.within_iff.mpr ⟨by decide, 2, Nat.le_refl 2, chain⟩
  have fails : fetch (some "/b/t") "/b/t" = .error (.remoteFetch "org/repo" "main" "/b/t" "502 Bad Gateway") := rfl
  have resolved := (resolveImports_exact extract (remote none) "org/repo" "main" now 2 "m" content).1
    fun q _ => answered q
  have failed := (resolveImports_exact extract (remote (some "/b/t")) "org/repo" "main" now 2 "m" content).2
    ⟨"/b/t", _, within, fails⟩
  obtain ⟨q, e, -, unanswered, result⟩ := failed
  exact ⟨resolved, q, e, unanswered, result⟩

end WorkflowCatalog
