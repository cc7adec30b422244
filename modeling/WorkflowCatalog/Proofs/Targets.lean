import WorkflowCatalog.Proofs.Reach

/-!
# What becomes of an import

The imports of every file that is less far from the start than the bound are followed. So each of them is accounted for:
it leads to the primary descriptor or to a file that was found, its path is among the missing ones as some file writes
it, or it is listed as a web resource.
-/
namespace WorkflowCatalog

open Resolution (destination)

/-- Where a local import leads is the primary descriptor, or a file that was found, or a place with nothing, which is
listed as some file writes it. A web resource is listed itself. -/
inductive ImportGraph.Accounts (g : ImportGraph) (resolved : ResolvedImports) (importer target : String) : Prop
  | web (url : Path.isUrl target = true) (listed : target ∈ resolved.skippedUrls)
  | primary (here : Path.isUrl target = false)
      (leads : destination importer (Path.dropFileScheme target) = g.primary)
  | file {f : String × SourceFile} (here : Path.isUrl target = false) (found : f ∈ resolved.files)
      (leads : destination importer (Path.dropFileScheme target) = f.2.absolutePath)
  | missing {other written : String} (here : Path.isUrl target = false) (listed : written ∈ resolved.missing)
      (writes : g.Writes other written (destination importer (Path.dropFileScheme target)))
      (absent : g.fetch (destination importer (Path.dropFileScheme target)) = .ok none)

namespace Resolution

variable {fetch : String → Except SyncError (Option String)} {now : Timestamp} {g : ImportGraph} {r r' : Resolution}

/-! ## Web resources -/

/-- The web resources among the imports of a file. -/
def webTargets (extract : String → String → List ImportRef) (file : String × String) : List String :=
  ((extract file.1 file.2).filter fun i => Path.isUrl i.path).map ImportRef.path

theorem skippedUrls_follow {importer : String} {i : ImportRef} (h : follow fetch now importer r i = .ok r') :
    r'.resolved.skippedUrls = r.resolved.skippedUrls ++ if Path.isUrl i.path then [i.path] else [] := by
  unfold follow at h
  split at h
  · rename_i url
    rw [if_pos url, ← Except.ok.inj h]
  · rename_i url
    rw [if_neg url, List.append_nil]
    dsimp only at h
    split at h
    · rw [Except.ok.inj h]
    · cases answer : fetch (destination importer (Path.dropFileScheme i.path)) with
      | error e => simp [answer, bind, Except.bind] at h
      | ok found =>
        rw [answer] at h
        cases found with
        | none => rw [← Except.ok.inj h]
        | some text => rw [← Except.ok.inj h, ResolvedImports.addFile]

/-- A list that every step adds to has at the end what each of them added. -/
theorem foldlM_appends {ε α β γ : Type} {f : β → α → Except ε β} (kept : β → List γ) {adds : α → List γ}
    (step : ∀ b a b', f b a = .ok b' → kept b' = kept b ++ adds a) {as : List α} {b b' : β}
    (h : as.foldlM f b = .ok b') : kept b' = kept b ++ as.flatMap adds := by
  induction as generalizing b with
  | nil => rw [Except.ok.inj h, List.flatMap_nil, List.append_nil]
  | cons a as ih =>
    rw [List.foldlM_cons] at h
    obtain ⟨c, first, h⟩ := bind_eq_ok.mp h
    rw [ih h, step b a c first, List.flatMap_cons, List.append_assoc]

theorem skippedUrls_followFile {extract : String → String → List ImportRef} {file : String × String}
    (h : followFile extract fetch now r file = .ok r') :
    r'.resolved.skippedUrls = r.resolved.skippedUrls ++ webTargets extract file := by
  rw [foldlM_appends (fun r => r.resolved.skippedUrls) (fun _ _ _ => skippedUrls_follow) h, webTargets]
  congr 1
  induction extract file.1 file.2 with
  | nil => rfl
  | cons i is ih => by_cases url : Path.isUrl i.path = true <;> simp [url, ih]

/-- What every file that was found so far imports from the web is listed, if the imports of the file were followed. -/
structure Heard (g : ImportGraph) (level : Nat) (r : Resolution) : Prop where
  inner : ∀ n < level, ∀ importer text, g.Chain n importer → g.text? importer = some text →
    ∀ target ∈ webTargets g.extract (importer, text), target ∈ r.resolved.skippedUrls
  outer : ∀ importer ∈ r.seen, ∀ text, g.text? importer = some text →
    (∀ target ∈ webTargets g.extract (importer, text), target ∈ r.resolved.skippedUrls) ∨ (importer, text) ∈ r.queue

theorem heard_start : Heard g 0 (start g.primary g.content) where
  inner := fun n below => absurd below (Nat.not_lt_zero n)
  outer := by
    intro importer first text known
    rw [start, List.mem_singleton] at first
    subst first
    rw [ImportGraph.text?, if_pos rfl] at known
    exact .inr (Option.some.inj known ▸ List.mem_singleton_self _)

variable {level : Nat} {asked more : List (String × String)}

theorem Heard.next (heard : Heard g level r) (h : Level g level asked r) (h' : Level g (level + 1) (asked ++ more) r')
    (step : Extends g.fetch { r with queue := [] } more r')
    (run : r.queue.foldlM (followFile g.extract g.fetch now) { r with queue := [] } = .ok r') :
    Heard g (level + 1) r' := by
  have skipped : r'.resolved.skippedUrls = r.resolved.skippedUrls ++ r.queue.flatMap (webTargets g.extract) :=
    foldlM_appends (fun r => r.resolved.skippedUrls) (fun _ _ _ => skippedUrls_followFile) run
  have told : ∀ importer ∈ r.seen, ∀ text, g.text? importer = some text →
      ∀ target ∈ webTargets g.extract (importer, text), target ∈ r'.resolved.skippedUrls := by
    intro importer seen text known target member
    rw [skipped, List.mem_append, List.mem_flatMap]
    rcases heard.outer importer seen text known with listed | queued
    · exact .inl (listed target member)
    · exact .inr ⟨_, queued, member⟩
  refine ⟨fun n below importer text chain known => ?_, fun importer seen text known => ?_⟩
  · exact told importer ((h.reach importer).mpr ⟨n, Nat.le_of_lt_succ below, chain⟩) text known
  · rcases step.mem_seen.mp seen with new | old
    · -- A file that was found in this level is not the primary descriptor, so its text was fetched.
      have other : importer ≠ g.primary := by
        rintro rfl
        have distinct := h'.distinct
        rw [step.seen, List.nodup_append] at distinct
        exact distinct.2.2 _ (List.mem_reverse.mpr new) _ h.primary_mem rfl
      exact .inr ((step.queue _).mpr (.inr ⟨new, (ImportGraph.text?_of_ne other).mp known⟩))
    · exact .inl (told importer old text known)

theorem heard_levels {depth : Nat} (heard : Heard g level r) (h : Level g level asked r)
    (run : levels g.extract g.fetch now depth r = .ok r') : Heard g (level + depth) r' := by
  induction depth generalizing level asked r with
  | zero => exact Except.ok.inj run ▸ heard
  | succ depth ih =>
    rw [levels_succ] at run
    obtain ⟨between, first, run⟩ := bind_eq_ok.mp run
    have one : Asks g.fetch { r with queue := [] } (r.queue.flatMap (fileLinks g.extract))
        (r.queue.foldlM (followFile g.extract g.fetch now) { r with queue := [] }) := asks_level g.extract r.queue _
    rw [first] at one
    cases one with
    | answered step only all =>
      have h' := h.next step only all
      have rest := ih (heard.next h h' step first) h' run
      rwa [show level + 1 + depth = level + (depth + 1) by omega] at rest

end Resolution

/-! ## Imports of a resolution -/

namespace ImportGraph

variable {g : ImportGraph} {n depth : Nat} {importer text : String}

/-- A file that lies between the start and another one is there. -/
theorem IsDistance.next (distance : g.IsDistance n importer) (known : g.text? importer = some text)
    {written path : String} (writes : g.Writes importer written path) : g.Chain (n + 1) path := by
  refine .next distance.1 (fun positive => ?_) writes
  have other : importer ≠ g.primary := by
    rintro rfl
    exact absurd (distance.2 0 .start) (Nat.not_le_of_lt positive)
  simp [isThere, (text?_of_ne other).mp known]

theorem walked_of_resolved {now : Timestamp} {resolved : ResolvedImports} {path : String}
    (start : g.primary = Path.normalize path)
    (run : resolveImports g.extract g.fetch now depth path g.content = .ok resolved) :
    ∃ r, Resolution.levels g.extract g.fetch now depth (.start g.primary g.content) = .ok r ∧
      r.resolved = resolved := by
  rw [resolveImports, ← start] at run
  obtain ⟨r, walked, same⟩ := bind_eq_ok.mp run
  exact ⟨r, walked, Except.ok.inj same⟩

/-- A file that was found has the text that was found at its path. -/
theorem text?_of_found {now : Timestamp} {resolved : ResolvedImports} {path : String}
    (start : g.primary = Path.normalize path)
    (run : resolveImports g.extract g.fetch now depth path g.content = .ok resolved) {f : String × SourceFile}
    (found : f ∈ resolved.files) (has : f.2.content = some text) : g.text? f.2.absolutePath = some text := by
  obtain ⟨r, walked, rfl⟩ := walked_of_resolved start run
  have sound := Resolution.sound_levels (Resolution.sound_start g.content) walked
  have kept := List.mem_filter.mp (sound.paths.mem_iff.mp (List.mem_map_of_mem found))
  obtain ⟨text', has', answer⟩ := sound.copies f found
  obtain rfl := Option.some.inj (has'.symm.trans has)
  exact (text?_of_ne (by simpa using (Bool.and_eq_true_iff.mp kept.2).1)).mpr answer

/-- If the resolution succeeds, the imports of a file that is less far from the start than the bound are accounted
for. -/
theorem accounts_of_resolved {now : Timestamp} {resolved : ResolvedImports} {path : String}
    (start : g.primary = Path.normalize path)
    (run : resolveImports g.extract g.fetch now depth path g.content = .ok resolved) (below : n < depth)
    (distance : g.IsDistance n importer) (known : g.text? importer = some text) {i : ImportRef}
    (imported : i ∈ g.extract importer text) : g.Accounts resolved importer i.path := by
  obtain ⟨r, walked, rfl⟩ := walked_of_resolved start run
  by_cases url : Path.isUrl i.path = true
  · have heard := Resolution.heard_levels Resolution.heard_start Resolution.level_start walked
    refine .web url (heard.inner n (by omega) importer text distance.1 known i.path ?_)
    exact List.mem_map.mpr ⟨i, List.mem_filter.mpr ⟨imported, url⟩, rfl⟩
  · have here : Path.isUrl i.path = false := by simpa using url
    have writes : g.Writes importer (Path.dropFileScheme i.path) (destination importer (Path.dropFileScheme i.path)) :=
      ⟨text, known, i, imported, here, rfl, rfl⟩
    have chain := distance.next known writes
    generalize leads : destination importer (Path.dropFileScheme i.path) = target at chain writes
    by_cases same : target = g.primary
    · exact .primary here (leads.trans same)
    · rcases Resolution.level_levels now (Resolution.level_start (g := g)) depth with
        ⟨asked, r', answered, level⟩ | ⟨q, e, -, -, failed⟩
      · obtain rfl := Except.ok.inj (walked.symm.trans answered)
        rw [Nat.zero_add] at level
        have seen : target ∈ r.seen := (level.reach target).mpr ⟨n + 1, below, chain⟩
        have asked_for := seen
        rw [level.seen, List.mem_append, List.mem_reverse, List.mem_singleton] at asked_for
        obtain ⟨l, member, rfl⟩ := List.mem_map.mp (asked_for.resolve_right same)
        obtain ⟨found, answer⟩ := level.answered l member
        cases found with
        | none =>
          obtain ⟨-, -, other, -, writes⟩ := level.written l member
          have listed : l.1 ∈ r.resolved.missing := by
            rw [level.missing]
            exact List.mem_map_of_mem (List.mem_filter.mpr ⟨member, isAbsent_iff.mpr answer⟩)
          exact .missing here listed (leads ▸ writes) (leads ▸ answer)
        | some text =>
          have sound := Resolution.sound_levels (Resolution.sound_start g.content) walked
          have kept : l.2 ∈ r.seen.filter fun path => path ≠ g.primary && isThere g.fetch path :=
            List.mem_filter.mpr ⟨seen, by simp [same, isThere, answer]⟩
          obtain ⟨f, found, place⟩ := List.mem_map.mp (sound.paths.mem_iff.mpr kept)
          exact .file here found (leads.trans place.symm)
      · rw [walked] at failed
        contradiction

end ImportGraph

/-- Of the text of the primary descriptor, only its imports count. -/
theorem resolveImports_congr {m : Type → Type} [Monad m] [LawfulMonad m] {extract : String → String → List ImportRef}
    {path content content' : String}
    (same : extract (Path.normalize path) content = extract (Path.normalize path) content')
    (fetch : String → m (Option String)) (now : Timestamp) (depth : Nat) :
    resolveImports extract fetch now depth path content = resolveImports extract fetch now depth path content' := by
  rw [resolveImports, resolveImports]
  cases depth with
  | zero => rw [Resolution.levels, Resolution.levels, pure_bind, pure_bind]; rfl
  | succ depth =>
    simp only [Resolution.levels, Resolution.start, List.isEmpty_cons, List.foldlM_cons, List.foldlM_nil,
      Resolution.followFile, same, Bool.false_eq_true, if_false]

end WorkflowCatalog
