import WorkflowCatalog.Proofs.Builds
import WorkflowCatalog.Proofs.Manifests

/-!
# What imports lead to

Following imports asks for no path twice. Of the paths that were asked for, those that are there have one file
each, with the text that was found at the path, and no file takes the place of another.
-/
namespace WorkflowCatalog

open Fetch

/-! ## What the remote answers -/

section Answers

variable {α β : Type}

theorem answer_foldlM {f : β → α → Fetch β} (h : ∀ b a, IsSteady (f b a)) (b : β) (xs : List α) :
    (xs.foldlM f b).answer = xs.foldlM (fun b a => (f b a).answer) b := by
  induction xs generalizing b with
  | nil => rfl
  | cons a xs ih =>
    rw [List.foldlM_cons, answer_bind (h b a) fun b => steady_foldlM h b xs, List.foldlM_cons]
    simp only [ih]

variable {extract : String → String → List ImportRef} {fetch : String → Fetch (Option String)} {now : Timestamp}

theorem Resolution.answer_follow (h : ∀ path, IsSteady (fetch path)) (importer : String) (r : Resolution)
    (i : ImportRef) :
    (follow fetch now importer r i).answer = follow (fun path => (fetch path).answer) now importer r i := by
  unfold follow
  split
  · rfl
  · dsimp only
    split
    · rfl
    · rw [answer_bind (h _) fun found => by cases found <;> exact steady_pure _]
      congr 1
      funext found
      cases found <;> rfl

theorem Resolution.answer_levels (h : ∀ path, IsSteady (fetch path)) (depth : Nat) (r : Resolution) :
    (levels extract fetch now depth r).answer = levels extract (fun path => (fetch path).answer) now depth r := by
  have file (r : Resolution) (file : String × String) : IsSteady (followFile extract fetch now r file) :=
    steady_foldlM (steady_follow h _) r _
  have answer_file (r : Resolution) (file : String × String) :
      (followFile extract fetch now r file).answer = followFile extract (fun path => (fetch path).answer) now r file := by
    rw [followFile, answer_foldlM (steady_follow h _), followFile]
    simp only [answer_follow h]
  induction depth generalizing r with
  | zero => rfl
  | succ depth ih =>
    unfold levels
    split
    · rfl
    · rw [answer_bind (steady_foldlM file _ _) (steady_levels h depth), answer_foldlM file]
      simp only [answer_file, ih]

theorem answer_resolveImports (h : ∀ path, IsSteady (fetch path)) (depth : Nat) (path content : String) :
    (resolveImports extract fetch now depth path content).answer =
      resolveImports extract (fun path => (fetch path).answer) now depth path content := by
  rw [resolveImports, answer_bind (Resolution.steady_levels h depth _) fun _ => steady_pure _,
    Resolution.answer_levels h]
  rfl

end Answers

/-! ## Following imports -/

/-- The content of the file is the text at its path. -/
def SourceFile.IsCopy (fetch : String → Except SyncError (Option String)) (f : SourceFile) : Prop :=
  ∃ text, f.content = some text ∧ fetch f.absolutePath = .ok (some text)

/-- Whether there is a file at the path. -/
def isThere (fetch : String → Except SyncError (Option String)) (path : String) : Bool :=
  match fetch path with
  | .ok (some _) => true
  | _ => false

theorem foldlM_induction {ε α β : Type} {f : β → α → Except ε β} {P : β → Prop} {xs : List α}
    (step : ∀ b, P b → ∀ a ∈ xs, ∀ b', f b a = .ok b' → P b') {b b' : β} (hb : P b) (h : xs.foldlM f b = .ok b') :
    P b' := by
  induction xs generalizing b with
  | nil => exact Except.ok.inj h ▸ hb
  | cons a xs ih =>
    rw [List.foldlM_cons] at h
    obtain ⟨c, hc, h⟩ := bind_eq_ok.mp h
    exact ih (fun b hb a ha => step b hb a (List.mem_cons_of_mem _ ha)) (step b hb a List.mem_cons_self c hc) h

namespace Resolution

variable {extract : String → String → List ImportRef} {fetch : String → Except SyncError (Option String)}
  {now : Timestamp} {primary : String}

/-- What following one import may come to. -/
inductive Followed (fetch : String → Except SyncError (Option String)) (now : Timestamp) (importer : String)
    (r : Resolution) (i : ImportRef) : Resolution → Prop
  | url : Followed fetch now importer r i
      { r with resolved := { r.resolved with skippedUrls := r.resolved.skippedUrls ++ [i.path] } }
  | known : Followed fetch now importer r i r
  | missing {written path : String} (leads : destination importer written = path) (fresh : path ∉ r.seen)
      (absent : fetch path = .ok none) :
      Followed fetch now importer r i
        ⟨path :: r.seen, { r.resolved with missing := r.resolved.missing ++ [written] }, r.queue⟩
  | found {written path text : String} (leads : destination importer written = path) (fresh : path ∉ r.seen)
      (there : fetch path = .ok (some text)) :
      Followed fetch now importer r i
        ⟨path :: r.seen, r.resolved.addFile written (.fetched now i.type written path text), r.queue ++ [(path, text)]⟩

theorem followed {importer : String} {r r' : Resolution} {i : ImportRef}
    (h : follow fetch now importer r i = .ok r') : Followed fetch now importer r i r' := by
  unfold follow at h
  split at h
  · exact Except.ok.inj h ▸ .url
  · dsimp only at h
    split at h
    · exact Except.ok.inj h ▸ .known
    · rename_i fresh
      rw [List.contains_iff_mem] at fresh
      cases hf : fetch (destination importer (Path.dropFileScheme i.path)) with
      | error e => simp [hf, bind, Except.bind] at h
      | ok found =>
        rw [hf] at h
        cases found with
        | none => exact Except.ok.inj h ▸ .missing rfl fresh hf
        | some text => exact Except.ok.inj h ▸ .found rfl fresh hf

/-- What is known of files that were found so far. Files are listed by a text that is the path itself where it looks
like one, so a path that was not asked for is free. -/
structure Sound (extract : String → String → List ImportRef) (fetch : String → Except SyncError (Option String))
    (primary : String) (r : Resolution) : Prop where
  distinct : r.seen.Nodup
  start : primary ∈ r.seen
  paths : (r.resolved.files.map fun f => f.2.absolutePath).Perm
    (r.seen.filter fun path => path ≠ primary && isThere fetch path)
  keys : ∀ f ∈ r.resolved.files, Path.normalize f.1 = f.1 → f.2.absolutePath = f.1
  copies : ∀ f ∈ r.resolved.files, f.2.IsCopy fetch
  types : ∀ f ∈ r.resolved.files, ∃ path text, ∃ i ∈ extract path text, f.2.type = i.type

theorem sound_start (content : String) : Sound extract fetch primary (start primary content) where
  distinct := List.pairwise_singleton _ primary
  start := List.mem_singleton_self primary
  paths := by simp [start, ResolvedImports.empty]
  keys := fun f hf => absurd hf List.not_mem_nil
  copies := fun f hf => absurd hf List.not_mem_nil
  types := fun f hf => absurd hf List.not_mem_nil

/-- The text that a file is listed by. -/
theorem addFile_eq (resolved : ResolvedImports) (written : String) (f : SourceFile) :
    ∃ key, (key = written ∧ key ∉ resolved.files.map Prod.fst ∨ key = f.absolutePath) ∧
      resolved.addFile written f = { resolved with files := Ascending.put Prod.fst (key, f) resolved.files } := by
  unfold ResolvedImports.addFile
  by_cases taken : resolved.hasKey written = true
  · exact ⟨f.absolutePath, .inr rfl, by simp [taken]⟩
  · refine ⟨written, .inl ⟨rfl, ?_⟩, by simp [taken]⟩
    simpa [ResolvedImports.hasKey] using taken

theorem Sound.followed {importer : String} {r r' : Resolution} {i : ImportRef} (h : Sound extract fetch primary r)
    (imported : ∃ path text, i ∈ extract path text) (step : Followed fetch now importer r i r') :
    Sound extract fetch primary r' := by
  cases step with
  | url => exact ⟨h.distinct, h.start, h.paths, h.keys, h.copies, h.types⟩
  | known => exact h
  | missing leads fresh absent =>
    refine ⟨List.nodup_cons.mpr ⟨fresh, h.distinct⟩, List.mem_cons_of_mem _ h.start, ?_, h.keys, h.copies, h.types⟩
    rw [List.filter_cons_of_neg (by simp [isThere, absent])]
    exact h.paths
  | @found written path text leads fresh there =>
    have canonical : Path.normalize path = path := leads ▸ Path.normalize_resolve _ _
    obtain ⟨key, choice, e⟩ := addFile_eq r.resolved written (.fetched now i.type written path text)
    have free : key ∉ r.resolved.files.map Prod.fst := by
      rcases choice with ⟨-, free⟩ | same
      · exact free
      · -- A file that is listed by this path would be at the path, which was not asked for yet.
        intro taken
        obtain ⟨f, hf, listed⟩ := List.mem_map.mp taken
        have by_path : f.1 = path := listed.trans same
        have at_path : f.2.absolutePath = path := (h.keys f hf (by_path ▸ canonical)).trans by_path
        have asked := h.paths.subset (List.mem_map.mpr ⟨f, hf, at_path⟩)
        exact fresh (List.mem_filter.mp asked).1
    have joins := Ascending.perm_put (a := (key, SourceFile.fetched now i.type written path text)) free
    have each {P : String × SourceFile → Prop} (new : P (key, .fetched now i.type written path text))
        (old : ∀ f ∈ r.resolved.files, P f) :
        ∀ f ∈ (r.resolved.addFile written (.fetched now i.type written path text)).files, P f := by
      rw [e]
      intro f hf
      exact (List.forall_mem_cons.mpr ⟨new, old⟩) f (joins.subset hf)
    refine ⟨List.nodup_cons.mpr ⟨fresh, h.distinct⟩, List.mem_cons_of_mem _ h.start, ?_, each ?_ h.keys,
      each ⟨text, rfl, there⟩ h.copies, each ?_ h.types⟩
    · have elsewhere : path ≠ primary := fun same => fresh (same ▸ h.start)
      rw [e, List.filter_cons_of_pos (by simp [elsewhere, isThere, there])]
      exact (joins.map _).trans (h.paths.cons path)
    · intro canonical_key
      rcases choice with ⟨same, -⟩ | same
      · subst same
        exact leads.symm.trans (Path.resolve_of_normalize_eq canonical_key _)
      · exact same.symm
    · obtain ⟨file, text, hi⟩ := imported
      exact ⟨file, text, i, hi, rfl⟩

/-- What each import that is followed keeps up, and an emptied queue as well, holds at the end. -/
theorem levels_induction {P : Resolution → Prop} (emptied : ∀ r, P r → P { r with queue := [] })
    (step : ∀ r importer i r', (∃ path text, i ∈ extract path text) → Followed fetch now importer r i r' → P r → P r')
    {depth : Nat} {r r' : Resolution} (hr : P r) (h : levels extract fetch now depth r = .ok r') : P r' := by
  induction depth generalizing r with
  | zero => exact Except.ok.inj h ▸ hr
  | succ depth ih =>
    unfold levels at h
    split at h
    · exact Except.ok.inj h ▸ hr
    · obtain ⟨next, hn, h⟩ := bind_eq_ok.mp h
      refine ih ?_ h
      refine foldlM_induction (fun r hr file _ r' hf => ?_) (emptied r hr) hn
      exact foldlM_induction (fun r hr i hi r' h => step r file.1 i r' ⟨_, _, hi⟩ (followed h) hr) hr hf

theorem sound_levels {depth : Nat} {r r' : Resolution} (hr : Sound extract fetch primary r)
    (h : levels extract fetch now depth r = .ok r') : Sound extract fetch primary r' :=
  levels_induction (fun _ hr => ⟨hr.distinct, hr.start, hr.paths, hr.keys, hr.copies, hr.types⟩)
    (fun _ _ _ _ imported step hr => hr.followed imported step) hr h

end Resolution

end WorkflowCatalog
