import WorkflowCatalog.Descriptor.Resolver
import WorkflowCatalog.Proofs.Statements
import WorkflowCatalog.Proofs.Targets

/-!
# Configurations

A configuration is scanned as one if its name says so, be it the primary descriptor or a file that was included. What
such a file includes is accounted for. A comment in front of a configuration changes nothing that is looked for at the
starts of lines. It counts only if a setting of the main script begins in it.
-/
namespace WorkflowCatalog

open Resolution (destination)

namespace Nextflow

/-! ## What a configuration includes -/

/-- A line of the text begins with `includeConfig` and this target in quotes, and no earlier one runs into it. -/
def Includes (text target : String) : Prop := Statement.Stands (Statement.Names "includeConfig") text.toList target

theorem isWord_includeConfig : Statement.IsWord "includeConfig" := ⟨'i', "ncludeConfig".toList, rfl, by decide⟩

theorem includedConfig?_eq : includedConfig? = Statement.named? "includeConfig" :=
  funext fun _ => Statement.behind?_map _

/-- Each include of a file that is named like a configuration is one of its imports. -/
theorem exists_import_of_includes (primary : String) {file text target : String} (config : isConfig file = true)
    (includes : Includes text target) : ∃ i ∈ allImports primary file text, i.path = target := by
  refine ⟨⟨target, .nextflowConfig⟩, List.mem_append_left _ ?_, rfl⟩
  rw [imports, if_pos config, includedConfig?_eq]
  exact List.mem_map_of_mem (includes.mem_atLines (Statement.readsInLine_named isWord_includeConfig))

end Nextflow

/-- If imports are resolved, every include of the primary descriptor, and of every file that was found as a
configuration and is less far from it than the bound, is accounted for, provided that the file is named like a
configuration. -/
theorem includes_accounted (remote : Remote) (repository reference : String) (now : Timestamp) (depth : Nat)
    (path content : String) {resolved : ResolvedImports}
    (done : resolveImports (Language.nextflow.importsFrom (Path.normalize path)) (remote.text repository reference) now
      depth path content = .ok resolved) :
    let g : ImportGraph := ⟨Language.nextflow.importsFrom (Path.normalize path), remote.text repository reference,
      Path.normalize path, content⟩
    ∀ n < depth, ∀ file text, g.IsDistance n file →
      (file = g.primary ∧ text = content ∨ ∃ f ∈ resolved.files,
        f.2.type = .nextflowConfig ∧ f.2.absolutePath = file ∧ f.2.content = some text) →
      Nextflow.isConfig file = true → ∀ target, Nextflow.Includes text target → g.Accounts resolved file target := by
  intro g n below file text distance stored config target includes
  have known : g.text? file = some text := by
    rcases stored with ⟨rfl, rfl⟩ | ⟨f, found, -, rfl, has⟩
    · exact if_pos rfl
    · exact ImportGraph.text?_of_found rfl done found has
  obtain ⟨i, imported, rfl⟩ := Nextflow.exists_import_of_includes g.primary config includes
  exact ImportGraph.accounts_of_resolved rfl done below distance known imported

namespace Nextflow.Sample

/-- A configuration that includes one of this name, and that one includes another. -/
def content (name : String) : String := "includeConfig 'conf/" ++ name ++ "'"

def included : String := "\n  includeConfig \"more.config\" // all of it"

def remote (name : String) : Remote where
  list := fun _ => .ok []
  file := fun _ _ path =>
    .ok (([("/conf/" ++ name, included), ("/conf/more.config", ""), ("/main.nf", "")].lookup path).map String.toUTF8)

def fetch (name : String) : String → Except SyncError (Option String) := (remote name).text "org/repo" "main"

def graph (name : String) : ImportGraph :=
  ⟨Language.nextflow.importsFrom "/nextflow.config", fetch name, "/nextflow.config", content name⟩

def resolution (name : String) : Except SyncError ResolvedImports :=
  resolveImports (Language.nextflow.importsFrom "/nextflow.config") (fetch name) ImportGraph.Sample.now 10
    "/nextflow.config" (content name)

/-- What is told of a file here. -/
def facts (f : String × SourceFile) : FileType × String × Option String := (f.2.type, f.2.absolutePath, f.2.content)

/-- The included file is the first of those that are found. -/
theorem exists_resolved (name : String) (others : List (FileType × String × Option String))
    (h : (resolution name).map (fun r => (r.files.map facts, r.missing)) =
      .ok ((.nextflowConfig, "/conf/" ++ name, some included) :: others, [])) :
    ∃ resolved, resolution name = .ok resolved ∧
      resolved.files.map facts = (.nextflowConfig, "/conf/" ++ name, some included) :: others ∧ resolved.missing = [] ∧
      ∃ f ∈ resolved.files,
        f.2.type = .nextflowConfig ∧ f.2.absolutePath = "/conf/" ++ name ∧ f.2.content = some included := by
  cases run : resolution name with
  | error e => rw [run] at h; exact nomatch h
  | ok resolved =>
    rw [run] at h
    obtain ⟨listed, missing⟩ := Prod.mk.inj (Except.ok.inj h)
    obtain ⟨f, member, same⟩ := List.mem_map.mp (listed ▸ List.mem_cons_self)
    exact ⟨resolved, rfl, listed, missing, f, member, by simpa [facts] using same⟩

theorem includes_more : Includes included "more.config" := by
  have read : Statement.named? "includeConfig" included.toList = some ("more.config", " // all of it".toList) := by
    decide +kernel
  refine ⟨[], included.toList, _, rfl, rfl, (Statement.named?_eq_some_iff isWord_includeConfig).mp read, ?_⟩
  intro outer within _ _ split some_within
  exact absurd (List.append_eq_nil_iff.mp split.symm).2 some_within

/-- The included configuration is one step from the start. -/
theorem isDistance_included (name : String)
    (imports :
      (⟨"conf/" ++ name, .nextflowConfig⟩ : ImportRef) ∈ (graph name).extract "/nextflow.config" (content name))
    (here : Path.isUrl ("conf/" ++ name) = false)
    (leads : destination "/nextflow.config" (Path.dropFileScheme ("conf/" ++ name)) = "/conf/" ++ name)
    (other : "/conf/" ++ name ≠ "/nextflow.config") : (graph name).IsDistance 1 ("/conf/" ++ name) := by
  refine ⟨.next .start (fun positive => absurd positive (Nat.lt_irrefl 0))
    ⟨content name, if_pos rfl, _, imports, here, rfl, leads⟩, fun m chain => ?_⟩
  by_contra none
  exact other (ImportGraph.eq_primary_of_chain chain (by omega))

end Nextflow.Sample

open Nextflow.Sample in
/-- A configuration of another name is stored as one, and what it includes is lost. -/
theorem sample_include_lost : ∃ resolved, resolution "base.cfg" = .ok resolved ∧
    (graph "base.cfg").IsDistance 1 "/conf/base.cfg" ∧
    (∃ f ∈ resolved.files,
      f.2.type = .nextflowConfig ∧ f.2.absolutePath = "/conf/base.cfg" ∧ f.2.content = some included) ∧
    Nextflow.Includes included "more.config" ∧ ¬ (graph "base.cfg").Accounts resolved "/conf/base.cfg" "more.config" := by
  obtain ⟨resolved, run, listed, missing, stored⟩ := exists_resolved "base.cfg" [(.nextflow, "/main.nf", some "")]
    (by decide +kernel)
  have distance : (graph "base.cfg").IsDistance 1 "/conf/base.cfg" :=
    isDistance_included "base.cfg" (by decide +kernel) (by decide +kernel) (by decide +kernel) (by decide)
  refine ⟨resolved, run, distance, stored, includes_more, fun accounts => ?_⟩
  cases accounts with
  | web url => exact absurd url (by decide +kernel)
  | primary _ leads => exact absurd leads (by decide +kernel)
  | missing _ written => exact absurd written (missing ▸ List.not_mem_nil)
  | @file f _ member leads =>
    have elsewhere : ∀ x ∈ resolved.files.map facts,
        destination "/conf/base.cfg" (Path.dropFileScheme "more.config") ≠ x.2.1 := by
      rw [listed]
      decide +kernel
    exact elsewhere (facts f) (List.mem_map_of_mem member) leads

open Nextflow.Sample in
/-- Under a name that says so, the included configuration is scanned, and what it includes is found. -/
theorem sample_include_found : ∃ resolved, resolution "base.config" = .ok resolved ∧
    (graph "base.config").IsDistance 1 "/conf/base.config" ∧
    (∃ f ∈ resolved.files,
      f.2.type = .nextflowConfig ∧ f.2.absolutePath = "/conf/base.config" ∧ f.2.content = some included) ∧
    Nextflow.isConfig "/conf/base.config" = true ∧ Nextflow.Includes included "more.config" ∧
    (graph "base.config").Accounts resolved "/conf/base.config" "more.config" := by
  obtain ⟨resolved, run, -, -, stored⟩ := exists_resolved "base.config"
    [(.nextflow, "/main.nf", some ""), (.nextflowConfig, "/conf/more.config", some "")] (by decide +kernel)
  have distance : (graph "base.config").IsDistance 1 "/conf/base.config" :=
    isDistance_included "base.config" (by decide +kernel) (by decide +kernel) (by decide +kernel) (by decide)
  have config : Nextflow.isConfig "/conf/base.config" = true := by decide +kernel
  refine ⟨resolved, run, distance, stored, config, includes_more, ?_⟩
  exact includes_accounted (remote "base.config") "org/repo" "main" ImportGraph.Sample.now 10 "/nextflow.config"
    (content "base.config") run 1 (by decide) _ included distance (.inr stored) config _ includes_more

/-! ## Comments -/

namespace Nextflow

/-- A line that is a comment. -/
def comment (t : String) : String := "//" ++ t ++ "\n"

/-- The script that is named by the first setting that begins in the comment, where the configuration follows it. -/
def scriptIn (t config : String) : Option String := Statement.firstIn scriptSetting? t.toList ('\n' :: config.toList)

theorem toList_comment (t : String) : (comment t).toList = '/' :: '/' :: (t.toList ++ ['\n']) := by
  rw [comment, String.toList_append, String.toList_append]
  rfl

theorem exists_of_scriptSetting? {cs rest : List Char} {script : String}
    (read : scriptSetting? cs = some (script, rest)) : ∃ more, cs = "mainScript".toList ++ more := by
  obtain ⟨more, written, -⟩ := Option.bind_eq_some_iff.mp read
  exact ⟨more, Text.dropMark?_eq_some_iff.mp written⟩

/-- A comment that does not have the name of the setting names no script. -/
theorem scriptIn_eq_none {t : String} (unnamed : ¬ "mainScript".toList <:+: t.toList)
    (config : String) : scriptIn t config = none := by
  refine Statement.firstIn_eq_none_iff.mpr fun start _ within => ?_
  cases read : scriptSetting? (start ++ '\n' :: config.toList) with
  | none => rfl
  | some found =>
    obtain ⟨more, written⟩ := exists_of_scriptSetting? read
    refine absurd ?_ unnamed
    rcases List.append_eq_append_iff.mp written with ⟨end_, word, rest⟩ | ⟨end_, rfl, -⟩
    · cases end_ with
      | nil => exact (word.trans (List.append_nil start)) ▸ within.isInfix
      | cons c end_ =>
        obtain ⟨rfl, -⟩ := List.cons.inj rest
        exact absurd (word ▸ List.mem_append_right start List.mem_cons_self) (show '\n' ∉ "mainScript".toList by decide)
    · exact (List.prefix_append _ end_).isInfix.trans within.isInfix

theorem mainScript_comment (t config : String) :
    mainScript (comment t ++ config) = (scriptIn t config).getD (mainScript config) := by
  have slash (cs : List Char) : scriptSetting? ('/' :: cs) = none := rfl
  have newline (cs : List Char) : scriptSetting? ('\n' :: cs) = none := rfl
  have inside : Statement.firstIn scriptSetting? (comment t).toList config.toList = scriptIn t config := by
    rw [toList_comment, Statement.firstIn, Statement.firstIn, Statement.firstIn_append, Statement.firstIn,
      Statement.firstIn, List.cons_append, slash, List.cons_append, slash, List.cons_append, newline]
    simp only [Option.map_none, Option.none_or, Option.or_none]
    rfl
  rw [mainScript, Statement.first?_append, inside, mainScript]
  cases scriptIn t config <;> rfl

theorem atLines_comment {form : List Char → Option (String × List Char)} (slash : ∀ cs, form ('/' :: cs) = none)
    {t : String} (oneLine : '\n' ∉ t.toList) (config : String) :
    Statement.atLines form (comment t ++ config) = Statement.atLines form config := by
  have written : (comment t ++ config).toList = '/' :: (('/' :: t.toList) ++ '\n' :: config.toList) := by
    rw [String.toList_append, toList_comment]
    simp
  have long : (comment t ++ config).length + 1 = config.length + 1 + ('/' :: t.toList).length + 1 + 1 := by
    rw [← String.length_toList, written, ← String.length_toList (s := config)]
    simp only [List.length_cons, List.length_append]
    omega
  rw [Statement.atLines, long, written, Statement.all, Bool.true_or, if_pos rfl, slash]
  refine Statement.all_line ?_ _ _
  rw [List.mem_cons, not_or]
  exact ⟨by decide, oneLine⟩

theorem imports_comment {t : String} (oneLine : '\n' ∉ t.toList) (path config : String) :
    imports path (comment t ++ config) = imports path config := by
  have included (cs : List Char) : includedConfig? ('/' :: cs) = none := rfl
  have module (cs : List Char) : includedModule? ('/' :: cs) = none := rfl
  rw [imports, imports, atLines_comment included oneLine, atLines_comment module oneLine]

/-- A comment in front of a configuration leaves what it includes as it is, and so all that is found from there, unless
the first setting of a script that begins in the comment names another script than the configuration does. In that case
it is the script of the comment that counts. A comment without the name of the setting has none. -/
theorem comment_sets_script_at_most {t : String} (oneLine : '\n' ∉ t.toList) (config : String) :
    (∀ path, imports path (comment t ++ config) = imports path config) ∧
    mainScript (comment t ++ config) = (scriptIn t config).getD (mainScript config) ∧
    (¬ "mainScript".toList <:+: t.toList → scriptIn t config = none) ∧
    ((∀ script ∈ scriptIn t config, script = mainScript config) →
      ∀ (m : Type → Type) [Monad m] [LawfulMonad m] (fetch : String → m (Option String)) (now : Timestamp) (depth : Nat)
        (path : String),
        let extract := Language.nextflow.importsFrom (Path.normalize path)
        resolveImports extract fetch now depth path (comment t ++ config) =
          resolveImports extract fetch now depth path config) := by
  have script := mainScript_comment t config
  refine ⟨fun path => imports_comment oneLine path config, script, fun unnamed => scriptIn_eq_none unnamed config, ?_⟩
  intro agrees m _ _ fetch now depth path
  have same : mainScript (comment t ++ config) = mainScript config := by
    rw [script]
    cases named : scriptIn t config with
    | none => rfl
    | some script => exact agrees script named
  refine resolveImports_congr ?_ fetch now depth
  simp only [Language.importsFrom, allImports, imports_comment oneLine, same]

namespace Sample

def scripts : Remote where
  list := fun _ => .ok []
  file := fun _ _ path => .ok (([("/old.nf", "a"), ("/new.nf", "b")].lookup path).map String.toUTF8)

/-- The files that the configuration leads to. -/
def reached (config : String) : Except SyncError (List String) :=
  (resolveImports (Language.nextflow.importsFrom "/nextflow.config") (scripts.text "org/repo" "main")
    ImportGraph.Sample.now 10 "/nextflow.config" config).map fun r => r.files.map Prod.fst

end Sample

/-- A setting that is commented out takes the place of the one that stands. -/
theorem sample_comment_names_script : '\n' ∉ " mainScript = 'old.nf'".toList ∧
    Sample.reached "mainScript = 'new.nf'" = .ok ["new.nf"] ∧
    Sample.reached (comment " mainScript = 'old.nf'" ++ "mainScript = 'new.nf'") = .ok ["old.nf"] := by
  decide +kernel

/-- A comment may speak of the setting. -/
theorem sample_comment_passed_over : '\n' ∉ " mainScript is 'new.nf'".toList ∧
    Sample.reached "mainScript = 'new.nf'" = .ok ["new.nf"] ∧
    Sample.reached (comment " mainScript is 'new.nf'" ++ "mainScript = 'new.nf'") = .ok ["new.nf"] := by
  have oneLine : '\n' ∉ " mainScript is 'new.nf'".toList := by decide
  have silent : scriptIn " mainScript is 'new.nf'" "mainScript = 'new.nf'" = none := by decide +kernel
  have reached : Sample.reached "mainScript = 'new.nf'" = .ok ["new.nf"] := by decide +kernel
  refine ⟨oneLine, reached, ?_⟩
  rw [← reached, Sample.reached, Sample.reached]
  exact congrArg _ ((comment_sets_script_at_most oneLine "mainScript = 'new.nf'").2.2.2 (by simp [silent])
    (Except SyncError) (Sample.scripts.text "org/repo" "main") ImportGraph.Sample.now 10 "/nextflow.config")

end Nextflow

end WorkflowCatalog
