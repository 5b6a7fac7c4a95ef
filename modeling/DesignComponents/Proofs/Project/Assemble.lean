import DesignComponents.Component.Adapt
import DesignComponents.Project.Assemble
import DesignComponents.Project.Measures
import DesignComponents.Proofs.OrderedMap
import DesignComponents.Proofs.Project.Reference
import Mathlib.Data.List.Nodup

/-! The project that is assembled from a component. None of its files is lost, for no two of them have
one path; what its templates refer to is among them; and the component comes first. -/

set_option autoImplicit false

namespace DesignComponents.Project

open Text Identifier Template Style Component

/-! ### What an adapted component brings -/

def testOf (config : Config) (name : String) : Option TestFile :=
  if config.hasTests then TestFile.of? config.target name config.isTyped else none

/-- What is made of a template. -/
structure Adapted (jsx css : String) (config : Config) (name : String) (c : Component) : Prop where
  framework : c.framework = config.target
  code : c.code = (write config.target jsx css config name).code
  style : c.style = css
  additional : c.additional = .ofList ((write config.target jsx css config name).additional ++
    (testOf config name).toList.map fun t => (t.path, t.code))
  manifest : ∃ m, c.manifest = some m ∧
    m.configFiles = (write config.target jsx css config name).manifest.configFiles.insertAll
      (extrasOf config.style).configFiles

variable {jsx css name : String} {config : Config} {c : Component}

theorem adapt_some (jsx css : String) (named : config.name = .ok name) :
    ∃ c, adapt jsx css config = .ok c ∧ Adapted jsx css config name c := by
  rw [adapt, named]
  exact ⟨_, rfl, rfl, rfl, rfl, rfl, _, rfl, rfl⟩

theorem signless_of_named (named : config.name = .ok name) : Signless name.toList := by
  unfold Config.name at named
  split at named
  · cases named
    exact componentName_signless _
  · split at named
    · cases named
    · cases named
      exact componentName_signless _

/-! ### The paths of its files -/

/-- The names of the settings of frameworks and stylings. -/
def settingNames : List String :=
  ["vite.config.js", "tsconfig.json", "svelte.config.js", "angular.json", "tailwind.config.js",
    "postcss.config.js"]

theorem known_of_manifest {key : String}
    (mem : key ∈ (write config.target jsx css config name).manifest.configFiles.keys) :
    key ∈ settingNames := by
  have react : ∀ typed, ∀ key ∈ (React.manifest typed).configFiles.keys, key ∈ settingNames := by decide
  have vue : ∀ typed, ∀ key ∈ (Vue.manifest typed).configFiles.keys, key ∈ settingNames := by decide
  have angular : ∀ key ∈ Angular.manifest.configFiles.keys, key ∈ settingNames := by decide
  have svelte : ∀ typed, ∀ key ∈ (Svelte.manifest typed).configFiles.keys, key ∈ settingNames := by decide
  cases target : config.target <;> rw [target] at mem
  · exact react _ key mem
  · exact vue _ key mem
  · exact angular key mem
  · exact svelte _ key mem
  · exact nomatch mem

theorem known_of_styling (styling : Styling) :
    ∀ key ∈ (extrasOf styling).configFiles.map Prod.fst, key ∈ settingNames := by
  cases styling <;> decide

theorem Adapted.settings (adapted : Adapted jsx css config name c) {m : Manifest}
    (made : c.manifest = some m) :
    ((manifestEntries m name).map Prod.fst).Nodup ∧
      ∀ key ∈ (manifestEntries m name).map Prod.fst, key ∈ "package.json" :: settingNames := by
  obtain ⟨m', made', files⟩ := adapted.manifest
  obtain rfl : m' = m := Option.some.inj (made'.symm.trans made)
  have known : ∀ key ∈ m'.configFiles.keys, key ∈ settingNames := by
    intro key mem
    rw [files, OrderedMap.mem_keys_insertAll] at mem
    rcases mem with mem | mem
    · exact known_of_manifest mem
    · exact known_of_styling config.style key mem
  unfold manifestEntries
  split
  · rw [List.append_nil]
    exact ⟨m'.configFiles.nodup_keys, fun key mem => List.mem_cons_of_mem _ (known key mem)⟩
  · rw [List.map_append, List.map_singleton]
    refine ⟨List.nodup_append.2 ⟨m'.configFiles.nodup_keys, List.nodup_singleton _, ?_⟩, ?_⟩
    · rintro key mem _ package rfl
      rw [List.mem_singleton.1 package] at mem
      have unknown : "package.json" ∉ settingNames := by decide
      exact unknown (known _ mem)
    · intro key mem
      rcases List.mem_append.1 mem with mem | mem
      · exact List.mem_cons_of_mem _ (known key mem)
      · rw [List.mem_singleton.1 mem]
        exact List.mem_cons_self

/-- No two files of a component have the same ending. -/
theorem nodup_endings : ((locations config name).map Location.ending).Nodup := by
  unfold locations
  generalize config.target = framework
  generalize config.style = styling
  generalize config.isTyped = typed
  generalize config.hasTests = tests
  cases framework <;> cases styling <;> cases typed <;> cases tests <;> exact of_decide_eq_true rfl

theorem nodup_locations (plain : Signless name.toList) :
    ((locations config name).map Location.path).Nodup := by
  -- No folder or stem holds a point, so the endings tell the paths apart.
  refine List.Nodup.of_map (fun path => path.toList.dropWhile (· != '.')) ?_
  have endings : (locations config name).map (fun l => l.path.toList.dropWhile (· != '.')) =
      ((locations config name).map Location.ending).map String.toList := by
    rw [List.map_map]
    exact List.map_congr_left fun l mem => (proper_locations plain l mem).dropWhile_path
  rw [List.map_map]
  exact endings ▸ nodup_endings.map fun _ _ => String.toList_inj.1

theorem ending_known : ∀ l ∈ locations config name, l.ending ∈ endings := by
  unfold locations
  generalize config.target = framework
  generalize config.style = styling
  generalize config.isTyped = typed
  generalize config.hasTests = tests
  cases framework <;> cases styling <;> cases typed <;> cases tests <;> exact of_decide_eq_true rfl

/-- The paths and texts that a project is assembled from. -/
def entriesOf (c : Component) (config : Config) (name : String) : List (String × String) :=
  [(pathOfComponent config.target name config.isTyped, c.code),
    (pathOfStyle name config.style, textOr c.style (Fallback.style name))] ++
  c.additional.entries ++ c.manifest.toList.flatMap fun m => manifestEntries m name

theorem paths_locations (jsx css : String) : (locations config name).map Location.path =
    [pathOfComponent config.target name config.isTyped, pathOfStyle name config.style] ++
      ((write config.target jsx css config name).additional ++
        (testOf config name).toList.map fun t => (t.path, t.code)).map Prod.fst := by
  have own : (write config.target jsx css config name).additional.map Prod.fst =
      (if config.target = .angular then [moduleAt name] else []).map Location.path := by
    cases config.target with
    | angular => exact congrArg (fun path => [path]) path_moduleAt.symm
    | react | vue | svelte | html => rfl
  have tests : ((testOf config name).toList.map fun t => (t.path, t.code)).map Prod.fst =
      (if config.hasTests then (testAt? config.target name config.isTyped).toList else []).map
        Location.path := by
    unfold testOf
    split
    · have same := path_testAt config.target name config.isTyped
      cases written : TestFile.of? config.target name config.isTyped <;>
        cases located : testAt? config.target name config.isTyped <;> simp_all
    · rfl
  rw [locations, List.map_append, List.map_append, List.map_append, own, tests, List.append_assoc,
    List.map_cons, List.map_cons, List.map_nil, path_componentAt, path_styleAt]

theorem Adapted.additional_entries (adapted : Adapted jsx css config name c) (plain : Signless name.toList) :
    c.additional.entries = (write config.target jsx css config name).additional ++
      (testOf config name).toList.map fun t => (t.path, t.code) := by
  have nodup : ((locations config name).map Location.path).Nodup := nodup_locations plain
  rw [paths_locations jsx css] at nodup
  rw [adapted.additional]
  exact OrderedMap.entries_ofList (List.nodup_append.1 nodup).2.1

theorem Adapted.paths (adapted : Adapted jsx css config name c) (plain : Signless name.toList) :
    ([(pathOfComponent config.target name config.isTyped, c.code),
      (pathOfStyle name config.style, textOr c.style (Fallback.style name))] ++
      c.additional.entries).map Prod.fst = (locations config name).map Location.path := by
  rw [adapted.additional_entries plain, paths_locations jsx css, List.map_append]
  rfl

theorem Adapted.nodup_entries (adapted : Adapted jsx css config name c) (plain : Signless name.toList) :
    ((entriesOf c config name).map Prod.fst).Nodup := by
  obtain ⟨m, made, -⟩ := adapted.manifest
  obtain ⟨nodup, known⟩ := adapted.settings made
  have apart : ∀ key ∈ "package.json" :: settingNames,
      key.toList.dropWhile (· != '.') ∉ endings.map String.toList := by
    decide +kernel
  rw [entriesOf, made, Option.toList_some, List.flatMap_singleton, List.map_append, adapted.paths plain]
  -- Settings are told from the other files by what begins at their first point.
  refine List.nodup_append.2 ⟨nodup_locations plain, nodup, ?_⟩
  rintro path mem _ setting rfl
  obtain ⟨l, held, rfl⟩ := List.mem_map.1 mem
  refine apart _ (known _ setting) ?_
  rw [(proper_locations plain l held).dropWhile_path]
  exact List.mem_map_of_mem (ending_known l held)

/-- All entries become files, in their order. -/
theorem entries_firstByPath {entries : List (String × String)} (nodup : (entries.map Prod.fst).Nodup) :
    (firstByPath entries).entries = entries :=
  OrderedMap.foldl_insert_new (m := .empty) nodup

theorem assemble_some (named : config.name = .ok name) (adapted : Adapted jsx css config name c)
    (code : ∀ usual, textOr c.code usual = c.code) (planned : Layout) :
    ∃ made, assemble c planned config = .ok made ∧
      made.files = (entriesOf c config name).map (fun e => GeneratedFile.make e.1 e.2) ∧
      made.layout = planned.ofFiles made.files := by
  have nodup := adapted.nodup_entries (signless_of_named named)
  rw [assemble, named]
  refine ⟨_, rfl, ?_, rfl⟩
  rw [← entries_firstByPath nodup, entriesOf]
  simp only [code, adapted.framework]

/-! ### The component's file -/

/-- A component that is written from a template is never blank. -/
theorem code_solid (jsx css : String) (config : Config) (name : String) :
    ∃ c ∈ (write config.target jsx css config name).code.toList, isBlank c = false := by
  have start : ∀ {ls : List String} (line : String) (c : Char), line ∈ ls → c ∈ line.toList →
      isBlank c = false → ∃ c ∈ (unlines ls).toList, isBlank c = false :=
    fun line c mem held solid => ⟨c, mem_unlines mem held, solid⟩
  cases config.target with
  | react => exact start "import React from 'react';" 'i' (by simp) (by decide) (by decide)
  | vue => exact start "<template>" '<' (by simp) (by decide) (by decide)
  | angular => exact start "/**" '*' (by simp) (by decide) (by decide)
  | svelte => exact start "</style>" '<' (by simp) (by decide) (by decide)
  | html => exact start "<body>" '<' (by simp) (by decide) (by decide)

theorem Adapted.textOr_code (adapted : Adapted jsx css config name c) (usual : String) :
    textOr c.code usual = c.code := by
  obtain ⟨ch, mem, solid⟩ := code_solid jsx css config name
  rw [adapted.code, textOr, if_neg]
  rw [List.isEmpty_iff]
  exact trim_ne_nil mem solid

variable {l : Location} {content : String}

/-- Where none of their marks is in the ending the file holds neither styles nor settings. -/
theorem isMarkupOrScript_make (proper : l.Proper)
    (plain : ∀ mark ∈ [".css", ".scss", ".json"], occurs mark.toList l.ending.toList = false) :
    isMarkupOrScript (.make l.path content) = true := by
  have other : ∀ mark ∈ [".css", ".scss", ".json"], endsWith mark.toList l.path.toList = false := by
    intro mark mem
    have pointed : ∃ rest, mark.toList = '.' :: rest := by
      have all : ∀ mark ∈ [".css", ".scss", ".json"], mark.toList.head? = some '.' := by decide
      exact List.head?_eq_some_iff.1 (all mark mem)
    obtain ⟨rest, written⟩ := pointed
    rw [← Bool.not_eq_true]
    intro ends
    have suffix : mark.toList <:+ l.path.toList := by
      rw [endsWith, startsWith_iff, List.reverse_prefix] at ends
      exact ends
    have held : holds l.path mark = true := occurs_iff.2 suffix.isInfix
    rw [proper.holds_path mark written, plain mark mem] at held
    exact nomatch held
  have known : ∀ e ∈ Language.endings, e.1 ∈ [".css", ".scss", ".json"] ∨
      isMarkupOrScript { (default : GeneratedFile) with language := e.2 } = true := by
    decide
  -- The language goes by the first ending that matches, and none of these three does.
  change isMarkupOrScript { (default : GeneratedFile) with language := Language.ofPath l.path } = true
  unfold Language.ofPath
  cases found : Language.endings.find? fun e => endsWith e.1.toList l.path.toList with
  | none => rfl
  | some e =>
    have ends : endsWith e.1.toList l.path.toList = true := by simpa using List.find?_some found
    refine (known e (List.mem_of_find?_eq_some found)).resolve_left fun mark => ?_
    exact absurd ends (by simp [other e.1 mark])

theorem isTestPath_path (proper : l.Proper) (no_score : '_' ∉ l.path.toList)
    (plain : ∀ mark ∈ [".spec.", ".test."], occurs mark.toList l.ending.toList = false) :
    isTestPath l.path = false := by
  have tests : holds l.path "__tests__/" = false := by
    rw [← Bool.not_eq_true, holds, occurs_iff]
    exact fun inside => no_score (inside.subset (by decide))
  rw [isTestPath, tests, proper.holds_path ".spec." rfl, proper.holds_path ".test." rfl,
    plain ".spec." (by decide), plain ".test." (by decide)]
  rfl

variable {framework : Framework} {typed : Bool} {styling : Styling}

/-- The folder of a component's file has no underscore in it, and its ending none of these marks. -/
theorem plain_componentAt (framework : Framework) (name : String) (typed : Bool) :
    let l := componentAt framework name typed
    ('_' ∉ l.folder.flatMap fun n => n.toList ++ ['/']) ∧ '_' ∉ l.ending.toList ∧
      ∀ mark ∈ [".css", ".scss", ".json", ".spec.", ".test.", ".module."],
        occurs mark.toList l.ending.toList = false := by
  have no_folder : ∀ folder ∈ [[], ["src", "components"], ["src", "app"]],
      '_' ∉ folder.flatMap fun n : String => n.toList ++ ['/'] := by
    decide
  have no_ending : ∀ ending ∈ [".tsx", ".jsx", ".vue", ".component.ts", ".svelte", ".html"],
      '_' ∉ ending.toList ∧ ∀ mark ∈ [".css", ".scss", ".json", ".spec.", ".test.", ".module."],
        occurs mark.toList ending.toList = false := by
    decide
  refine ⟨no_folder _ ?_, no_ending _ ?_⟩ <;>
    cases framework <;> cases typed <;> exact of_decide_eq_true rfl

theorem isTestPath_component (plain : Signless name.toList) :
    isTestPath (componentAt framework name typed).path = false := by
  have proper : (componentAt framework name typed).Proper := proper_componentAt plain
  obtain ⟨no_folder, no_ending, marks⟩ := plain_componentAt framework name typed
  refine isTestPath_path proper ?_ fun mark mem => marks mark ?_
  · rw [Location.path_toList, List.mem_append, List.mem_append, not_or, not_or]
    exact ⟨⟨no_folder, proper.stem.not_mem (by decide)⟩, no_ending⟩
  · revert mark
    decide

theorem isComponent_make (plain : Signless name.toList) (scripted : framework ≠ .html) :
    isComponent (.make (componentAt framework name typed).path content) = true := by
  have under : isUnder "src/components/" (componentAt framework name typed).path = true ∨
      isUnder "src/app/" (componentAt framework name typed).path = true := by
    have starts : ∀ front stem ending : String, isUnder front (front ++ stem ++ ending) = true := by
      intro front stem ending
      rw [isUnder, startsWith_iff, String.append_assoc, String.toList_append]
      exact List.prefix_append _ _
    cases framework with
    | react =>
      rw [componentAt, path_components]
      exact .inl (starts _ _ _)
    | vue =>
      rw [componentAt, path_components]
      exact .inl (starts _ _ _)
    | angular =>
      rw [componentAt, path_app]
      exact .inr (starts _ _ _)
    | svelte =>
      rw [componentAt, path_components]
      exact .inl (starts _ _ _)
    | html => contradiction
  have no_tests : isTestPath (componentAt framework name typed).path = false := isTestPath_component plain
  have path : (GeneratedFile.make (componentAt framework name typed).path content).path =
      (componentAt framework name typed).path := rfl
  rw [isComponent, path, no_tests]
  simpa using under

theorem isMarkupOrScript_component (plain : Signless name.toList) :
    isMarkupOrScript (.make (componentAt framework name typed).path content) = true := by
  refine isMarkupOrScript_make (proper_componentAt plain) fun mark mem => ?_
  refine (plain_componentAt framework name typed).2.2 mark ?_
  revert mark
  decide

theorem not_module_component (plain : Signless name.toList) :
    holds (componentAt framework name typed).path ".module." = false := by
  rw [(proper_componentAt plain).holds_path ".module." rfl]
  exact (plain_componentAt framework name typed).2.2 ".module." (by decide)

/-- A page has no other component. -/
theorem Adapted.not_component_page (adapted : Adapted jsx css config name c) (plain : Signless name.toList)
    (page : config.target = .html) : ∀ e ∈ entriesOf c config name,
      isComponent (.make e.1 e.2) = false := by
  obtain ⟨m, made, -⟩ := adapted.manifest
  have aside : ∀ path, isUnder "src/components/" path = false → isUnder "src/app/" path = false →
      ∀ content, isComponent (.make path content) = false := by
    intro path components app content
    have same : (GeneratedFile.make path content).path = path := rfl
    rw [isComponent, same, components, app]
    rfl
  have settings : ∀ key ∈ "package.json" :: settingNames,
      isUnder "src/components/" key = false ∧ isUnder "src/app/" key = false := by
    decide
  have no_more : c.additional.entries = [] := by
    rw [adapted.additional_entries plain, testOf, page]
    split <;> rfl
  intro e mem
  rw [entriesOf, no_more, made, page, Option.toList_some, List.flatMap_singleton, List.append_nil] at mem
  rcases List.mem_append.1 mem with own | setting
  · simp only [List.mem_cons, List.not_mem_nil, or_false] at own
    rcases own with rfl | rfl
    · exact aside "index.html" (by decide) (by decide) _
    · refine aside _ ?_ ?_ _
      all_goals
        rw [isUnder, ← path_styleAt, Location.path_toList]
        rfl
  · obtain ⟨components, app⟩ := settings e.1
      ((adapted.settings made).2 e.1 (List.mem_map_of_mem setting))
    exact aside e.1 components app e.2

/-! ### The project -/

/-- What holds of the files of a project and its layout. -/
structure Consistent (config : Config) (name : String) (c : Component) (made : Assembled) : Prop where
  distinct : (made.files.map GeneratedFile.path).Nodup
  first : ∃ rest, made.files =
    .make (pathOfComponent config.target name config.isTyped) c.code ::
    .make (pathOfStyle name config.style) (textOr c.style (Fallback.style name)) :: rest
  /-- Every reference of the templates stands on a line of a file. -/
  written : ∀ r ∈ references config name, ∃ f ∈ made.files,
    f.path = r.holder ∧ r.line.toList ∈ lines f.content.toList
  /-- Every reference leads to a file. -/
  closed : ∀ r ∈ references config name, ∃ f ∈ made.files, r.LeadsTo f.path
  primary : primary? made.files = made.files.head?
  counted : ∀ start now duration, elapsed start now = .ok duration → ∃ measures,
    Measures.ofFiles made.files start now = .ok measures ∧
      measures.componentCount = made.layout.components.length

theorem measures_counted {files : List GeneratedFile} {start now duration : Number}
    (passed : elapsed start now = .ok duration) (planned : Layout) : ∃ measures,
    Measures.ofFiles files start now = .ok measures ∧
      measures.componentCount = (planned.ofFiles files).components.length := by
  rw [Measures.ofFiles, passed]
  refine ⟨_, rfl, ?_⟩
  simp [Layout.ofFiles, List.countP_eq_length_filter]

theorem Adapted.primary (adapted : Adapted jsx css config name c) (plain : Signless name.toList) :
    primary? ((entriesOf c config name).map fun e => GeneratedFile.make e.1 e.2) =
      some (.make (pathOfComponent config.target name config.isTyped) c.code) := by
  have markup : isMarkupOrScript (.make (pathOfComponent config.target name config.isTyped) c.code) = true := by
    rw [← path_componentAt]
    exact isMarkupOrScript_component plain
  have first : ∃ rest, (entriesOf c config name).map (fun e => GeneratedFile.make e.1 e.2) =
      .make (pathOfComponent config.target name config.isTyped) c.code :: rest := ⟨_, rfl⟩
  obtain ⟨rest, whole⟩ := first
  by_cases page : config.target = .html
  · have none : ((entriesOf c config name).map fun e => GeneratedFile.make e.1 e.2).find?
        (fun f => isComponent f && isMarkupOrScript f && !holds f.path ".module.") = none := by
      rw [List.find?_eq_none]
      intro f mem
      obtain ⟨e, held, rfl⟩ := List.mem_map.1 mem
      simp [adapted.not_component_page plain page e held]
    rw [primary?, none, Option.none_or, whole, List.find?_cons_of_pos markup]
  · have component : isComponent (.make (pathOfComponent config.target name config.isTyped) c.code) = true := by
      rw [← path_componentAt]
      exact isComponent_make plain page
    have no_module : holds (pathOfComponent config.target name config.isTyped) ".module." = false := by
      rw [← path_componentAt]
      exact not_module_component plain
    have path : (GeneratedFile.make (pathOfComponent config.target name config.isTyped) c.code).path =
        pathOfComponent config.target name config.isTyped := rfl
    rw [primary?, whole, List.find?_cons_of_pos, Option.some_or]
    rw [component, markup, path, no_module]
    rfl

theorem Adapted.written (adapted : Adapted jsx css config name c) (plain : Signless name.toList)
    {r : Reference} (mem : r ∈ references config name) :
    ∃ e ∈ entriesOf c config name, e.1 = r.holder ∧ r.line.toList ∈ lines e.2.toList := by
  have additional := adapted.additional_entries plain
  rcases List.mem_append.1 mem with own | test
  · obtain ⟨e, held, at_holder, line⟩ := ownReference_written plain jsx css own
    refine ⟨e, ?_, at_holder, line⟩
    rw [entriesOf, adapted.code, additional]
    rcases List.mem_cons.1 held with rfl | held
    · simp
    · simp [held]
  · split at test
    · next tested =>
      obtain ⟨t, made, at_holder, line⟩ := testReference_written plain (Option.mem_toList.1 test)
      refine ⟨(t.path, t.code), ?_, at_holder, line⟩
      rw [entriesOf, additional]
      simp [testOf, tested, made]
    · exact nomatch test

theorem Adapted.closed (adapted : Adapted jsx css config name c) (plain : Signless name.toList)
    {r : Reference} (mem : r ∈ references config name) :
    ∃ e ∈ entriesOf c config name, r.LeadsTo e.1 := by
  obtain ⟨-, l, located, leads⟩ := references_lead plain mem
  have held : l.path ∈ (locations config name).map Location.path := List.mem_map_of_mem located
  rw [← adapted.paths plain] at held
  obtain ⟨e, among, same⟩ := List.mem_map.1 held
  exact ⟨e, List.mem_append_left _ among, same ▸ leads⟩

/-- Whatever the template, the style sheet and the settings, the assembled project is closed and
consistent. -/
theorem assemble_consistent (jsx css : String) {config : Config} {name : String}
    (named : config.name = .ok name) (planned : Layout) : ∃ c made,
    adapt jsx css config = .ok c ∧ c.style = css ∧ assemble c planned config = .ok made ∧
      Consistent config name c made := by
  have plain := signless_of_named named
  obtain ⟨c, adapts, adapted⟩ := adapt_some jsx css named
  obtain ⟨made, assembles, files, layout⟩ := assemble_some named adapted adapted.textOr_code planned
  have in_files : ∀ e ∈ entriesOf c config name, GeneratedFile.make e.1 e.2 ∈ made.files := by
    intro e mem
    rw [files]
    exact List.mem_map_of_mem mem
  refine ⟨c, made, adapts, adapted.style, assembles, ?_, ?_, ?_, ?_, ?_, ?_⟩
  · rw [files, List.map_map]
    exact adapted.nodup_entries plain
  · rw [files]
    exact ⟨_, rfl⟩
  · intro r mem
    obtain ⟨e, held, at_holder, line⟩ := adapted.written plain mem
    exact ⟨_, in_files e held, at_holder, line⟩
  · intro r mem
    obtain ⟨e, held, leads⟩ := adapted.closed plain mem
    exact ⟨_, in_files e held, leads⟩
  · rw [files, adapted.primary plain]
    rfl
  · intro start now duration passed
    rw [layout]
    exact measures_counted passed planned

/-- A component with a module and a test, which both import it. -/
theorem assemble_consistent_angular :
    let config : Config := { framework := .str "angular", unitTests := .bool true }
    config.name = .ok "GeneratedComponent" ∧ (references config "GeneratedComponent").length = 3 ∧
      ∃ c made, adapt "<g />" "" config = .ok c ∧ assemble c {} config = .ok made ∧
        Consistent config "GeneratedComponent" c made := by
  intro config
  have named : config.name = .ok "GeneratedComponent" := by decide +kernel
  obtain ⟨c, made, adapts, -, assembles, consistent⟩ := assemble_consistent "<g />" "" named {}
  exact ⟨named, rfl, c, made, adapts, assembles, consistent⟩

end DesignComponents.Project
