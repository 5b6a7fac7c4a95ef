import DesignComponents.Proofs.Project.Assemble
import DesignComponents.Proofs.Project.Issues

/-! What is logged when the project of a component is built. -/

set_option autoImplicit false

namespace DesignComponents.Project

open Text Identifier Template Style Component

/-! ### Solid texts -/

/-- Some of the text is not blank. -/
def Solid (text : String) : Prop := ∃ c ∈ text.toList, isBlank c = false

instance (text : String) : Decidable (Solid text) :=
  inferInstanceAs (Decidable (∃ c ∈ text.toList, isBlank c = false))

theorem Solid.trim_ne_nil {text : String} (solid : Solid text) : trim text.toList ≠ [] := by
  obtain ⟨c, mem, other⟩ := solid
  exact Text.trim_ne_nil mem other

theorem solid_of_trim {text : String} (some_left : trim text.toList ≠ []) : Solid text := by
  obtain ⟨c, rest, left⟩ := List.exists_cons_of_ne_nil some_left
  have mem : c ∈ trim text.toList := by simp [left]
  have other : isBlank c = false := (trimmed_trim some_left).first c (by simp [left])
  exact ⟨c, (infix_trimBy isBlank text.toList).subset mem, other⟩

theorem solid_unlines (line : String) {ls : List String} (mem : line ∈ ls) (solid : Solid line) :
    Solid (unlines ls) := by
  obtain ⟨c, held, other⟩ := solid
  exact ⟨c, mem_unlines mem held, other⟩

theorem solid_textOr {text usual : String} (solid : Solid usual) : Solid (textOr text usual) := by
  unfold textOr
  split
  · exact solid
  · next some_left => exact solid_of_trim fun none_left => some_left (by simp [none_left])

theorem solid_print (style : Json.Style) (members : List (String × Json)) (after : String) :
    Solid ((Json.obj members).print style ++ after) := by
  refine ⟨'\x7b', ?_, by decide⟩
  rw [String.toList_append, Json.print, String.toList_ofList]
  refine List.mem_append_left _ ?_
  cases members <;> simp [Json.write]

variable {jsx css name : String} {config : Config} {c : Component}

/-- The settings of no framework are blank, nor those of a styling. -/
theorem solid_manifest :
    ∀ e ∈ (write config.target jsx css config name).manifest.configFiles.entries, Solid e.2 := by
  have vite : ∀ plugin package typed, Solid (ProjectFiles.vite plugin package typed) := fun _ _ _ =>
    solid_unlines "import \x7b defineConfig \x7d from 'vite'" (by simp) (by decide)
  intro e mem
  cases target : config.target with
  | react =>
    rw [target] at mem
    obtain rfl := List.mem_singleton.1 (OrderedMap.mem_of_mem_ofList mem)
    exact vite _ _ _
  | vue =>
    rw [target] at mem
    rcases List.mem_cons.1 (OrderedMap.mem_of_mem_ofList mem) with rfl | mem
    · exact vite _ _ _
    · obtain ⟨-, mem⟩ := List.mem_ite_nil_right.1 mem
      obtain rfl := List.mem_singleton.1 mem
      exact solid_print _ _ _
  | angular =>
    rw [target] at mem
    rcases List.mem_pair.1 (OrderedMap.mem_of_mem_ofList mem) with rfl | rfl
    · exact solid_print _ _ _
    · exact solid_print _ _ _
  | svelte =>
    rw [target] at mem
    rcases List.mem_append.1 (OrderedMap.mem_of_mem_ofList mem) with mem | mem
    · rcases List.mem_pair.1 mem with rfl | rfl
      · exact solid_unlines "const config = \x7b" (by simp) (by decide)
      · exact solid_unlines "\x7d);" (by simp) (by decide)
    · obtain ⟨-, mem⟩ := List.mem_ite_nil_right.1 mem
      obtain rfl := List.mem_singleton.1 mem
      exact solid_print _ _ _
  | html =>
    rw [target] at mem
    exact nomatch mem

theorem solid_extras (styling : Styling) : ∀ e ∈ (extrasOf styling).configFiles, Solid e.2 := by
  cases styling with
  | tailwind =>
    intro e mem
    rcases List.mem_pair.1 mem with rfl | rfl
    · exact solid_unlines "export default \x7b" (by simp) (by decide)
    · exact solid_unlines "export default \x7b" (by simp) (by decide)
  | css | scss | styled => exact nofun

theorem Adapted.solid_settings (adapted : Adapted jsx css config name c) {m : Manifest}
    (made : c.manifest = some m) : ∀ e ∈ manifestEntries m name, Solid e.2 := by
  obtain ⟨m', made', files⟩ := adapted.manifest
  obtain rfl : m' = m := Option.some.inj (made'.symm.trans made)
  intro e mem
  rcases List.mem_append.1 mem with mem | mem
  · rw [files] at mem
    rcases OrderedMap.mem_entries_insertAll mem with mem | mem
    · exact solid_manifest e mem
    · exact solid_extras config.style e mem
  · obtain ⟨-, mem⟩ := List.mem_ite_nil_left.1 mem
    obtain rfl := List.mem_singleton.1 mem
    exact solid_print _ _ _

theorem solid_style (style name : String) : Solid (textOr style (Fallback.style name)) :=
  solid_textOr (solid_unlines "  color: #333;" (by simp) (by decide))

/-! ### Languages -/

theorem Location.Proper.endsWith_path {l : Location} (proper : l.Proper) {mark rest : List Char}
    (pointed : mark = '.' :: rest) : endsWith mark l.path.toList = endsWith mark l.ending.toList := by
  have suffix : ∀ text, endsWith mark text = true ↔ mark <:+ text := fun text => by
    rw [endsWith, startsWith_iff, List.reverse_prefix]
  rw [Bool.eq_iff_iff, suffix, suffix, path_toList]
  constructor
  · intro ends
    have either := List.suffix_or_suffix_of_suffix ends (List.suffix_append _ l.ending.toList)
    rcases either with inside | ⟨more, longer⟩
    · exact inside
    · -- A longer mark would have its point before the ending, where there is none.
      cases more with
      | nil => exact longer ▸ List.suffix_rfl
      | cons d more =>
        have point : d = '.' := (List.cons.inj (longer.trans pointed)).1
        rw [← longer, List.suffix_append_self_iff] at ends
        exact absurd (ends.subset (point ▸ List.mem_cons_self)) proper.no_point
  · exact fun inside => inside.trans (List.suffix_append _ _)

/-- The ending of a file tells its language. -/
theorem Location.Proper.ofPath_path {l : Location} (proper : l.Proper) :
    Language.ofPath l.path = Language.ofPath l.ending := by
  have pointed : ∀ e ∈ Language.endings, e.1.toList.head? = some '.' := by decide
  have same : ∀ e ∈ Language.endings,
      endsWith e.1.toList l.path.toList = endsWith e.1.toList l.ending.toList := by
    intro e mem
    obtain ⟨rest, written⟩ := List.head?_eq_some_iff.1 (pointed e mem)
    exact proper.endsWith_path written
  unfold Language.ofPath
  rw [← List.head?_filter, List.filter_congr same, List.head?_filter]

theorem Location.Proper.isReactPath_path {l : Location} (proper : l.Proper) :
    isReactPath l.path = isReactPath l.ending := by
  have first : ".tsx".toList = '.' :: "tsx".toList := by decide
  have second : ".jsx".toList = '.' :: "jsx".toList := by decide
  rw [isReactPath, proper.endsWith_path first, proper.endsWith_path second, isReactPath]

/-- The endings of files that are not typed code. -/
theorem endings_plain : ∀ ending ∈ [".vue", ".svelte", ".html", ".css", ".scss"],
    Language.ofPath ending ≠ .typescript ∧ isReactPath ending = false := by
  decide

/-- The endings of scripts of Angular, which are typed anyway. -/
theorem endings_class : ∀ ending ∈ [".component.ts", ".module.ts", ".component.spec.ts"],
    Language.ofPath ending = .typescript ∧ isReactPath ending = false := by
  decide

theorem endings_test (typed : Bool) : ∀ mark ∈ [".spec.", ".test."],
    (typed = true → Language.ofPath (mark ++ TestFile.ending typed) = .typescript) ∧
      isReactPath (mark ++ TestFile.ending typed) = false := by
  cases typed <;> decide

theorem endings_react (typed : Bool) :
    ∀ ending ∈ [if typed then ".tsx" else ".jsx", ".test." ++ TestFile.ending typed ++ "x"],
      (typed = true → Language.ofPath ending = .typescript) ∧ (Language.ofPath ending).isCode = true := by
  cases typed <;> decide

theorem settings_plain : ∀ key ∈ "package.json" :: settingNames,
    Language.ofPath key ≠ .typescript ∧ isReactPath key = false := by
  decide

/-! ### The logs of one file -/

theorem takes_importName : Reader.Takes Code.importName := by
  intro p v q reads
  simp only [Code.importName, Reader.bind_eq_some, Reader.text_eq_some, Reader.many_eq_some] at reads
  obtain ⟨_, m, first, clause, m', ⟨-, -, second⟩, reads⟩ := reads
  split at reads
  · obtain ⟨_, _, fails, -⟩ := Reader.bind_eq_some.1 reads
    exact (Reader.failure_eq_some.1 fails).elim
  · simp only [Reader.bind_eq_some, Reader.one_eq_some, Reader.many1_eq_some, Reader.pure_eq_some] at reads
    obtain ⟨_, m₁, ⟨-, third⟩, _, m₂, ⟨-, -, -, fourth⟩, _, m₃, ⟨-, last⟩, -, rfl⟩ := reads
    exact ⟨_, by simp, (((first.trans second).trans third).trans fourth).trans last⟩

/-- A text that begins with the import of React imports it. -/
theorem imports_react (rest : List Char) :
    "react" ∈ Code.imports ("import React from 'react';".toList ++ rest) := by
  have reads : Code.importName ⟨none, "import React from 'react';".toList ++ rest⟩ =
      some ("react", ⟨some '\'', ';' :: rest⟩) := rfl
  rw [Code.imports, findAll, cut_eq_cutAt, Place.start, cutAt_some takes_importName reads,
    Cut.values_append, Cut.values_piece]
  exact List.mem_cons_self

section

variable {path content : String}

/-- In a solid file that imports React where it has to, only types may be missing. -/
theorem fileLogs_make (solid : Solid content)
    (react : isReactPath path = true → "react" ∈ (GeneratedFile.make path content).imports) :
    fileLogs config (.make path content) =
      if config.isTyped && Language.ofPath path = .typescript then
        (typeIssues content.toList).map fun issue => ⟨.error, issue, path, 1⟩
      else [] := by
  have filled : (trim content.toList).isEmpty = false := by
    rw [List.isEmpty_eq_false_iff]
    exact solid.trim_ne_nil
  have imported : (isReactPath path && usesReact content.toList &&
      !(GeneratedFile.make path content).imports.contains "react") = false := by
    by_cases here : isReactPath path = true
    · simp [react here]
    · simp [here]
  change (if (trim content.toList).isEmpty then [_] else (if isReactPath path && usesReact content.toList &&
    !(GeneratedFile.make path content).imports.contains "react" then [_] else []) ++ _) = _
  rw [filled, imported]
  rfl

theorem fileLogs_other (solid : Solid content)
    (plain : Language.ofPath path ≠ .typescript ∧ isReactPath path = false) :
    fileLogs config (.make path content) = [] := by
  rw [fileLogs_make solid fun react => nomatch plain.2.symm.trans react]
  simp [plain.1]

/-- A file that is not typed code has nothing to be missing. -/
theorem Location.Proper.fileLogs_other {l : Location} (proper : l.Proper) (solid : Solid content)
    (plain : Language.ofPath l.ending ≠ .typescript ∧ isReactPath l.ending = false) :
    fileLogs config (.make l.path content) = [] := by
  rw [← proper.ofPath_path, ← proper.isReactPath_path] at plain
  exact Project.fileLogs_other solid plain

end

/-! ### The logs of a component's files -/

/-- The errors that are issues of a file. -/
def errors (path : String) (issues : List String) : List Log :=
  issues.map fun issue => ⟨.error, issue, path, 1⟩

theorem logs_style (style : String) :
    fileLogs config (.make (pathOfStyle name config.style) (textOr style (Fallback.style name))) = [] := by
  have known : Language.ofPath (styleAt name config.style).ending ≠ .typescript ∧
      isReactPath (styleAt name config.style).ending = false := by
    cases config.style with
    | scss => exact endings_plain ".scss" (by decide)
    | css | tailwind | styled => exact endings_plain ".css" (by decide)
  rw [← path_styleAt]
  exact proper_styleAt.fileLogs_other (solid_style style name) known

section

variable {l : Location} (located : l.Proper) {content : String}
  (language : config.isTyped = true → Language.ofPath l.ending = .typescript)

include located language

/-- Where types are written, what seems to be missing is an error. -/
theorem logs_typed (solid : Solid content)
    (react : isReactPath l.path = true → "react" ∈ (GeneratedFile.make l.path content).imports) :
    fileLogs config (.make l.path content) =
      if config.isTyped then errors l.path (typeIssues content.toList) else [] := by
  rw [← located.ofPath_path] at language
  rw [fileLogs_make solid react]
  cases typed : config.isTyped with
  | true => simp [language typed, errors]
  | false => simp

theorem logs_script (solid : Solid content) (react : isReactPath l.ending = false) :
    fileLogs config (.make l.path content) =
      if config.isTyped then errors l.path (typeIssues content.toList) else [] := by
  rw [← located.isReactPath_path] at react
  exact logs_typed located language solid fun here => nomatch react.symm.trans here

theorem logs_react {rest : List Char} (begins : content.toList = "import React from 'react';".toList ++ rest)
    (code : (Language.ofPath l.ending).isCode = true) :
    fileLogs config (.make l.path content) =
      if config.isTyped then errors l.path (typeIssues content.toList) else [] := by
  have solid : Solid content := ⟨'i', by simp [begins], by decide⟩
  refine logs_typed located language solid fun _ => ?_
  have imports : (GeneratedFile.make l.path content).imports =
      if (Language.ofPath l.path).isCode then Code.imports content.toList else [] := rfl
  rw [imports, located.ofPath_path, if_pos code, begins]
  exact imports_react rest

end

section

variable (plain : Signless name.toList)

include plain

theorem logs_component (proper : IsComponentName name.toList) (jsx css : String) :
    let path := pathOfComponent config.target name config.isTyped
    fileLogs config (.make path (write config.target jsx css config name).code) =
      if config.isTyped && config.target = .angular then errors path (issuesOfTemplate jsx) else [] := by
  intro path
  have solid : Solid (write config.target jsx css config name).code := code_solid jsx css config name
  have located : (componentAt config.target name config.isTyped).Proper := proper_componentAt plain
  have at_path : path = (componentAt config.target name config.isTyped).path := path_componentAt.symm
  rw [at_path]
  cases target : config.target with
  | react =>
    rw [target] at located
    obtain ⟨language, code⟩ := endings_react config.isTyped _ List.mem_cons_self
    have begins : (React.code jsx css config name).toList = "import React from 'react';".toList ++ _ :=
      unlines_cons _ _
    refine (logs_react located language begins code).trans ?_
    rw [typeIssues_react]
    simp [errors]
  | angular =>
    rw [target] at solid located
    obtain ⟨language, react⟩ := endings_class ".component.ts" (by decide)
    refine (logs_script located (fun _ => language) solid react).trans ?_
    rw [write, Angular.write, typeIssues_angular proper]
    simp
  | vue =>
    rw [target] at solid located
    rw [located.fileLogs_other solid (endings_plain ".vue" (by decide))]
    simp
  | svelte =>
    rw [target] at solid located
    rw [located.fileLogs_other solid (endings_plain ".svelte" (by decide))]
    simp
  | html =>
    rw [target] at solid located
    rw [located.fileLogs_other solid (endings_plain ".html" (by decide))]
    simp

omit plain in
theorem logs_module (proper : IsComponentName name.toList) :
    fileLogs config (.make s!"src/app/{slug name}.module.ts" (Angular.moduleCode name)) = [] := by
  have solid : Solid (Angular.moduleCode name) :=
    solid_unlines "@NgModule(\x7b" (by simp) (by decide)
  obtain ⟨language, react⟩ := endings_class ".module.ts" (by decide)
  rw [← path_moduleAt]
  refine (logs_script (@proper_moduleAt name) (fun _ => language) solid react).trans ?_
  rw [typeIssues_module proper]
  simp [errors]

omit plain in
/-- All that comes with a component's code, but for tests, is a module that nothing is missing in. -/
theorem logs_additional (proper : IsComponentName name.toList) (jsx css : String) :
    (write config.target jsx css config name).additional.flatMap
      (fun e => fileLogs config (.make e.1 e.2)) = [] := by
  cases config.target with
  | angular => exact (List.flatMap_singleton _ _).trans (logs_module proper)
  | react | vue | svelte | html => rfl

theorem logs_test (proper : IsComponentName name.toList) {test : TestFile}
    (made : TestFile.of? config.target name config.isTyped = some test) :
    fileLogs config (.make test.path test.code) =
      if config.isTyped && config.target ≠ .angular then errors test.path (issuesOfTest name) else [] := by
  obtain ⟨l, located, at_path⟩ :
      ∃ l, testAt? config.target name config.isTyped = some l ∧ l.path = test.path := by
    have paths := path_testAt config.target name config.isTyped
    rw [made] at paths
    obtain ⟨l, located, at_path⟩ := Option.map_eq_some_iff.1 paths
    exact ⟨l, located, at_path⟩
  have proper_test : l.Proper := proper_testAt plain located
  rw [← at_path]
  cases target : config.target with
  | react =>
    rw [target] at made located
    cases made
    cases located
    obtain ⟨language, code⟩ := endings_react config.isTyped _ (List.mem_cons_of_mem _ List.mem_cons_self)
    have begins : (TestFile.react name config.isTyped).code.toList =
        "import React from 'react';".toList ++ _ := unlines_cons _ _
    refine (logs_react proper_test language begins code).trans ?_
    rw [typeIssues_reactTest proper]
    simp
  | vue =>
    rw [target] at made located
    cases made
    cases located
    obtain ⟨language, react⟩ := endings_test config.isTyped ".spec." (by decide)
    have solid : Solid (TestFile.vue name config.isTyped).code :=
      solid_unlines "\x7d);" (by simp) (by decide)
    refine (logs_script proper_test language solid react).trans ?_
    rw [typeIssues_vueTest proper]
    simp
  | angular =>
    rw [target] at made located
    cases made
    cases located
    obtain ⟨language, react⟩ := endings_class ".component.spec.ts" (by decide)
    have solid : Solid (TestFile.angular name).code :=
      solid_unlines "\x7d);" (by simp) (by decide)
    refine (logs_script proper_test (fun _ => language) solid react).trans ?_
    rw [typeIssues_angularTest proper]
    simp [errors]
  | svelte =>
    rw [target] at made located
    cases made
    cases located
    obtain ⟨language, react⟩ := endings_test config.isTyped ".test." (by decide)
    have solid : Solid (TestFile.svelte name config.isTyped).code :=
      solid_unlines "\x7d);" (by simp) (by decide)
    refine (logs_script proper_test language solid react).trans ?_
    rw [typeIssues_svelteTest proper]
    simp
  | html =>
    rw [target] at made
    exact nomatch made

end

theorem logs_settings (adapted : Adapted jsx css config name c) {m : Manifest} (made : c.manifest = some m) :
    ∀ e ∈ manifestEntries m name, fileLogs config (.make e.1 e.2) = [] := fun e mem =>
  fileLogs_other (adapted.solid_settings made e mem)
    (settings_plain e.1 ((adapted.settings made).2 e.1 (List.mem_map_of_mem mem)))

/-! ### The log of a build -/

/-- What is logged as an error: an Angular template that tells the type of React components, and the
test of a component whose name ends in the word for interfaces. -/
def misreadings (config : Config) (jsx name : String) : List Log :=
  if config.isTyped then
    if config.target = .angular then
      errors (pathOfComponent config.target name config.isTyped) (issuesOfTemplate jsx)
    else (testOf config name).toList.flatMap fun test => errors test.path (issuesOfTest name)
  else []

theorem proper_of_named (named : config.name = .ok name) : IsComponentName name.toList := by
  unfold Config.name at named
  split at named
  · cases named
    exact isComponentName_componentName _
  · split at named
    · cases named
    · cases named
      exact isComponentName_componentName _

/-- Nothing else is logged of a component's files. -/
theorem buildLogs_adapted (named : config.name = .ok name) (adapted : Adapted jsx css config name c)
    {files : List GeneratedFile} (made : files = (entriesOf c config name).map fun e => .make e.1 e.2) :
    buildLogs files config =
      misreadings config jsx name ++ [⟨.info, s!"Validated {files.length} files", "", 1⟩] := by
  have plain := signless_of_named named
  have proper := proper_of_named named
  obtain ⟨m, manifest, -⟩ := adapted.manifest
  have tests : ((testOf config name).toList.flatMap fun t => fileLogs config (.make t.path t.code)) =
      if config.isTyped && config.target ≠ .angular then
        (testOf config name).toList.flatMap fun test => errors test.path (issuesOfTest name)
      else [] := by
    cases tested : testOf config name with
    | none => simp
    | some t =>
      have made : TestFile.of? config.target name config.isTyped = some t := by
        unfold testOf at tested
        split at tested
        · exact tested
        · exact nomatch tested
      simp [logs_test plain proper made]
  have settings : ((manifestEntries m name).flatMap fun e => fileLogs config (.make e.1 e.2)) = [] :=
    List.flatMap_eq_nil_iff.2 (logs_settings adapted manifest)
  have logs : files.flatMap (fileLogs config) = misreadings config jsx name := by
    rw [made, List.flatMap_map, entriesOf, manifest, adapted.additional_entries plain, adapted.code]
    simp only [List.flatMap_append, List.flatMap_cons, List.flatMap_nil, List.flatMap_map, Option.toList_some,
      logs_component plain proper, logs_style, logs_additional proper, tests, settings, List.append_nil,
      List.nil_append]
    unfold misreadings
    cases config.isTyped with
    | false => simp
    | true => by_cases angular : config.target = .angular <;> simp [angular]
  rw [buildLogs, logs]

end DesignComponents.Project
