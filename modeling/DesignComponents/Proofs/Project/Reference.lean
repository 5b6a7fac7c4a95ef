import DesignComponents.Component.Adapt
import DesignComponents.Proofs.Project.Location

/-! What the templates of a component refer to by a relative path, and where each of these leads. -/

set_option autoImplicit false

namespace DesignComponents.Project

open Text Identifier Template Style

/-- A reference that a template writes: the path of the file that it is in, and its line there. -/
structure Reference where
  holder : String
  lead : String
  text : String
  rest : String

def Reference.line (r : Reference) : String := r.lead ++ r.text ++ r.rest

def pathOfModule (name : String) : String := s!"src/app/{slug name}.module.ts"

/-- The style sheet, from a folder of scripts. -/
def sheetText (name : String) (styling : Styling) : String :=
  s!"../styles/{slug name}.{styling.extension}"

/-- The import of an Angular component, from the folder that it is in. -/
def classImport (holder name : String) : Reference where
  holder
  lead := "import \x7b " ++ name ++ "Component \x7d from '"
  text := s!"./{slug name}.component"
  rest := "';"

/-- The import of a component into its tests, one folder further down. -/
def testImport (holder name ending : String) : Reference where
  holder
  lead := s!"import {name} from '"
  text := s!"../{name}" ++ ending
  rest := "';"

def testReference? (framework : Framework) (name : String) (typed : Bool) : Option Reference :=
  (Component.TestFile.of? framework name typed).map fun test =>
    match framework with
    | .angular => classImport test.path name
    | .vue => testImport test.path name ".vue"
    | .svelte => testImport test.path name ".svelte"
    | .react | .html => testImport test.path name ""

/-- The references of the component's own code and of what comes with it. -/
def ownReferences (config : Config) (name : String) : List Reference :=
  let holder := pathOfComponent config.target name config.isTyped
  match config.target with
  | .react =>
    if config.style = .styled then [] else [⟨holder, "import '", sheetText name config.style, "';"⟩]
  | .angular =>
    [⟨holder, "  styleUrls: ['", sheetText name config.style, "']"⟩, classImport (pathOfModule name) name]
  | .html => [⟨holder, "  <link rel=\"stylesheet\" href=\"", pathOfStyle name config.style, "\">"⟩]
  | .vue | .svelte => []

def references (config : Config) (name : String) : List Reference :=
  ownReferences config name ++
    if config.hasTests then (testReference? config.target name config.isTyped).toList else []

/-- The endings of modules, which imports leave out. -/
def omitted : List String := ["", ".ts", ".tsx", ".jsx"]

/-- From the folder of its file, and up to an ending that is left out, the reference leads to a file. -/
def Reference.LeadsTo (r : Reference) (path : String) : Prop :=
  ∃ ending ∈ omitted, ∀ root : Disk.Path,
    (root.resolve r.holder).parent.resolve (r.text ++ ending) = root.resolve path

variable {name : String} {styling : Styling} {typed : Bool}

theorem leadsTo_of_steps (steps : List String) (ending : String) {r : Reference}
    {holder target : Location} (at_holder : holder.path = r.holder) (proper : holder.Proper)
    (proper' : target.Proper) {front : String}
    (walked : ∀ n ∈ steps, n ≠ "" ∧ '/' ∉ n.toList)
    (written : String.join (steps.map (· ++ "/")) = front)
    (text : front ++ target.stem ++ target.ending = r.text ++ ending) (known : ending ∈ omitted)
    (leads : ∀ names, steps.foldl Disk.Path.push (names ++ holder.folder) = names ++ target.folder) :
    r.LeadsTo target.path := by
  refine ⟨ending, known, fun root => ?_⟩
  rw [← text, ← Location.path_mk written, ← at_holder]
  exact proper.reached proper' walked leads root

theorem push_up (names : List String) (folder : String) :
    Disk.Path.push (names ++ ["src", folder]) ".." = names ++ ["src"] := by
  have apart : names ++ ["src", folder] = (names ++ ["src"]) ++ [folder] := by simp
  rw [apart]
  simp [Disk.Path.push, Disk.Path.isIdle]

section

variable {config : Config} {framework : Framework} (plain : Signless name.toList)

include plain

/-- From the folder of scripts beside it the style sheet is found. -/
theorem leadsTo_style {r : Reference} {folder : String}
    (at_holder : (componentAt framework name typed).path = r.holder)
    (beside : (componentAt framework name typed).folder = ["src", folder])
    (text : r.text = sheetText name styling) : r.LeadsTo (styleAt name styling).path := by
  refine leadsTo_of_steps ["..", "styles"] "" at_holder (proper_componentAt plain) proper_styleAt
    (by decide) (by decide : _ = "../styles/") ?_ (by decide) fun names => ?_
  · rw [text, String.append_empty, styleAt, ← String.append_assoc]
    rfl
  · rw [beside, List.foldl_cons, push_up]
    simp [styleAt, Disk.Path.push, Disk.Path.isIdle]

theorem leadsTo_class {l : Location} {holder : String} (proper : l.Proper) (at_holder : l.path = holder)
    (beside : l.folder = ["src", "app"]) :
    (classImport holder name).LeadsTo (componentAt .angular name typed).path := by
  refine leadsTo_of_steps ["."] ".ts" at_holder proper (proper_componentAt plain) (by decide)
    (by decide : _ = "./") ?_ (by decide) fun names => ?_
  · change "./" ++ slug name ++ ".component.ts" = "./" ++ slug name ++ ".component" ++ ".ts"
    simp only [String.append_assoc]
    rfl
  · rw [beside]
    simp [componentAt, Disk.Path.push, Disk.Path.isIdle]

/-- From the folder of the tests the component is one folder up. -/
theorem leadsTo_component (ending : String) {r : Reference} {l : Location} (proper : l.Proper)
    (at_holder : l.path = r.holder) (inside : l.folder = ["src", "components", "__tests__"])
    (component : (componentAt framework name typed).folder = ["src", "components"] ∧
      (componentAt framework name typed).stem = name)
    (text : r.text ++ ending = "../" ++ name ++ (componentAt framework name typed).ending)
    (known : ending ∈ omitted) : r.LeadsTo (componentAt framework name typed).path := by
  refine leadsTo_of_steps [".."] ending at_holder proper (proper_componentAt plain) (by decide)
    (by decide : _ = "../") ?_ known fun names => ?_
  · rw [component.2, text]
  · rw [inside, component.1]
    have apart : names ++ ["src", "components", "__tests__"] = names ++ ["src", "components"] ++ ["__tests__"] := by
      simp
    rw [apart]
    simp [Disk.Path.push, Disk.Path.isIdle]

theorem testReference_leads {r : Reference} (tests : testReference? framework name typed = some r) :
    ∃ l, testAt? framework name typed = some l ∧ l.path = r.holder ∧
      r.LeadsTo (componentAt framework name typed).path := by
  obtain ⟨test, made, same⟩ := Option.map_eq_some_iff.1 tests
  obtain ⟨l, located, at_path⟩ : ∃ l, testAt? framework name typed = some l ∧ l.path = test.path := by
    have paths := path_testAt framework name typed
    rw [made] at paths
    obtain ⟨l, located, at_path⟩ := Option.map_eq_some_iff.1 paths
    exact ⟨l, located, at_path⟩
  have proper := proper_testAt plain located
  refine ⟨l, located, ?_, ?_⟩
  · rw [at_path, ← same]
    cases framework <;> rfl
  · cases framework with
    | react =>
      cases located
      subst same
      cases typed
      · exact leadsTo_component plain ".jsx" proper at_path rfl ⟨rfl, rfl⟩
          (congrArg (· ++ ".jsx") String.append_empty) (by decide)
      · exact leadsTo_component plain ".tsx" proper at_path rfl ⟨rfl, rfl⟩
          (congrArg (· ++ ".tsx") String.append_empty) (by decide)
    | vue =>
      cases located
      subst same
      exact leadsTo_component plain "" proper at_path rfl ⟨rfl, rfl⟩ String.append_empty (by decide)
    | angular =>
      cases located
      subst same
      exact leadsTo_class plain proper at_path rfl
    | svelte =>
      cases located
      subst same
      exact leadsTo_component plain "" proper at_path rfl ⟨rfl, rfl⟩ String.append_empty (by decide)
    | html => exact nomatch located

theorem ownReference_leads {r : Reference} (written : r ∈ ownReferences config name) :
    (∃ l ∈ locations config name, l.path = r.holder) ∧ ∃ l ∈ locations config name, r.LeadsTo l.path := by
  have component : componentAt config.target name config.isTyped ∈ locations config name := by
    simp [locations]
  have style : styleAt name config.style ∈ locations config name := by simp [locations]
  have at_component := @path_componentAt config.target name config.isTyped
  -- By framework: the component's file lies in a folder of its own, or at the root.
  unfold ownReferences at written
  cases target : config.target with
  | react =>
    rw [target] at written component at_component
    simp only [List.mem_ite_nil_left, List.mem_singleton] at written
    obtain ⟨-, rfl⟩ := written
    exact ⟨⟨_, component, at_component⟩, _, style, leadsTo_style plain at_component rfl rfl⟩
  | angular =>
    rw [target] at written component at_component
    simp only [List.mem_cons, List.not_mem_nil, or_false] at written
    rcases written with rfl | rfl
    · exact ⟨⟨_, component, at_component⟩, _, style, leadsTo_style plain at_component rfl rfl⟩
    · have module : moduleAt name ∈ locations config name := by simp [locations, target]
      exact ⟨⟨_, module, path_moduleAt⟩, _, component,
        leadsTo_class plain proper_moduleAt path_moduleAt rfl⟩
  | html =>
    rw [target] at written component at_component
    simp only [List.mem_singleton] at written
    subst written
    refine ⟨⟨_, component, at_component⟩, _, style, ?_⟩
    -- The page lies at the root, so its link is the path of the sheet.
    refine leadsTo_of_steps ["src", "styles"] "" at_component (proper_componentAt plain)
      proper_styleAt (by decide) (by decide : _ = "src/styles/") ?_ (by decide) fun names => ?_
    · rw [String.append_empty, ← path_styleAt]
      have written : String.join (["src", "styles"].map (· ++ "/")) = "src/styles/" := by decide
      exact (Location.path_mk written _ _).symm
    · simp [componentAt, styleAt, Disk.Path.push, Disk.Path.isIdle]
  | vue | svelte =>
    rw [target] at written
    cases written

/-- Every reference is in a file of the project and leads to one. -/
theorem references_lead {r : Reference} (written : r ∈ references config name) :
    (∃ l ∈ locations config name, l.path = r.holder) ∧ ∃ l ∈ locations config name, r.LeadsTo l.path := by
  rcases List.mem_append.1 written with own | test
  · exact ownReference_leads plain own
  · split at test
    · next tested =>
      obtain ⟨l, located, at_path, leads⟩ := testReference_leads plain (Option.mem_toList.1 test)
      refine ⟨⟨l, ?_, at_path⟩, componentAt config.target name config.isTyped, by simp [locations], leads⟩
      simp [locations, tested, located]
    · cases test

end

/-! ### The lines that they are in -/

section

variable {config : Config} {framework : Framework} {holder : String}

theorem no_break_slug : '\n' ∉ (slug name).toList := (slug_signless name).not_mem (by decide)

theorem no_break_extension : '\n' ∉ styling.extension.toList := by
  cases styling <;> decide

theorem no_break_sheet : '\n' ∉ (sheetText name styling).toList := by
  simp only [sheetText, String.toList_append, List.mem_append, not_or]
  exact ⟨⟨⟨by decide, no_break_slug⟩, by decide⟩, no_break_extension⟩

/-- A component that is not styled in its own code imports its sheet. -/
theorem line_styleImport (unstyled : config.style ≠ .styled) :
    Reference.line ⟨holder, "import '", sheetText name config.style, "';"⟩ =
      Component.React.styleImport config name := by
  cases style : config.style with
  | styled => exact absurd style unstyled
  | css | scss | tailwind =>
    simp only [Reference.line, sheetText, Component.React.styleImport, style, ← String.append_assoc]
    rfl

theorem line_styleUrls : Reference.line ⟨holder, "  styleUrls: ['", sheetText name styling, "']"⟩ =
    s!"  styleUrls: ['../styles/{slug name}.{styling.extension}']" := by
  simp only [Reference.line, sheetText, ← String.append_assoc]
  rfl

theorem line_styleLink :
    Reference.line ⟨holder, "  <link rel=\"stylesheet\" href=\"", pathOfStyle name styling, "\">"⟩ =
      "  <link rel=\"stylesheet\" href=\"src/styles/" ++ slug name ++ "." ++ styling.extension ++ "\">" := by
  simp only [Reference.line, pathOfStyle, ← String.append_assoc]
  rfl

theorem no_break_line {lead text rest : String} (no_lead : '\n' ∉ lead.toList)
    (no_text : '\n' ∉ text.toList) (no_rest : '\n' ∉ rest.toList) :
    '\n' ∉ (Reference.line ⟨holder, lead, text, rest⟩).toList := by
  simp only [Reference.line, String.toList_append, List.mem_append, not_or]
  exact ⟨⟨no_lead, no_text⟩, no_rest⟩

theorem no_break_path : '\n' ∉ (pathOfStyle name styling).toList := by
  simp only [pathOfStyle, String.toList_append, List.mem_append, not_or]
  exact ⟨⟨⟨by decide, no_break_slug⟩, by decide⟩, no_break_extension⟩

theorem line_classImport : (classImport holder name).line =
    s!"import \x7b {name}Component \x7d from './{slug name}.component';" := by
  simp only [classImport, Reference.line, String.append_assoc]
  rfl

theorem line_testImport (ending rest : String) (same : ending ++ "';" = rest) :
    (testImport holder name ending).line = s!"import {name} from '../{name}" ++ rest := by
  simp only [testImport, Reference.line, ← same, String.append_assoc]
  rfl

variable (plain : Signless name.toList)

include plain

theorem no_break_name : '\n' ∉ name.toList := plain.not_mem (by decide)

theorem no_break_class : '\n' ∉ (classImport holder name).line.toList := by
  simp only [classImport, Reference.line, String.toList_append, List.mem_append, not_or]
  exact ⟨⟨⟨⟨by decide, no_break_name plain⟩, by decide⟩, ⟨by decide, no_break_slug⟩, by decide⟩, by decide⟩

/-- A reference of the component's own stands on a line of the component or of what comes with it. -/
theorem ownReference_written (jsx css : String) {r : Reference} (written : r ∈ ownReferences config name) :
    let made := Component.write config.target jsx css config name
    ∃ e ∈ (pathOfComponent config.target name config.isTyped, made.code) :: made.additional,
      e.1 = r.holder ∧ r.line.toList ∈ lines e.2.toList := by
  -- By framework: each writes its references in a form of its own, and two write none.
  unfold ownReferences at written
  cases target : config.target with
  | react =>
    rw [target] at written
    simp only [List.mem_ite_nil_left, List.mem_singleton] at written
    obtain ⟨unstyled, rfl⟩ := written
    refine ⟨_, List.mem_cons_self, rfl, mem_lines_unlines ?_ ?_⟩
    · rw [line_styleImport unstyled]
      simp
    · exact no_break_line (by decide) no_break_sheet (by decide)
  | angular =>
    rw [target] at written
    simp only [List.mem_cons, List.not_mem_nil, or_false] at written
    rcases written with rfl | rfl
    · refine ⟨_, List.mem_cons_self, rfl, mem_lines_unlines ?_ ?_⟩
      · rw [line_styleUrls]
        simp
      · exact no_break_line (by decide) no_break_sheet (by decide)
    · refine ⟨_, List.mem_cons_of_mem _ List.mem_cons_self, rfl, mem_lines_unlines ?_ (no_break_class plain)⟩
      rw [line_classImport]
      simp
  | html =>
    rw [target] at written
    simp only [List.mem_singleton] at written
    subst written
    refine ⟨_, List.mem_cons_self, rfl, mem_lines_unlines ?_ ?_⟩
    · rw [line_styleLink]
      simp [Component.Html.headLines]
    · exact no_break_line (by decide) no_break_path (by decide)
  | vue | svelte =>
    rw [target] at written
    exact nomatch written

theorem no_break_testImport {ending : String} (unbroken : '\n' ∉ ending.toList) :
    '\n' ∉ (testImport holder name ending).line.toList := by
  have no_name := no_break_name plain
  simp only [testImport, Reference.line, String.toList_append, List.mem_append, not_or]
  exact ⟨⟨⟨⟨by decide, no_name⟩, by decide⟩, ⟨by decide, no_name⟩, unbroken⟩, by decide⟩

theorem testReference_written {r : Reference} (tests : testReference? framework name typed = some r) :
    ∃ t, Component.TestFile.of? framework name typed = some t ∧ t.path = r.holder ∧
      r.line.toList ∈ lines t.code.toList := by
  obtain ⟨test, made, rfl⟩ := Option.map_eq_some_iff.1 tests
  refine ⟨test, made, by cases framework <;> rfl, ?_⟩
  -- Where the import stands in a test differs by framework.
  cases framework with
  | react =>
    cases made
    exact mem_lines_unlines
      (List.mem_of_getElem? (i := 2) (congrArg some (line_testImport "" "';" rfl).symm))
      (no_break_testImport plain (by decide))
  | vue =>
    cases made
    exact mem_lines_unlines
      (List.mem_of_getElem? (i := 1) (congrArg some (line_testImport ".vue" ".vue';" rfl).symm))
      (no_break_testImport plain (by decide))
  | angular =>
    cases made
    refine mem_lines_unlines ?_ (no_break_class plain)
    rw [line_classImport]
    simp
  | svelte =>
    cases made
    exact mem_lines_unlines
      (List.mem_of_getElem? (i := 1) (congrArg some (line_testImport ".svelte" ".svelte';" rfl).symm))
      (no_break_testImport plain (by decide))
  | html => exact nomatch made

end

end DesignComponents.Project
