import DesignComponents.Component.TestFile
import DesignComponents.Disk.Path
import DesignComponents.Project.Layout
import DesignComponents.Proofs.Style.ClassName
import DesignComponents.Proofs.Text.Search

/-! Where the files of a component are: in a folder, under a name made from the component's, with an
ending that tells what the file is. -/

set_option autoImplicit false

namespace DesignComponents

/-! ### Paths written with the names along them -/

namespace Disk.Path

open Text

variable {names : List String}

theorem pieces_intercalate (unbroken : ∀ n ∈ names, '/' ∉ n.toList) (some_names : names ≠ []) :
    pieces ("/".intercalate names) = names := by
  have apart : ∀ piece ∈ names.map String.toList, '/' ∉ piece := by
    intro piece mem
    obtain ⟨n, held, rfl⟩ := List.mem_map.1 mem
    exact unbroken n held
  rw [pieces, splitOn_eq, String.toList_intercalate]
  change ((['/'].intercalate (names.map String.toList)).splitOn '/').map String.ofList = names
  rw [List.splitOn_intercalate '/' apart (by simpa using some_names), List.map_map]
  exact (List.map_congr_left fun n _ => String.ofList_toList).trans (List.map_id names)

/-- A path that does not begin with a slash is followed name by name. -/
theorem resolve_intercalate (folder : Path) {first : String} (some_first : first ≠ "")
    (unbroken : ∀ n ∈ first :: names, '/' ∉ n.toList) :
    folder.resolve ("/".intercalate (first :: names)) =
      { folder with names := (first :: names).foldl push folder.names } := by
  have relative : isAbsolute ("/".intercalate (first :: names)) = false := by
    rw [isAbsolute, ← Bool.not_eq_true, startsWith_iff, String.toList_intercalate, List.map_cons,
      intercalate_cons]
    intro absolute
    obtain ⟨c, rest, same⟩ := List.exists_cons_of_ne_nil (mt String.toList_eq_nil_iff.1 some_first)
    rw [same] at absolute
    obtain ⟨rfl, -⟩ := List.cons_prefix_cons.1 absolute
    exact unbroken first List.mem_cons_self (by rw [same]; exact List.mem_cons_self)
  rw [resolve, relative, if_neg Bool.false_ne_true, pieces_intercalate unbroken (List.cons_ne_nil _ _)]

/-- Any name but the two of points leads down. -/
theorem push_name {name : String} (some_name : name ≠ "") (solid : name ≠ ".") (down : name ≠ "..") :
    push names name = names ++ [name] := by
  simp [push, isIdle, some_name, solid, down]

end Disk.Path

namespace Project

open Text Identifier Template Style

structure Location where
  folder : List String
  stem : String
  ending : String

namespace Location

def file (l : Location) : String := l.stem ++ l.ending

def path (l : Location) : String := "/".intercalate (l.folder ++ [l.file])

/-- The path is read as it is meant: the names of the folders have neither slash nor point in them, the
stem has no sign, and the ending is the part of the path from its first point on. -/
structure Proper (l : Location) : Prop where
  folders : ∀ n ∈ l.folder, n ≠ "" ∧ '/' ∉ n.toList ∧ '.' ∉ n.toList
  stem : Signless l.stem.toList
  ending : '/' ∉ l.ending.toList ∧ ∃ c rest, l.ending.toList = '.' :: c :: rest ∧ c ≠ '.'

variable {l : Location}

theorem file_toList (l : Location) : l.file.toList = l.stem.toList ++ l.ending.toList :=
  String.toList_append

theorem Proper.file_unbroken (proper : l.Proper) : '/' ∉ l.file.toList := by
  rw [file_toList, List.mem_append, not_or]
  exact ⟨proper.stem.not_mem (by decide), proper.ending.1⟩

theorem path_toList (l : Location) : l.path.toList =
    (l.folder.flatMap fun n => n.toList ++ ['/']) ++ l.stem.toList ++ l.ending.toList := by
  have joined : ∀ names : List String, ['/'].intercalate ((names ++ [l.file]).map String.toList) =
      (names.flatMap fun n => n.toList ++ ['/']) ++ l.file.toList := by
    intro names
    induction names with
    | nil => simp
    | cons n names ih =>
      rw [List.flatMap_cons, List.append_assoc, ← ih]
      cases names <;> simp
  rw [path, String.toList_intercalate, List.append_assoc, ← file_toList]
  exact joined l.folder

theorem path_mk {folder : List String} {front : String}
    (written : String.join (folder.map (· ++ "/")) = front) (stem ending : String) :
    (mk folder stem ending).path = front ++ stem ++ ending := by
  rw [← String.toList_inj, path_toList, ← written]
  simp [List.flatMap_def, List.map_map, Function.comp_def]

theorem Proper.no_point (proper : l.Proper) :
    '.' ∉ (l.folder.flatMap fun n => n.toList ++ ['/']) ++ l.stem.toList := by
  simp only [List.mem_append, List.mem_flatMap, not_or, not_exists, not_and]
  exact ⟨fun n mem => ⟨(proper.folders n mem).2.2, by decide⟩, proper.stem.not_mem (by decide)⟩

/-- The ending can be read off the path. -/
theorem Proper.dropWhile_path (proper : l.Proper) :
    l.path.toList.dropWhile (· != '.') = l.ending.toList := by
  obtain ⟨c, rest, written, -⟩ := proper.ending.2
  rw [path_toList, List.dropWhile_append_of_pos, written]
  · rfl
  · intro c mem
    exact bne_iff_ne.2 fun same => proper.no_point (same ▸ mem)

/-- A mark that begins with a point is found in the ending or nowhere. -/
theorem Proper.holds_path (proper : l.Proper) (mark : String) {rest : List Char}
    (pointed : mark.toList = '.' :: rest) : holds l.path mark = occurs mark.toList l.ending.toList := by
  rw [Bool.eq_iff_iff, holds, occurs_iff, occurs_iff, path_toList, pointed,
    infix_append_of_head proper.no_point]

/-! ### Following a path -/

theorem Proper.push_file (proper : l.Proper) (before : List String) :
    l.file ≠ "" ∧ Disk.Path.push before l.file = before ++ [l.file] := by
  obtain ⟨c, rest, written, other⟩ := proper.ending.2
  have held : c ∈ l.file.toList := by
    rw [file_toList, written]
    simp
  have dotted : ∀ name ∈ ["", ".", ".."], ∀ d ∈ name.toList, d = '.' := by decide
  have apart : ∀ name ∈ ["", ".", ".."], l.file ≠ name := by
    rintro name mem rfl
    exact other (dotted l.file mem c held)
  exact ⟨apart _ (by simp), Disk.Path.push_name (apart _ (by simp)) (apart _ (by simp)) (apart _ (by simp))⟩

/-- A path that ends with the file is followed step by step, and then to the file. -/
theorem Proper.follow (proper : l.Proper) (start : Disk.Path) {steps : List String}
    (walked : ∀ n ∈ steps, n ≠ "" ∧ '/' ∉ n.toList) :
    start.resolve ("/".intercalate (steps ++ [l.file])) =
      { start with names := steps.foldl Disk.Path.push start.names ++ [l.file] } := by
  have names : ∀ n ∈ steps ++ [l.file], n ≠ "" ∧ '/' ∉ n.toList := by
    intro n mem
    rcases List.mem_append.1 mem with mem | mem
    · exact walked n mem
    · rw [List.mem_singleton.1 mem]
      exact ⟨(proper.push_file []).1, proper.file_unbroken⟩
  have followed : (steps ++ [l.file]).foldl Disk.Path.push start.names =
      steps.foldl Disk.Path.push start.names ++ [l.file] := by
    rw [List.foldl_append]
    exact (proper.push_file _).2
  cases whole : steps ++ [l.file] with
  | nil => simp at whole
  | cons first others =>
    rw [whole] at names followed
    rw [Disk.Path.resolve_intercalate start (names first List.mem_cons_self).1 fun n mem => (names n mem).2,
      followed]

theorem Proper.foldl_push (proper : l.Proper) {names : List String} (held : ∀ n ∈ names, n ∈ l.folder)
    (before : List String) : names.foldl Disk.Path.push before = before ++ names := by
  induction names generalizing before with
  | nil => simp
  | cons n names ih =>
    obtain ⟨some_name, -, no_point⟩ := proper.folders n (held n List.mem_cons_self)
    have down : Disk.Path.push before n = before ++ [n] :=
      Disk.Path.push_name some_name (fun same => no_point (by simp [same]))
        fun same => no_point (by simp [same])
    rw [List.foldl_cons, down, ih fun m mem => held m (List.mem_cons_of_mem n mem)]
    simp

/-- Following the path leads into the folders and to the file. -/
theorem Proper.resolve (proper : l.Proper) (root : Disk.Path) :
    root.resolve l.path = { root with names := root.names ++ l.folder ++ [l.file] } := by
  have walked : ∀ n ∈ l.folder, n ≠ "" ∧ '/' ∉ n.toList := fun n mem =>
    ⟨(proper.folders n mem).1, (proper.folders n mem).2.1⟩
  rw [path, proper.follow root walked, proper.foldl_push fun _ mem => mem]

/-- A reference leads from one file to another where its steps lead from folder to folder. -/
theorem Proper.reached {holder target : Location} (proper : holder.Proper) (proper' : target.Proper)
    {steps : List String} (walked : ∀ n ∈ steps, n ≠ "" ∧ '/' ∉ n.toList)
    (leads : ∀ names, steps.foldl Disk.Path.push (names ++ holder.folder) = names ++ target.folder)
    (root : Disk.Path) :
    (root.resolve holder.path).parent.resolve (Location.mk steps target.stem target.ending).path =
      root.resolve target.path := by
  have inside : (root.resolve holder.path).parent = { root with names := root.names ++ holder.folder } := by
    rw [proper.resolve, Disk.Path.parent]
    simp
  rw [inside, proper'.resolve]
  refine (proper'.follow _ walked).trans ?_
  rw [leads]

end Location

/-! ### The files of a component -/

def componentAt (framework : Framework) (name : String) (typed : Bool) : Location :=
  match framework with
  | .react => ⟨["src", "components"], name, if typed then ".tsx" else ".jsx"⟩
  | .vue => ⟨["src", "components"], name, ".vue"⟩
  | .angular => ⟨["src", "app"], slug name, ".component.ts"⟩
  | .svelte => ⟨["src", "components"], name, ".svelte"⟩
  | .html => ⟨[], "index", ".html"⟩

def styleAt (name : String) (styling : Styling) : Location :=
  ⟨["src", "styles"], slug name, "." ++ styling.extension⟩

def moduleAt (name : String) : Location := ⟨["src", "app"], slug name, ".module.ts"⟩

def testAt? (framework : Framework) (name : String) (typed : Bool) : Option Location :=
  let tests := ["src", "components", "__tests__"]
  let ending := Component.TestFile.ending typed
  match framework with
  | .react => some ⟨tests, name, ".test." ++ ending ++ "x"⟩
  | .vue => some ⟨tests, name, ".spec." ++ ending⟩
  | .angular => some ⟨["src", "app"], slug name, ".component.spec.ts"⟩
  | .svelte => some ⟨tests, name, ".test." ++ ending⟩
  | .html => none

/-- The component, its style sheet, and what comes with them. -/
def locations (config : Config) (name : String) : List Location :=
  [componentAt config.target name config.isTyped, styleAt name config.style] ++
    (if config.target = .angular then [moduleAt name] else []) ++
    if config.hasTests then (testAt? config.target name config.isTyped).toList else []

variable {framework : Framework} {name : String} {typed : Bool} {styling : Styling}

theorem path_components (stem ending : String) :
    (Location.mk ["src", "components"] stem ending).path = "src/components/" ++ stem ++ ending :=
  Location.path_mk (by decide) stem ending

theorem path_app (stem ending : String) :
    (Location.mk ["src", "app"] stem ending).path = "src/app/" ++ stem ++ ending :=
  Location.path_mk (by decide) stem ending

theorem path_tests (stem ending : String) :
    (Location.mk ["src", "components", "__tests__"] stem ending).path =
      "src/components/__tests__/" ++ stem ++ ending :=
  Location.path_mk (by decide) stem ending

theorem path_componentAt :
    (componentAt framework name typed).path = pathOfComponent framework name typed := by
  cases framework with
  | react => cases typed <;> exact path_components name _
  | vue => exact path_components name _
  | angular => exact path_app (slug name) _
  | svelte => exact path_components name _
  | html => exact (by decide : (Location.mk [] "index" ".html").path = "index.html")

theorem path_styleAt : (styleAt name styling).path = pathOfStyle name styling := by
  have written := Location.path_mk (by decide : String.join (["src", "styles"].map (· ++ "/")) = "src/styles/")
    (slug name) ("." ++ styling.extension)
  rwa [← String.append_assoc] at written

theorem path_moduleAt : (moduleAt name).path = s!"src/app/{slug name}.module.ts" :=
  path_app (slug name) _

theorem path_testAt (framework : Framework) (name : String) (typed : Bool) :
    (testAt? framework name typed).map Location.path =
    (Component.TestFile.of? framework name typed).map Component.TestFile.path := by
  cases framework with
  | react =>
    refine congrArg some ((path_tests name _).trans ?_)
    rw [← String.append_assoc, ← String.append_assoc]
    rfl
  | vue =>
    refine congrArg some ((path_tests name _).trans ?_)
    rw [← String.append_assoc]
    rfl
  | angular => exact congrArg some (path_app (slug name) _)
  | svelte =>
    refine congrArg some ((path_tests name _).trans ?_)
    rw [← String.append_assoc]
    rfl
  | html => rfl

/-! ### Their shape -/

/-- The folders that files are in, and the endings that they have. -/
def folders : List (List String) :=
  [[], ["src", "components"], ["src", "app"], ["src", "styles"], ["src", "components", "__tests__"]]

def endings : List String :=
  [".tsx", ".jsx", ".vue", ".component.ts", ".svelte", ".html", ".css", ".scss", ".module.ts",
    ".test.tsx", ".test.jsx", ".spec.ts", ".spec.js", ".component.spec.ts", ".test.ts", ".test.js"]

theorem proper_folders : ∀ folder ∈ folders, ∀ n ∈ folder,
    n ≠ "" ∧ '/' ∉ n.toList ∧ '.' ∉ n.toList := by
  decide

theorem proper_endings : ∀ ending ∈ endings,
    '/' ∉ ending.toList ∧ ending.toList.head? = some '.' ∧ ending.toList.tail.head?.any (· != '.') := by
  decide

theorem proper_mk {folder : List String} {stem ending : String} (known : folder ∈ folders)
    (known' : ending ∈ endings) (plain : Signless stem.toList) : (Location.mk folder stem ending).Proper := by
  obtain ⟨unbroken, first, second⟩ := proper_endings ending known'
  refine ⟨proper_folders folder known, plain, unbroken, ?_⟩
  obtain ⟨rest, written⟩ := List.head?_eq_some_iff.1 first
  cases rest with
  | nil => simp [written] at second
  | cons c rest => exact ⟨c, rest, written, by simpa [written] using second⟩

theorem proper_componentAt (plain : Signless name.toList) : (componentAt framework name typed).Proper := by
  have slugs := slug_signless name
  cases framework with
  | react => cases typed <;> exact proper_mk (by decide) (by decide) plain
  | vue => exact proper_mk (by decide) (by decide) plain
  | angular => exact proper_mk (by decide) (by decide) slugs
  | svelte => exact proper_mk (by decide) (by decide) plain
  | html => exact proper_mk (by decide) (by decide) (signless_plain (by decide))

theorem proper_styleAt : (styleAt name styling).Proper := by
  cases styling <;> exact proper_mk (by decide) (by decide) (slug_signless name)

theorem proper_moduleAt : (moduleAt name).Proper :=
  proper_mk (by decide) (by decide) (slug_signless name)

theorem proper_testAt (plain : Signless name.toList) {l : Location}
    (tests : testAt? framework name typed = some l) : l.Proper := by
  cases framework with
  | react => cases tests; cases typed <;> exact proper_mk (by decide) (by decide) plain
  | vue => cases tests; cases typed <;> exact proper_mk (by decide) (by decide) plain
  | angular => cases tests; exact proper_mk (by decide) (by decide) (slug_signless name)
  | svelte => cases tests; cases typed <;> exact proper_mk (by decide) (by decide) plain
  | html => exact nomatch tests

theorem proper_locations {config : Config} (plain : Signless name.toList) :
    ∀ l ∈ locations config name, l.Proper := by
  intro l mem
  simp only [locations, List.mem_append, List.mem_cons, List.not_mem_nil, or_false] at mem
  rcases mem with ((rfl | rfl) | mem) | mem
  · exact proper_componentAt plain
  · exact proper_styleAt
  · split at mem
    · rw [List.mem_singleton.1 mem]
      exact proper_moduleAt
    · exact nomatch mem
  · split at mem
    · exact proper_testAt plain (Option.mem_toList.1 mem)
    · exact nomatch mem

end Project

end DesignComponents
