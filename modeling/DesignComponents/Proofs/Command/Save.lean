import DesignComponents.Proofs.Disk.Path
import DesignComponents.Proofs.Script

/-! Saving the files of a project. No file is opened outside the folder, whatever the paths are: the
files are opened one after another, until one of them leads out. -/

set_option autoImplicit false

namespace DesignComponents

open Disk Disk.Path

/-! ### Runs that open files -/

namespace Shell

/-- The files that are opened to be written, each with what is written to it. -/
def openings (wishes : List Wish) : List (String × String) :=
  wishes.filterMap fun w => match w with
    | .write path text => some (path, text)
    | _ => none

variable {σ α β : Type} {answer : Script.Answerer Wish.Answer σ} {s : Shell α} {f : α → Shell β}
  {plan plan' : List (String × String)} {a : α}

/-- Files are opened as planned and the run ends as told, unless the disk fails on the way. -/
def Opens (answer : Script.Answerer Wish.Answer σ) (s : Shell α) (plan : List (String × String))
    (result : Except Problem α) : Prop :=
  ∀ st, (openings (s.asked answer st) = plan ∧ (s.exec answer st).1 = result) ∨
    (openings (s.asked answer st) <+: plan ∧ ∃ e, (s.exec answer st).1 = .error (.disk e))

theorem opens_pure (a : α) : Opens answer (pure a) [] (.ok a) := fun _ => .inl ⟨rfl, rfl⟩

theorem opens_fail (p : Problem) : Opens answer (fail p : Shell α) [] (.error p) :=
  fun _ => .inl ⟨rfl, rfl⟩

theorem Opens.bind {result : Except Problem β} (first : Opens answer s plan (.ok a))
    (second : Opens answer (f a) plan' result) : Opens answer (s >>= f) (plan ++ plan') result := by
  intro st
  change (openings ((s.bind f).asked answer st) = _ ∧ ((s.bind f).exec answer st).1 = _) ∨
    (openings ((s.bind f).asked answer st) <+: _ ∧ ∃ e, ((s.bind f).exec answer st).1 = _)
  rw [Script.asked_bind, Script.exec_bind, openings, List.filterMap_append]
  have here := first st
  cases outcome : s.exec answer st with
  | mk result' st' =>
  rw [outcome] at here
  rcases here with ⟨opened, rfl⟩ | ⟨opened, e, rfl⟩
  · -- The rest of the plan is the rest of the run's.
    rcases second st' with ⟨opened', ends'⟩ | ⟨opened', e, ends'⟩
    · exact .inl ⟨congrArg₂ (· ++ ·) opened opened', ends'⟩
    · refine .inr ⟨?_, e, ends'⟩
      rw [← opened]
      exact (List.prefix_append_right_inj _).2 opened'
  · refine .inr ⟨?_, e, rfl⟩
    rw [List.filterMap_nil, List.append_nil]
    exact opened.trans (List.prefix_append plan plan')

/-- A wish is granted, or the disk fails. -/
theorem opens_ask {w : Wish} {next : w.Answer → Shell Unit}
    (granted : ∀ reply, ∃ r : Except Disk.Error Unit, next reply = onDisk r) :
    Opens answer (.ask w next) (openings [w]) (.ok ()) := by
  intro st
  obtain ⟨r, ends⟩ := granted (answer w st).1
  have asked : (Script.ask w next).asked answer st = w :: (onDisk r).asked answer (answer w st).2 :=
    congrArg (fun s : Shell Unit => w :: s.asked answer (answer w st).2) ends
  have exec : (Script.ask w next).exec answer st = (onDisk r).exec answer (answer w st).2 :=
    congrArg (fun s : Shell Unit => s.exec answer (answer w st).2) ends
  rw [asked, exec]
  cases r with
  | ok _ => exact .inl ⟨rfl, rfl⟩
  | error e => exact .inr ⟨List.prefix_rfl, e, rfl⟩

theorem opens_folder {current : Disk.Path} (located : ∀ st, (answer .folder st).1 = current) :
    Opens answer (put .folder) [] (.ok current) := fun st => .inl ⟨rfl, congrArg Except.ok (located st)⟩

theorem opens_makeFolders (path : String) : Opens answer (makeFolders path) [] (.ok ()) :=
  opens_ask fun reply => ⟨reply, rfl⟩

theorem opens_write (path text : String) : Opens answer (write path text) [(path, text)] (.ok ()) :=
  opens_ask fun reply => ⟨reply, rfl⟩

end Shell

/-! ### Files with their places -/

namespace Project

/-- What is opened for a file in its place. -/
def Placed.opening (p : Placed) : String × String := (p.path.text, p.text)

/-- Whether a file's path leads nowhere but into a folder. -/
def staysIn (root : String) (file : String × String) : Bool := decide (Inside root (settled root file.1))

/-- The files before the first whose path leads out of a folder, each with where it leads. -/
def planned (root : String) (files : List (String × String)) : List (String × String) :=
  (files.takeWhile (staysIn root)).map fun file => (settled root file.1, file.2)

variable {root : Disk.Path}

/-- Files have their places up to the first that leads out, which is refused. -/
theorem place_eq (plain : root.Plain) (single : root.doubled = false) (files : List (String × String)) :
    (place root files).placed.map Placed.opening = planned root.text files ∧
      (place root files).refused = (files.find? (!staysIn root.text ·)).map Prod.fst := by
  induction files with
  | nil => exact ⟨rfl, rfl⟩
  | cons file rest ih =>
    obtain ⟨path, text⟩ := file
    have reached : (root.resolve path).text = settled root.text path := plain.text_resolve path
    have agrees : staysIn root.text (path, text) = root.contains (root.resolve path) := by
      rw [Bool.eq_iff_iff, staysIn, decide_eq_true_iff,
        contains_iff plain (plain.resolve path) single, reached]
    -- Both go on or stop at the same file.
    rw [planned, place, List.takeWhile_cons, List.find?_cons, agrees]
    cases root.contains (root.resolve path) with
    | false => exact ⟨rfl, rfl⟩
    | true => exact ⟨congrArg₂ List.cons (congrArg (·, text) reached) ih.1, ih.2⟩

/-- What is planned is settled, and stays in the folder. -/
theorem planned_inside (plain : root.Plain) {files : List (String × String)} {file : String × String}
    (mem : file ∈ planned root.text files) : Inside root.text (normalized file.1) := by
  obtain ⟨⟨path, text⟩, kept, rfl⟩ := List.mem_map.1 mem
  have stays : staysIn root.text (path, text) = true := List.mem_takeWhile_imp kept
  have tidy : normalized (settled root.text path) = settled root.text path := by
    rw [← plain.text_resolve, (plain.resolve path).normalized_text]
  rw [tidy]
  exact of_decide_eq_true stays

end Project

namespace Command

open Project Shell

variable {σ : Type} {answer : Script.Answerer Wish.Answer σ}

theorem opens_savePlaced (p : Placed) : Opens answer (savePlaced p) [p.opening] (.ok p.path) :=
  (opens_makeFolders _).bind ((opens_write _ _).bind (opens_pure p.path))

theorem opens_mapM (placed : List Placed) :
    Opens answer (placed.mapM savePlaced) (placed.map Placed.opening) (.ok (placed.map Placed.path)) := by
  -- The paths so far are held in reverse.
  have further : ∀ done : List Disk.Path, Opens answer (List.mapM.loop savePlaced placed done)
      (placed.map Placed.opening) (.ok (done.reverse ++ placed.map Placed.path)) := by
    induction placed with
    | nil =>
      intro done
      rw [List.map_nil, List.map_nil, List.append_nil]
      exact opens_pure done.reverse
    | cons p rest ih =>
      intro done
      have onward := ih (p.path :: done)
      rw [List.reverse_cons, List.append_assoc, List.singleton_append] at onward
      exact (opens_savePlaced p).bind (f := fun path => List.mapM.loop savePlaced rest (path :: done)) onward
  exact further []

/-- How saving ends, if the disk does not fail. -/
def outcome (root : Disk.Path) (files : List (String × String)) : Except Problem (List Disk.Path) :=
  match (place root files).refused with
  | some path => .error (Fault.outsideOutput path)
  | none => .ok ((place root files).placed.map Placed.path)

theorem opens_placed (root : Disk.Path) (files : List (String × String)) :
    Opens answer (do
        let saved ← (place root files).placed.mapM savePlaced
        match (place root files).refused with
        | some path => fail (Fault.outsideOutput path)
        | none => return saved)
      ((place root files).placed.map Placed.opening) (outcome root files) := by
  rw [← List.append_nil (List.map _ _)]
  refine (opens_mapM _).bind ?_
  rw [outcome]
  cases (place root files).refused with
  | some path => exact opens_fail _
  | none => exact opens_pure _

/-- Whatever the files are called, none is opened outside the folder. Those before the first whose path
leads out are opened in their order, and that one ends the run, as long as the disk does not fail. -/
theorem saveFiles_confined {current : Disk.Path} (located : ∀ st, (answer .folder st).1 = current)
    (plain : current.Plain) (single : current.doubled = false) {folder : String}
    (single' : isDoubled folder = false) (files : List (String × String)) (st : σ) :
    let root := settled current.text folder
    let opened := openings ((saveFiles folder files).asked answer st)
    let result := ((saveFiles folder files).exec answer st).1
    (∀ file ∈ opened, Inside root (normalized file.1)) ∧
      ((opened = planned root files ∧ match files.find? (!staysIn root ·) with
        | some file => result = .error (Fault.outsideOutput file.1)
        | none => ∃ paths, result = .ok paths ∧
            paths.map Disk.Path.text = (planned root files).map Prod.fst) ∨
      (opened <+: planned root files ∧ ∃ e, result = .error (.disk e))) := by
  intro root opened result
  have rooted : (current.resolve folder).text = root := plain.text_resolve folder
  have plain' : (current.resolve folder).Plain := plain.resolve folder
  have single'' : (current.resolve folder).doubled = false := by
    unfold Disk.Path.resolve
    split
    · exact single'
    · exact single
  obtain ⟨places, refused⟩ := place_eq plain' single'' files
  rw [rooted] at places refused
  have confined : ∀ file ∈ planned root files, Inside root (normalized file.1) := fun file mem =>
    rooted ▸ planned_inside plain' (rooted.symm ▸ mem)
  have run : Opens answer (saveFiles folder files) (planned root files)
      (outcome (current.resolve folder) files) := by
    rw [← places]
    exact (opens_folder located).bind (opens_placed (current.resolve folder) files)
  rcases run st with ⟨all, ends⟩ | ⟨some_opened, e, ends⟩
  · refine ⟨fun file mem => confined file (all ▸ mem), .inl ⟨all, ?_⟩⟩
    rw [outcome, refused] at ends
    cases first : files.find? (!staysIn root ·) with
    | some file => rwa [first] at ends
    | none =>
      rw [first] at ends
      refine ⟨_, ends, ?_⟩
      rw [← places, List.map_map, List.map_map]
      rfl
  · exact ⟨fun file mem => confined file (some_opened.subset mem), .inr ⟨some_opened, e, ends⟩⟩

/-- The disk grants every wish; paths start from one folder. -/
def granted (current : Disk.Path) : Script.Answerer Wish.Answer Unit := fun w _ =>
  (match w with
    | .print _ | .complain _ => ()
    | .read _ => .ok ""
    | .isThere _ => .ok true
    | .makeFolders _ | .write .. => .ok ()
    | .folder => current
    | .variable _ => none
    | .fetch _ => .error (.unreachable "")
    | .clock => (⟨0, 0, default⟩, 0), ())

/-- A folder may be left and entered again, but one beside it whose name begins alike is another. -/
theorem saveFiles_beside :
    let files := [("a/./b", "1"), ("../out//c", "2"), ("../out-old/d", "3"), ("e", "4")]
    let run := saveFiles "out" files
    openings (run.asked (granted ⟨false, ["work"]⟩) ()) = [("/work/out/a/b", "1"), ("/work/out/c", "2")] ∧
      (run.exec (granted ⟨false, ["work"]⟩) ()).1 = .error (Fault.outsideOutput "../out-old/d") := by
  intro files run
  have planned_two : planned (settled "/work" "out") files =
      [("/work/out/a/b", "1"), ("/work/out/c", "2")] := by decide +kernel
  have first : files.find? (!staysIn (settled "/work" "out") ·) = some ("../out-old/d", "3") := by
    decide +kernel
  have text : (Disk.Path.mk false ["work"]).text = "/work" := by decide +kernel
  have confined := @saveFiles_confined Unit (granted ⟨false, ["work"]⟩)
    ⟨false, ["work"]⟩ (fun _ => rfl) (by decide) rfl "out" (by decide) files ()
  rw [text] at confined
  dsimp only at confined
  rw [planned_two, first] at confined
  rcases confined.2 with ⟨opened, ends⟩ | ⟨-, e, fails⟩
  · exact ⟨opened, ends⟩
  · have refused : (run.exec (granted ⟨false, ["work"]⟩) ()).1 =
        .error (Fault.outsideOutput "../out-old/d") := by decide +kernel
    rw [refused] at fails
    exact nomatch fails

end Command

end DesignComponents
