import DesignComponents.Proofs.Fault
import DesignComponents.Proofs.Number.Range
import DesignComponents.Settings.Read

/-! Settings that nothing is warned of. A component's are read from them unless their optimization is
present and no object, and a generator's unless null stands for a number, or a number that is too large or
has no whole part. The check passes over these. -/

set_option autoImplicit false

namespace DesignComponents.Settings

open Json

/-- The names that stand for numbers which need not be whole. -/
def realNames : List String := ["ttlSeconds", "timeoutSeconds"]

/-- A number with a whole part. -/
inductive Whole : Json → Prop where
  | int (n : Int) : Whole (.num (.int n))
  | real (neg : Bool) (mant : Nat) (exp : Int) : Whole (.num (.real (.finite neg mant exp)))

instance : DecidablePred Whole
  | .num (.int n) => isTrue (.int n)
  | .num (.real (.finite neg m e)) => isTrue (.real neg m e)
  | .num (.real (.infinite _)) | .num (.real .nan) => isFalse nofun
  | .null | .bool _ | .str _ | .arr _ | .obj _ => isFalse nofun

/-- A number that is a double or has one. -/
inductive Real : Json → Prop where
  | int {n : Int} (small : n.natAbs < Binary64.limit) : Real (.num (.int n))
  | real (x : Binary64) : Real (.num (.real x))

instance : DecidablePred Real
  | .num (.int n) =>
    if small : n.natAbs < Binary64.limit then isTrue (.int small) else isFalse fun | .int within => small within
  | .num (.real x) => isTrue (.real x)
  | .null | .bool _ | .str _ | .arr _ | .obj _ => isFalse nofun

/-- A value that suits a name. -/
def Suits (name : String) (v : Json) : Prop := if name ∈ realNames then Real v else Whole v

instance (name : String) : DecidablePred (Suits name) := fun v =>
  inferInstanceAs (Decidable (if name ∈ realNames then Real v else Whole v))

variable {v : Json} {name : String} {members : List (String × Json)} {usual : Number}

theorem succeeds_toInt (numeric : isNumeric v = true) : Succeeds v.toInt ↔ Whole v := by
  cases v with
  | num n =>
    cases n with
    | int n => exact ⟨fun _ => .int n, fun _ => ⟨n, rfl⟩⟩
    | real x =>
      cases x with
      | finite neg m e => exact ⟨fun _ => .real neg m e, fun _ => ⟨_, rfl⟩⟩
      | infinite neg => exact ⟨nofun, nofun⟩
      | nan => exact ⟨nofun, nofun⟩
  | null => exact ⟨nofun, nofun⟩
  | bool b => exact nomatch numeric
  | str s => exact nomatch numeric
  | arr items => exact nomatch numeric
  | obj members => exact nomatch numeric

theorem succeeds_toReal (numeric : isNumeric v = true) : Succeeds v.toReal ↔ Real v := by
  cases v with
  | num n =>
    cases n with
    | int n =>
      by_cases small : n.natAbs < Binary64.limit
      · obtain ⟨neg, m, e, same⟩ := Binary64.ofInt_finite small
        refine ⟨fun _ => .int small, fun _ => ⟨.finite neg m e, ?_⟩⟩
        rw [Json.toReal, Number.toReal, same]
      · refine ⟨?_, fun | .int within => absurd within small⟩
        rintro ⟨x, reads⟩
        rw [Json.toReal, Number.toReal, Binary64.ofInt_overflow (not_lt.1 small)] at reads
        exact nomatch reads
    | real x => exact ⟨fun _ => .real x, fun _ => ⟨x, rfl⟩⟩
  | null => exact ⟨nofun, nofun⟩
  | bool b => exact nomatch numeric
  | str s => exact nomatch numeric
  | arr items => exact nomatch numeric
  | obj members => exact nomatch numeric

/-! ### Sections -/

/-- A section is the members of what stands there. -/
theorem sectionOf_eq (members : List (String × Json)) (name : String) :
    sectionOf (.obj members) name = .ok (.obj ((Json.obj members).field name).toMembers) := by
  have itself : (Json.obj members).orElse (.obj []) = .obj members := by
    cases members <;> rfl
  have found : (Json.obj members).member name = .ok ((Json.obj members).field name) := rfl
  rw [sectionOf, itself, found]
  cases (Json.obj members).field name <;> rfl

/-- A number is taken where nothing is given, or what is given suits. -/
theorem succeeds_member {α : Type} {read : Json → Except Fault α} {P : Json → Prop}
    (reads : ∀ w, isNumeric w = true → (Succeeds (read w) ↔ P w)) (suits : P (.num usual))
    (numeric : isNumeric (v.field name) = true) :
    Succeeds ((Json.obj v.toMembers).memberD name (.num usual) >>= read) ↔
      ∀ w ∈ v.field? name, P w := by
  have taken : (Json.obj v.toMembers).memberD name (.num usual) =
      .ok ((v.field? name).getD (.num usual)) := rfl
  rw [taken]
  rw [field, fieldD] at numeric
  cases given : v.field? name with
  | none => exact ⟨fun _ => nofun, fun _ => (reads _ rfl).2 suits⟩
  | some w =>
    rw [given] at numeric
    refine (reads w numeric).trans ⟨?_, fun all => all w rfl⟩
    rintro holds _ ⟨⟩
    exact holds

theorem succeeds_wholeNumber (usual_whole : Whole (.num usual))
    (numeric : isNumeric (v.field name) = true) :
    Succeeds (wholeNumber (.obj v.toMembers) name usual) ↔ ∀ w ∈ v.field? name, Whole w :=
  succeeds_member (fun _ => succeeds_toInt) usual_whole numeric

theorem succeeds_realNumber (usual_real : Real (.num usual)) (numeric : isNumeric (v.field name) = true) :
    Succeeds (realNumber (.obj v.toMembers) name usual) ↔ ∀ w ∈ v.field? name, Real w := by
  refine succeeds_member (fun w numeric => ?_) usual_real numeric
  rw [succeeds_bind_iff fun _ => succeeds_pure _, and_true]
  exact succeeds_toReal numeric

/-- Only an object has members to ask for. -/
theorem succeeds_flag (v : Json) (name : String) (usual : Bool) :
    Succeeds (flag v name usual) ↔ v.isObject = true := by
  cases v with
  | obj members => exact ⟨fun _ => rfl, fun _ => ⟨_, rfl⟩⟩
  | null => exact ⟨nofun, nofun⟩
  | bool b => exact ⟨nofun, nofun⟩
  | num n => exact ⟨nofun, nofun⟩
  | str s => exact ⟨nofun, nofun⟩
  | arr items => exact ⟨nofun, nofun⟩

/-- The optimization is an object, or counts as absent. -/
theorem succeeds_optimization (v : Json) : Succeeds (optimization (.obj v.toMembers)) ↔
    ((v.field "optimization").isTruthy = true → (v.field "optimization").isObject = true) := by
  have asked : Succeeds (optimization (.obj v.toMembers)) ↔
      ((v.field "optimization").orElse (.obj [])).isObject = true := by
    have flags := fun name => succeeds_flag ((v.field "optimization").orElse (.obj [])) name false
    have found : (Json.obj v.toMembers).member "optimization" = .ok (v.field "optimization") := rfl
    rw [optimization, found]
    refine (succeeds_bind_iff fun _ => succeeds_bind_iff fun _ => succeeds_bind_iff fun _ =>
      succeeds_pure _).trans ?_
    rw [flags, flags, flags, and_true, and_self, and_self]
  rw [asked, Json.orElse]
  split
  · next present => exact ⟨fun object _ => object, fun holds => holds present⟩
  · next absent => exact ⟨fun _ present => absurd present absent, fun _ => rfl⟩

/-- Each name that stands for a number. -/
theorem forall_numericNames {Q : String → String → Prop} :
    (∀ p ∈ numericNames, ∀ name ∈ p.2, Q p.1 name) ↔
      (Q "ingestion" "maxFileSize" ∧ Q "ingestion" "largeFileThreshold" ∧ Q "ingestion" "maxChunkSize") ∧
        (Q "cache" "maxSize" ∧ Q "cache" "ttlSeconds") ∧
          Q "worker" "timeoutSeconds" ∧ Q "worker" "workers" := by
  simp [numericNames]

/-- Where nothing is warned of, whatever stands for a number is one or null. -/
theorem numeric_of_quiet (quiet : warnings (.obj members) = .ok []) : ∀ p ∈ numericNames, ∀ name ∈ p.2,
    isNumeric (((Json.obj members).field p.1).field name) = true := by
  have none_warned : objectWarnings (.obj members) = [] := Except.ok.inj quiet
  simp only [objectWarnings, List.append_eq_nil_iff] at none_warned
  intro p known name listed
  have here := List.flatMap_eq_nil_iff.1 none_warned.2 p known
  have kept := List.filter_eq_nil_iff.1 (List.map_eq_nil_iff.1 here) name listed
  simpa using kept

/-! ### What is read -/

/-- What is given for the numbers suits them. -/
def NumbersSuit (settings : Json) : Prop :=
  ∀ p ∈ numericNames, ∀ name ∈ p.2, ∀ v ∈ (settings.field p.1).field? name, Suits name v

instance (settings : Json) : Decidable (NumbersSuit settings) :=
  inferInstanceAs (Decidable (∀ p ∈ numericNames, ∀ name ∈ p.2, ∀ v ∈ (settings.field p.1).field? name,
    Suits name v))

theorem succeeds_intake (members : List (String × Json)) : Succeeds (intake (.obj members)) ↔
    Succeeds (wholeNumber (.obj members) "maxFileSize" ({} : Intake.Settings).maxFileSize) ∧
      Succeeds (wholeNumber (.obj members) "largeFileThreshold" ({} : Intake.Settings).largeFileThreshold) ∧
      Succeeds (wholeNumber (.obj members) "maxChunkSize" ({} : Intake.Settings).maxChunkSize) := by
  refine (succeeds_bind_iff fun _ => succeeds_bind_iff fun _ => succeeds_bind_iff fun _ =>
    succeeds_pure _).trans ?_
  rw [and_true]

theorem succeeds_cache (members : List (String × Json)) : Succeeds (cache (.obj members)) ↔
    Succeeds (wholeNumber (.obj members) "maxSize" ({} : StoreLimits).maxSize) ∧
      Succeeds (realNumber (.obj members) "ttlSeconds" ({} : StoreLimits).ttlSeconds) := by
  refine (succeeds_bind_iff fun _ => succeeds_bind_iff fun _ => succeeds_pure _).trans ?_
  rw [and_true]

theorem succeeds_generator (quiet : warnings (.obj members) = .ok []) :
    Succeeds (generator (.obj members)) ↔ NumbersSuit (.obj members) := by
  obtain ⟨⟨file, large, chunk⟩, ⟨size, life⟩, time, workers⟩ :=
    (forall_numericNames (Q := fun place name =>
      isNumeric (((Json.obj members).field place).field name) = true)).1 (numeric_of_quiet quiet)
  rw [generator, sectionOf_eq, sectionOf_eq, sectionOf_eq]
  refine (succeeds_bind_iff fun _ => succeeds_bind_iff fun _ => succeeds_bind_iff fun _ =>
    succeeds_bind_iff fun _ => succeeds_bind_iff fun _ => succeeds_pure _).trans ?_
  rw [succeeds_intake, succeeds_cache, NumbersSuit, forall_numericNames (Q := fun place name =>
    ∀ v ∈ ((Json.obj members).field place).field? name, Suits name v)]
  refine and_congr (and_congr ?_ (and_congr ?_ ?_)) (and_congr (and_congr ?_ ?_) ?_)
  · exact succeeds_wholeNumber (.int _) file
  · exact succeeds_wholeNumber (.int _) large
  · exact succeeds_wholeNumber (.int _) chunk
  · exact succeeds_wholeNumber (.int _) size
  · exact succeeds_realNumber (.int (by decide +kernel)) life
  · rw [succeeds_flag, and_true]
    exact (and_iff_right rfl).trans
      (and_congr (succeeds_realNumber (.real _) time) (succeeds_wholeNumber (.int _) workers))

/-- The rest of a component's settings is taken as it is given. -/
theorem succeeds_component (members : List (String × Json)) :
    Succeeds (component (.obj members) []) ↔
      let given := ((Json.obj members).field "generation").field "optimization"
      given.isTruthy = true → given.isObject = true := by
  dsimp only
  rw [← succeeds_optimization]
  have unchanged : Succeeds (component (.obj members) []) ↔ Succeeds (base (.obj members)) :=
    (succeeds_bind_iff fun _ => succeeds_pure _).trans (and_iff_left trivial)
  have given : ∀ (members : List (String × Json)) (name : String) (usual : Json),
      Succeeds ((Json.obj members).memberD name usual) := fun _ _ _ => ⟨_, rfl⟩
  have flags : ∀ (members : List (String × Json)) (name : String) (usual : Bool),
      Succeeds (flag (.obj members) name usual) := fun _ name usual => (succeeds_flag _ name usual).2 rfl
  have onward : ∀ {α β : Type} (a : α) (f : α → Except Fault β), (Except.ok a >>= f) = f a :=
    fun _ _ => rfl
  rw [unchanged, base, sectionOf_eq, onward]
  refine (succeeds_bind_iff fun _ => succeeds_bind_iff fun _ => succeeds_bind_iff fun _ =>
    succeeds_bind_iff fun _ => succeeds_bind_iff fun _ => succeeds_bind_iff fun _ =>
    succeeds_bind_iff fun _ => succeeds_bind_iff fun _ => succeeds_bind_iff fun _ => succeeds_pure _).trans ?_
  simp only [given, flags, true_and, and_true]

/-- Settings that nothing is warned of are read as a component's unless their optimization is present and
no object, and as a generator's unless something is given for a number that does not suit it. -/
theorem quiet_reads (quiet : warnings (.obj members) = .ok []) :
    (Succeeds (component (.obj members) []) ↔
      let given := ((Json.obj members).field "generation").field "optimization"
      given.isTruthy = true → given.isObject = true) ∧
    (Succeeds (generator (.obj members)) ↔ NumbersSuit (.obj members)) :=
  ⟨succeeds_component members, succeeds_generator quiet⟩

/-- Null is no optimization, and a time may be whole. -/
theorem quiet_reads_sample :
    let settings := Json.obj [("generation", .obj [("optimization", .null)]),
      ("cache", .obj [("ttlSeconds", .int 60)])]
    warnings settings = .ok [] ∧ Succeeds (component settings []) ∧ Succeeds (generator settings) := by
  intro settings
  have quiet : warnings settings = .ok [] := by decide +kernel
  obtain ⟨for_component, for_generator⟩ := quiet_reads quiet
  refine ⟨quiet, for_component.2 nofun, for_generator.2 (by decide +kernel)⟩

/-- Not all that is not warned of is read: a text may stand for the optimization, and null for a number. -/
theorem quiet_unread :
    let named := Json.obj [("generation", .obj [("optimization", .str "fast")])]
    let unset := Json.obj [("cache", .obj [("maxSize", .null)])]
    (warnings named = .ok [] ∧ ¬Succeeds (component named [])) ∧
      warnings unset = .ok [] ∧ ¬Succeeds (generator unset) := by
  intro named unset
  have quiet : warnings unset = .ok [] := by decide +kernel
  refine ⟨⟨by decide +kernel, fun reads => ?_⟩, quiet, fun reads => ?_⟩
  · exact absurd ((succeeds_component _).1 reads (by decide +kernel)) (by decide +kernel)
  · exact absurd ((succeeds_generator quiet).1 reads) (by decide +kernel)

end DesignComponents.Settings
