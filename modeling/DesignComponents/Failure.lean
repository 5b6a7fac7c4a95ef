import DesignComponents.Number.Basic

/-! Failures that a run reports: each has a code for programs and a message for people. -/

set_option autoImplicit false

namespace DesignComponents

inductive FailureKind where
  | general
  /-- The input cannot be read; it is turned away before any work is done. -/
  | validation
  | sizeLimit (size limit : Number)
  | phase (name : String)
  | cancelled
  | workerTimeout (task : String) (timeout : Number)
  deriving DecidableEq, Repr

structure Failure where
  kind : FailureKind
  message : String
  code : String
  userMessage : String
  deriving DecidableEq, Repr

def FailureKind.code : FailureKind → String
  | .general => "CODEGEN_ERROR"
  | .validation => "VALIDATION_ERROR"
  | .sizeLimit .. => "SIZE_LIMIT_EXCEEDED"
  | .phase _ => "PHASE_ERROR"
  | .cancelled => "CANCELLED"
  | .workerTimeout .. => "WORKER_TIMEOUT"

/-- What people are told unless a failure says otherwise. -/
def FailureKind.userMessage : FailureKind → String
  | .general => "An unexpected error occurred during code generation."
  | .validation | .sizeLimit .. =>
    "The design document could not be read. Please check the input and try again."
  | .phase _ => "Code generation failed. Please try again with a different design."
  | .cancelled => "Processing cancelled by user."
  | .workerTimeout .. => "A background task took too long and was stopped."

namespace Failure

/-- The given text, unless it is missing or empty. -/
def chosen (given : Option String) (usual : String) : String :=
  match given with
  | some s => if s.isEmpty then usual else s
  | none => usual

def ofKind (kind : FailureKind) (message : String) (code userMessage : Option String) : Failure :=
  ⟨kind, message, chosen code kind.code, chosen userMessage kind.userMessage⟩

def validation (message code : String) : Failure := .ofKind .validation message (some code) none

def validationSaying (message code userMessage : String) : Failure :=
  .ofKind .validation message (some code) (some userMessage)

/-- A size in mebibytes with one decimal. -/
def megabytes (size : Number) : Except Fault String :=
  return String.ofList (Decimal.fixedText 1 (← size.div (.int 1048576)))

def sizeLimit (size limit : Number) : Except Fault Failure := do
  let given ← megabytes size
  let most ← megabytes limit
  return .ofKind (.sizeLimit size limit) s!"File too large: {given}MB exceeds {most}MB limit" none
    (some s!"The document is too large ({given}MB). The limit is {most}MB.")

def inPhase (name message : String) (code : Option String) : Failure :=
  .ofKind (.phase name) s!"[{name}] {message}" code none

def cancelled : Failure := .ofKind .cancelled "Processing cancelled by user" none none

def workerTimeout (task : String) (timeout : Number) : Except Fault Failure := do
  let seconds := String.ofList (Decimal.fixedText 1 (← timeout.toReal))
  return .ofKind (.workerTimeout task timeout) s!"Worker task {task} timed out after {seconds}s"
    none none

def isValidation (f : Failure) : Bool :=
  match f.kind with
  | .validation | .sizeLimit .. => true
  | _ => false

end Failure

/-- What ends a run early. -/
inductive Trouble where
  | failure (f : Failure)
  | fault (f : Fault)
  deriving DecidableEq, Repr

instance : Coe Failure Trouble := ⟨.failure⟩

instance : Coe Fault Trouble := ⟨.fault⟩

/-- The trouble that a failure is, or that of telling of it. -/
def Trouble.ofFailure : Except Fault Failure → Trouble
  | .ok f => .failure f
  | .error f => .fault f

/-- A fault, in a run that may also fail. -/
def liftFault {α : Type} : Except Fault α → Except Trouble α
  | .ok a => .ok a
  | .error f => .error (.fault f)

end DesignComponents
