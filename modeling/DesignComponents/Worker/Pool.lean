import DesignComponents.Failure
import DesignComponents.OrderedMap

/-! Workers that take tasks from a queue. An answer finds the one who waits for it by its task's
name; if nobody waits any more it counts as late. -/

set_option autoImplicit false

namespace DesignComponents.Worker

inductive Job where
  | parse
  | transform
  | optimize
  | validate
  deriving DecidableEq, Repr, Inhabited

namespace Job

def all : List Job := [parse, transform, optimize, validate]

def name : Job → String
  | parse => "parse"
  | transform => "transform"
  | optimize => "optimize"
  | validate => "validate"

def named? (s : String) : Option Job := all.find? fun t => t.name == s

end Job

variable {P R : Type}

structure Request (P : Type) where
  task : Nat
  type : Job
  payload : P

/-- A worker's answer: a result, or what went wrong. -/
structure Response (R : Type) where
  task : Nat
  outcome : Except String R

/-- What is done with a payload of each type. -/
abbrev Handlers (P R : Type) := Job → Option (P → Except String R)

/-- The tasks that are waited for, those in the queue, those that workers have, the answers not
yet handed over, and the answers handed over. -/
structure Pool (P R : Type) where
  workers : Nat := 1
  issued : Nat := 0
  pending : List Nat := []
  requests : List (Request P) := []
  running : List (Request P) := []
  responses : List (Response R) := []
  delivered : List (Response R) := []
  late : Nat := 0

def taskName (task : Nat) : String := s!"task-{task}"

/-- Whether an answer is waited for at all. The end of the wait has to be a double. -/
def isAwaited (timeout : Number) : Except Fault Bool :=
  if Number.lt 0 timeout then (fun _ => true) <$> timeout.toReal else .ok false

namespace Pool

/-- There is at least one worker. -/
def make (workers : Int) : Pool P R := { workers := (max 1 workers).toNat }

/-- Begins to wait for a new task. -/
def expect (p : Pool P R) : Nat × Pool P R :=
  (p.issued + 1, { p with issued := p.issued + 1, pending := p.pending ++ [p.issued + 1] })

def enqueue (p : Pool P R) (r : Request P) : Pool P R := { p with requests := p.requests ++ [r] }

/-- The task's number. -/
def submit (p : Pool P R) (type : Job) (payload : P) : Nat × Pool P R :=
  let (task, p) := p.expect
  (task, p.enqueue ⟨task, type, payload⟩)

/-- A worker that is free takes the first task of the queue. -/
def take? (p : Pool P R) : Option (Pool P R) :=
  match p.requests with
  | r :: rest =>
    if p.running.length < p.workers then
      some { p with requests := rest, running := p.running ++ [r] }
    else none
  | [] => none

def handle (handlers : Handlers P R) (r : Request P) : Except String R :=
  match handlers r.type with
  | some handler => handler r.payload
  | none => .error s!"No handler for task type {r.type.name}"

/-- The worker that has the task answers it. -/
def finish (handlers : Handlers P R) (p : Pool P R) (task : Nat) : Pool P R :=
  match p.running.find? (·.task == task) with
  | some r => { p with
      running := p.running.filter (·.task != task)
      responses := p.responses ++ [⟨task, handle handlers r⟩] }
  | none => p

/-- The first answer is handed over, or found to be late. -/
def dispatch? (p : Pool P R) : Option (Pool P R) :=
  match p.responses with
  | r :: rest =>
    if p.pending.contains r.task then
      some { p with
        responses := rest, pending := p.pending.filter (· != r.task)
        delivered := p.delivered ++ [r] }
    else some { p with responses := rest, late := p.late + 1 }
  | [] => none

/-- No longer waits for the task. -/
def abandon (p : Pool P R) (task : Nat) : Pool P R :=
  { p with pending := p.pending.filter (· != task) }

/-- The answer to a task, once. -/
def collect? (p : Pool P R) (task : Nat) : Option (Response R × Pool P R) :=
  (p.delivered.find? (·.task == task)).map fun r =>
    (r, { p with delivered := p.delivered.filter (·.task != task) })

/-- Nobody waits, and nothing is done, any more. Numbers go on, and so does the count of late
answers. -/
def close (p : Pool P R) : Pool P R :=
  { workers := p.workers, issued := p.issued, late := p.late }

end Pool

/-- What the one who waited for a task learns of it. -/
def outcomeOf (type : Job) (r : Response R) : Except Failure R :=
  r.outcome.mapError fun e =>
    .inPhase type.name s!"Worker task {taskName r.task} failed: {e}" (some "WORKER_ERROR")

end DesignComponents.Worker
