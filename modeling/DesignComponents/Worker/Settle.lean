import DesignComponents.Number.Basic
import DesignComponents.Worker.Pool

/-! A pool of workers left alone until nothing moves any more, and tasks submitted and waited
for. -/

set_option autoImplicit false

namespace DesignComponents.Worker

variable {P R : Type}

/-- A pool with what its workers can do, and which tasks they are able to finish. -/
structure Site (P R : Type) where
  pool : Pool P R
  handlers : Handlers P R
  isReady : Request P → Bool := fun _ => true
  timeout : Number := 30

/-- One step of a pool: hands over an answer, or finishes a task, or takes one. -/
def step? (handlers : Handlers P R) (isReady : Request P → Bool) (p : Pool P R) :
    Option (Pool P R) :=
  p.dispatch?.or <|
    match p.running.find? isReady with
    | some r => some (p.finish handlers r.task)
    | none => p.take?

/-- Each task is taken, finished and handed over once, so three steps a task are enough. -/
def settleFrom (handlers : Handlers P R) (isReady : Request P → Bool) : Nat → Pool P R → Pool P R
  | 0, p => p
  | fuel + 1, p =>
    match step? handlers isReady p with
    | some p => settleFrom handlers isReady fuel p
    | none => p

namespace Site

def settle (s : Site P R) : Site P R :=
  let p := s.pool
  let fuel := 3 * (p.requests.length + p.running.length + p.responses.length)
  { s with pool := settleFrom s.handlers s.isReady fuel p }

/-- Lets workers finish all that they have. -/
def release (s : Site P R) : Site P R := { s with isReady := fun _ => true }.settle

/-- Closes the pool; what its workers still have they can finish from then on. -/
def close (s : Site P R) : Site P R := { s with pool := s.pool.close, isReady := fun _ => true }

/-- What is learnt where no answer comes. -/
def missed (task : Nat) (timeout : Number) : Trouble :=
  match isAwaited timeout with
  | .ok _ => .ofFailure (Failure.workerTimeout (taskName task) timeout)
  | .error f => .fault f

/-- The answer to a task. One that has not come by now does not come in time. -/
def await (s : Site P R) (type : Job) (task : Nat) (timeout : Number) :
    Except Trouble R × Site P R :=
  match s.pool.collect? task with
  | some (r, pool) => ((outcomeOf type r).mapError .failure, { s with pool })
  | none => (.error (missed task timeout), { s with pool := s.pool.abandon task })

/-- A task submitted under the name of a type. One of an unknown type is waited for in vain. -/
def submit (s : Site P R) (type : String) (payload : P) :
    Except Fault (Job × Nat) × Site P R :=
  match Job.named? type with
  | some t =>
    let (task, pool) := s.pool.submit t payload
    (.ok (t, task), { s with pool })
  | none => (.error (.unknownTask type), { s with pool := s.pool.expect.2 })

def awaitOne (s : Site P R) (submitted : Except Fault (Job × Nat)) (timeout : Number) :
    Except Trouble R × Site P R :=
  match submitted with
  | .ok (type, task) =>
    s.await type task timeout
  | .error f => (.error (.fault f), s)

/-- Whether the answers have the time to come. -/
def hasTime (timeout : Number) : Bool := (isAwaited timeout).toOption.getD false

/-- Tasks submitted together and then waited for, in their order. Who waits for no time at all
misses every answer. -/
def call (s : Site P R) (tasks : List (String × P)) (timeout : Number) :
    List (Except Trouble R) × Site P R :=
  let (submitted, s) := tasks.foldl (fun (done, s) (type, payload) =>
    let (t, s) := s.submit type payload
    (done ++ [t], s)) ([], s)
  submitted.foldl (fun (results, s) t =>
    let (r, s) := awaitOne s t timeout
    (results ++ [r], s)) ([], if hasTime timeout then s.settle else s)

end Site

end DesignComponents.Worker
