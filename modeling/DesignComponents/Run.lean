import DesignComponents.Attribute.Memory
import DesignComponents.Failure
import DesignComponents.Script
import DesignComponents.Target.Transform

/-! Runs that ask of what is around them: they report progress, pause, learn whether they are
cancelled, and share a memory of renamed attributes. -/

set_option autoImplicit false

namespace DesignComponents

/-- Where reading a document stands. -/
inductive Stage where
  | idle
  | validating
  | processing
  | chunking
  | done
  | failed
  | cancelled
  deriving DecidableEq, Repr, Inhabited

def Stage.name : Stage → String
  | idle => "idle"
  | validating => "validating"
  | processing => "sync_processing"
  | chunking => "chunked_processing"
  | done => "done"
  | failed => "failed"
  | cancelled => "cancelled"

/-- Where generating a component stands. -/
inductive Phase where
  | created
  | analyzing
  | planning
  | generating
  | adapting
  | assessing
  | assembling
  | done
  | failed
  deriving DecidableEq, Repr, Inhabited

def Phase.name : Phase → String
  | created => "created"
  | analyzing => "analyzing"
  | planning => "planning"
  | generating => "generating"
  | adapting => "adapting"
  | assessing => "assessing"
  | assembling => "assembling"
  | done => "done"
  | failed => "failed"

inductive Ask where
  | report (percent : Number) (label : String)
  | isCancelled
  /-- Lets others go on. -/
  | pause
  | enterStage (stage : Stage)
  | enterPhase (phase : Phase)
  /-- Takes a number for a task. -/
  | takeTask
  | rename (markup : List Char)
  | transform (tree : Source.Node)

abbrev Ask.Answer : Ask → Type
  | .report .. | .pause | .enterStage _ | .enterPhase _ => Unit
  | .isCancelled => Bool
  | .takeTask => Nat
  | .rename _ => List Char
  | .transform _ => Except Fault Target.Transformed

abbrev Run := Script Ask.Answer Trouble

namespace Run

variable {α σ : Type}

def put (q : Ask) : Run q.Answer := Script.put q

def report (percent : Number) (label : String) : Run Unit := put (.report percent label)

def pause : Run Unit := put .pause

def enterStage (stage : Stage) : Run Unit := put (.enterStage stage)

def rename (markup : List Char) : Run (List Char) := put (.rename markup)

def fail (t : Trouble) : Run α := Script.fail t

def lift (r : Except Trouble α) : Run α := Script.lift r

def liftFault (r : Except Fault α) : Run α := lift (DesignComponents.liftFault r)

/-- Ends the run if it is cancelled. -/
def check : Run Unit :=
  .ask .isCancelled fun (cancelled : Bool) =>
    if cancelled then fail (.failure .cancelled) else .done ()

/-! ### Going on -/

/-- What answers a run's questions. -/
abbrev Answerer (σ : Type) := Script.Answerer Ask.Answer σ

/-- Runs to the next pause, and past it. -/
def resume (answer : Answerer σ) : Run α → σ → Run α × σ
  | .done a, s => (.done a, s)
  | .fail t, s => (.fail t, s)
  | .ask .pause next, s =>
    let (a, s) := answer .pause s
    (next a, s)
  | .ask q next, s =>
    let (a, s) := answer q s
    resume answer (next a) s

end Run

/-! ### Who listens -/

/-- A request to stop, which is heeded where a run checks for it. -/
structure Token where
  cancelled : Bool := false
  deriving DecidableEq, Repr, Inhabited

namespace Token

def cancel (_ : Token) : Token := ⟨true⟩

def check (t : Token) : Except Failure Unit := if t.cancelled then .error .cancelled else .ok ()

end Token

structure Progress where
  percent : Number
  label : String
  deriving DecidableEq, Repr

/-- Hears of a run's progress, and may cancel the run whenever it hears of it. -/
structure Listener where
  /-- Whether to cancel, from all that was heard, the latest first. -/
  cancels : List Progress → Bool := fun _ => false
  heard : List Progress := []
  token : Token := {}

def Listener.hear (l : Listener) (p : Progress) : Listener :=
  let heard := p :: l.heard
  { l with heard, token := if l.cancels heard then l.token.cancel else l.token }

/-- What the runs of one generator share. -/
structure Services where
  names : Attribute.Memory := {}
  stage : Stage := .idle
  tasks : Nat := 0

namespace Services

def rename (s : Services) (markup : List Char) : List Char × Services :=
  let (out, names) := (Attribute.Memory.renameMarkup markup).run s.names
  (out, { s with names })

def transform (s : Services) (tree : Source.Node) : Except Fault Target.Transformed × Services :=
  let (out, names) := (Target.transform tree).run.run s.names
  (out, { s with names })

def takeTask (s : Services) : Nat × Services := (s.tasks + 1, { s with tasks := s.tasks + 1 })

end Services

end DesignComponents
