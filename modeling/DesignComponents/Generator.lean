import DesignComponents.Generation.Generate

/-! A generator makes components in sessions, which share its memory of names, and caches what
they give under the sessions' names. -/

set_option autoImplicit false

namespace DesignComponents

/-- One generation: its progress never falls. -/
structure Session where
  id : String
  phase : Phase := .created
  percent : Number := .real (.zero false)
  listener : Listener := {}

namespace Session

/-- Progress below what was reached is not reported. -/
def report (s : Session) (p : Progress) : Session :=
  if p.percent.lt s.percent then s
  else { s with percent := p.percent, listener := s.listener.hear p }

def enter (s : Session) (phase : Phase) (p : Progress) : Session := { s with phase }.report p

/-- The name of the session that begins at a time. -/
def idOf (millisecond : Int) (number : Nat) : String :=
  let digits := String.ofList (Text.Quoted.hexDigits 9 number)
  s!"gen_{millisecond}_{digits}"

end Session

structure Generator where
  settings : Generation.Settings := {}
  services : Services := {}
  cache : Store Generated := {}
  /-- What the cache's clock shows. -/
  time : Number := 0
  /-- How many sessions there were. -/
  issued : Nat := 0
  active : List String := []

namespace Generator

def make (settings : Generation.Settings) : Generator :=
  { settings, cache := { limits := settings.cache } }

def answer : Run.Answerer (Generator × Session) := fun q (generator, session) =>
  match q with
  | .report percent label => ((), generator, session.report ⟨percent, label⟩)
  | .isCancelled => (session.listener.token.cancelled, generator, session)
  | .pause => ((), generator, session)
  | .enterStage stage =>
    ((), { generator with services := { generator.services with stage } }, session)
  | .enterPhase phase => ((), generator, { session with phase })
  | .takeTask =>
    let (n, services) := generator.services.takeTask
    (n, { generator with services }, session)
  | .rename markup =>
    let (out, services) := generator.services.rename markup
    (out, { generator with services }, session)
  | .transform tree =>
    let (out, services) := generator.services.transform tree
    (out, { generator with services }, session)

/-- A new session. -/
def start (e : Generator) (millisecond : Int) (listener : Listener) : Generator × Session :=
  let id := Session.idOf millisecond (e.issued + 1)
  ({ e with issued := e.issued + 1, active := e.active ++ [id] }, { id, listener })

def leave (e : Generator) (s : Session) : Generator :=
  { e with active := e.active.filter (· != s.id) }

structure Outcome where
  result : Except Trouble Generated
  session : Session

def abort (e : Generator) (s : Session) (t : Trouble) : Outcome × Generator :=
  (⟨.error t, { s with phase := .failed }⟩, e.leave s)

/-- A result is cached before its session is reported as complete. -/
def complete (e : Generator) (s : Session) (g : Generated) : Outcome × Generator :=
  let (cached, cache) := e.cache.set e.time s.id g g.size
  let e := { e with cache }
  match cached with
  | .ok () => (⟨.ok g, s.enter .done ⟨100, "Complete!"⟩⟩, e.leave s)
  | .error f => e.abort s (.fault f)

def finish (e : Generator) (s : Session) (result : Except Trouble Generated) :
    Outcome × Generator :=
  match result with
  | .ok g => e.complete s g
  | .error t => e.abort s t

def generate (e : Generator) (moment : Generation.Moment) (millisecond : Int) (document : Json)
    (config : Config) (listener : Listener) : Outcome × Generator :=
  let (e, s) := e.start millisecond listener
  let run := Generation.generation e.settings s.id moment document config
  let (result, e, s) := run.exec answer (e, s)
  e.finish s result

def result (e : Generator) (id : String) : Option Generated × Generator :=
  let (found, cache) := e.cache.get e.time id
  (found, { e with cache })

end Generator

end DesignComponents
