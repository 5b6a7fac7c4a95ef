import DesignComponents.Shell

/-! A machine as a value: what commands find on it, and what they leave behind. -/

set_option autoImplicit false

namespace DesignComponents

structure Machine where
  disk : Disk := {}
  environment : List (String × String) := []
  /-- How the server answers. -/
  server : Web.Request → Except Web.Error Web.Response := fun _ => .error (.unreachable "offline")
  clock : Generation.Moment × Int
  /-- What was printed, the latest first. -/
  printed : List String := []
  complaints : List String := []
  /-- What was asked of the server, the latest first. -/
  requests : List Web.Request := []

namespace Machine

/-- All that was printed. -/
def output (m : Machine) : String := String.join m.printed.reverse

def answer : Script.Answerer Wish.Answer Machine := fun w m =>
  match w with
  | .print text => ((), { m with printed := text :: m.printed })
  | .complain text => ((), { m with complaints := text :: m.complaints })
  | .read path => (m.disk.read path, m)
  | .isThere path => (m.disk.isThere path, m)
  | .makeFolders path =>
    let (done, disk) := m.disk.makeFolders path
    (done, { m with disk })
  | .write path text =>
    let (done, disk) := m.disk.write path text
    (done, { m with disk })
  | .folder => (m.disk.current, m)
  | .variable name => (m.environment.lookup name, m)
  | .fetch request => (m.server request, { m with requests := request :: m.requests })
  | .clock => (m.clock, m)

def run {α : Type} (s : Shell α) (m : Machine) : Except Problem α × Machine := s.exec answer m

end Machine

end DesignComponents
