import DesignComponents.Json.Basic

/-! Requests to a server, and what comes of them. -/

set_option autoImplicit false

namespace DesignComponents.Web

structure Request where
  url : String
  parameters : List (String × String) := []
  /-- In seconds. -/
  timeout : Number
  /-- What shows who asks, as it was given. -/
  token : Json

structure Response where
  status : Int
  reason : String := ""
  body : String := ""
  deriving DecidableEq, Repr

inductive Error where
  | unreachable (reason : String)
  /-- The server answers that it does not do as asked. -/
  | refused (status : Option Int) (text : String)
  deriving DecidableEq, Repr

def Error.text : Error → String
  | .unreachable reason => reason
  | .refused _ text => text

/-- Whose error a status tells of. -/
def blamed? (status : Int) : Option String :=
  if 400 ≤ status && status < 500 then some "Client"
  else if 500 ≤ status && status < 600 then some "Server"
  else none

/-- The body of a response that is no refusal. -/
def Response.accepted (r : Response) (url : String) : Except Error String :=
  match blamed? r.status with
  | none => .ok r.body
  | some side => .error (.refused (some r.status)
      (toString r.status ++ s!" {side} Error: {r.reason} for url: {url}"))

end DesignComponents.Web
