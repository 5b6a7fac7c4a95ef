import DesignComponents.Disk.Basic
import DesignComponents.Failure
import DesignComponents.Json.Parser
import DesignComponents.Web

/-! Whatever goes wrong when a command is carried out, and what people are told of it. -/

set_option autoImplicit false

namespace DesignComponents

inductive Problem where
  | trouble (t : Trouble)
  | disk (e : Disk.Error)
  | web (e : Web.Error)
  /-- A text that is no JSON. -/
  | unread (e : Json.ParseError) (text : String)
  deriving DecidableEq, Repr

namespace Problem

def message : Problem → String
  | .trouble (.failure f) => f.message
  | .trouble (.fault f) => f.message
  | .disk e => e.message
  | .web e => e.text
  | .unread e text => e.message text

/-- What people are told where nothing more is known than a message. -/
def plain (message : String) : String :=
  if message.isEmpty then "An unexpected error occurred" else message

def statusAdvice? (status : Int) : Option String :=
  [(401, "Invalid access token. Please check your Figma Personal Access Token."),
    (403, "Access denied. Please ensure you have permission to access this Figma file."),
    (404, "Figma file not found. Please check the URL and try again."),
    (429, "Too many requests. Please wait a moment and try again.")].lookup status

/-- What people are told, in one sentence. -/
def description (p : Problem) : String :=
  match p with
  | .trouble (.failure f) => f.userMessage
  | .web (.refused (some status) text) => (statusAdvice? status).getD (plain text)
  | .web (.unreachable _) => "Network error. Please check your internet connection and try again."
  | p => plain p.message

end Problem

instance : Coe Failure Problem := ⟨fun f => .trouble (.failure f)⟩

instance : Coe Fault Problem := ⟨fun f => .trouble (.fault f)⟩

end DesignComponents
