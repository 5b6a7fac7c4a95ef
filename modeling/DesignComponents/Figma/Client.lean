import DesignComponents.Failure
import DesignComponents.Json.Basic
import DesignComponents.Problem
import DesignComponents.Text.Cut
import DesignComponents.Text.Trim

/-! Asking a server for a design file, whose key is given as it is or within an address. -/

set_option autoImplicit false

namespace DesignComponents.Figma

/-! ### Keys -/

namespace FileKey

open Text

def leastLength : Nat := 22

def greatestLength : Nat := 128

def isKey (text : List Char) : Bool :=
  text.all isAsciiAlphanumeric && leastLength ≤ text.length && text.length ≤ greatestLength

/-- The key of an address; what follows the longest key is not looked at. -/
def inAddress : Reader (List Char) := do
  Reader.text "figma.com/"
  let _ ← Reader.oneOf ["file", "proto", "design"]
  Reader.text "/"
  let run ← Reader.atLeast leastLength isAsciiAlphanumeric
  return run.take greatestLength

def noKey (text : List Char) : Failure :=
  .validationSaying ("Invalid Figma URL or file key: " ++ String.ofList (Quoted.encode text))
    "INVALID_FILE_KEY"
    "Invalid Figma URL format. Please provide a valid Figma file, prototype, or design URL."

def ofText (text : List Char) : Except Failure String :=
  let text := trim text
  match first? inAddress text with
  | some (_, key, _) => .ok (String.ofList key)
  | none => if isKey text then .ok (String.ofList text) else .error (noKey text)

/-- The key that a setting gives. -/
def ofSetting (v : Json) : Except Trouble String :=
  match v.orElse (.str "") with
  | .str s => (ofText s.toList).mapError .failure
  | v => .error (.fault (.noMember v.kindName "strip"))

end FileKey

/-! ### Files -/

namespace Client

def address : String := "https://api.figma.com/v1"

def usualTimeout : Number := .real (.ofInt 30)

/-- The request for a file, or for some of its nodes. -/
def request (token : Json) (key : String) (nodes : List String) (timeout : Number) :
    Web.Request where
  url := s!"{address}/files/{key}"
  parameters := if nodes.isEmpty then [] else [("ids", ",".intercalate nodes)]
  timeout
  token

/-- A text without the byte order mark that may stand before it. -/
def unmarked (text : String) : String :=
  match text.toList with
  | '\ufeff' :: rest => String.ofList rest
  | _ => text

/-- The document that came in answer to a request. -/
def document (asked : Web.Request) (reply : Except Web.Error Web.Response) :
    Except Problem Json := do
  let response ← reply.mapError .web
  let body := unmarked (← (response.accepted asked.url).mapError .web)
  (Json.parse body).mapError fun e => .unread e body

end Client

end DesignComponents.Figma
