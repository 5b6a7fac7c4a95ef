import DesignComponents.Failure
import DesignComponents.Json.Basic
import DesignComponents.Markup.Balance
import DesignComponents.Markup.Clean

/-! Markup is checked, cleaned and repaired before it is read. -/

set_option autoImplicit false

namespace DesignComponents.Intake

open Text

def mebibyte : Nat := 1048576

structure Settings where
  /-- In bytes. -/
  maxFileSize : Number := .int (10 * mebibyte)
  /-- In bytes; what is not smaller is read in chunks. -/
  largeFileThreshold : Number := .int mebibyte
  /-- In characters. -/
  maxChunkSize : Number := .int mebibyte
  deriving DecidableEq, Repr, Inhabited

structure Checked where
  cleaned : List Char
  /-- Of the document as it was given, in bytes. -/
  size : Nat
  warnings : List String

def checkSize (s : Settings) (size : Nat) : Except Trouble Unit :=
  if s.maxFileSize.lt (.int size) then
    .error (.ofFailure (Failure.sizeLimit (.int size) s.maxFileSize))
  else .ok ()

def emptyInput : Failure :=
  .validation "Document must be a non-empty string or Figma JSON object" "EMPTY_INPUT"

def noSvg : Failure :=
  .validationSaying "Invalid SVG: no <svg> element found" "NO_SVG_ELEMENTS"
    "The input does not contain an <svg> element."

def unbalancedWarning (n : Markup.TagCount) : String :=
  s!"Unbalanced markup ({n.opening} open vs {n.closing} close tags); " ++
    "void-like elements were made self-closing"

def stillUnbalancedWarning : String :=
  "Markup is still unbalanced after repair; unclosed elements are closed at end of input"

/-- Unbalanced markup is repaired, and warned of. -/
def repair (cleaned : List Char) : List Char × List String :=
  let n := Markup.countTags cleaned
  if n.opening = n.closing then (cleaned, [])
  else
    let repaired := Markup.repairVoid cleaned
    (repaired, unbalancedWarning n ::
      if Markup.balanced repaired then [] else [stillUnbalancedWarning])

def checkText (s : Settings) (text : String) : Except Trouble Checked := do
  if (trim text.toList).isEmpty then throw (.failure emptyInput)
  checkSize s text.utf8ByteSize
  let cleaned := Markup.clean text.toList
  if !Markup.hasSvg cleaned then throw (.failure noSvg)
  let (repaired, warnings) := repair cleaned
  pure ⟨repaired, text.utf8ByteSize, warnings⟩

def check (s : Settings) (document : Json) : Except Trouble Checked :=
  match document with
  | .obj _ => .error (.fault .notMarkup)
  | .str text => checkText s text
  | _ => .error (.failure emptyInput)

/-! ### A report instead of failure -/

structure Verdict where
  errors : List String
  warnings : List String

def Verdict.isValid (v : Verdict) : Bool := v.errors.isEmpty

def sizeWarnings (size : Nat) : List String :=
  if 5 * mebibyte < size then ["Very large SVG detected, conversion may be slow"]
  else if mebibyte < size then ["Large SVG detected, consider optimization"]
  else []

def inspectText (text : String) : Verdict :=
  let cs := text.toList
  { errors := if Markup.hasSvg cs then [] else ["Invalid SVG: no <svg> element found"]
    warnings := sizeWarnings text.utf8ByteSize ++
      (if occurs "<script".toList cs then
        ["Script tags detected, they will be removed for security"] else []) ++
      (if occurs "xlink:href".toList cs then
        ["xlink:href attributes will be converted to xlinkHref"] else []) }

def inspect (document : Json) : Verdict :=
  match document with
  | .str text => if text.isEmpty then ⟨["SVG must be a non-empty string"], []⟩ else inspectText text
  | _ => ⟨["SVG must be a non-empty string"], []⟩

end DesignComponents.Intake
