import DesignComponents.Fault
import DesignComponents.Number.Basic

/-! Cutting a text into pieces of bounded size, after a tag's end where there is one. -/

set_option autoImplicit false

namespace DesignComponents.Markup

/-- The part of a window that ends with its last `>`, or all of it. -/
def upToLastTag (window : List Char) : List Char :=
  match window.reverse.dropWhile (· != '>') with
  | [] => window
  | cs => cs.reverse

/-- The first piece of a text; what fits into `size` is not cut. -/
def firstChunk (size : Nat) (text : List Char) : List Char :=
  if (text.drop size).isEmpty then text else upToLastTag (text.take size)

/-- Every piece takes a character, so the length of the text is enough fuel. -/
def chunksFrom (size : Nat) : Nat → List Char → List (List Char) → List (List Char)
  | 0, _, done => done.reverse
  | fuel + 1, text, done =>
    if text.isEmpty then done.reverse
    else
      let chunk := firstChunk size text
      chunksFrom size fuel (text.drop chunk.length) (chunk :: done)

/-- The pieces of a text, for a size of at least one. -/
def chunks (size : Nat) (text : List Char) : List (List Char) :=
  chunksFrom size text.length text []

/-- The pieces of a text for a size that is no whole number: such a size cannot be cut to. -/
def wholeOnly (size : Number) (text : List Char) : Except Fault (List (List Char)) :=
  if text.isEmpty then .ok []
  else if (Number.int text.length).lt size then .ok [text]
  else .error .notIndex

/-- A size that is not above zero gives no pieces to cut into. -/
def chunksOf (size : Number) (text : List Char) : Except Fault (List (List Char)) :=
  if size.le 0 then .error .chunkSize
  else match size with
    | .int n => .ok (chunks n.toNat text)
    | .real _ => wholeOnly size text

end DesignComponents.Markup
