/-! Looking for a fixed piece of text, and cutting or replacing at it. -/

set_option autoImplicit false

namespace DesignComponents.Text

/-- What follows `piece` at the start of the text, if it starts with `piece`. -/
def dropPrefix? : List Char → List Char → Option (List Char)
  | [], text => some text
  | _ :: _, [] => none
  | p :: piece, c :: text => if p = c then dropPrefix? piece text else none

def startsWith (piece text : List Char) : Bool := (dropPrefix? piece text).isSome

def endsWith (piece text : List Char) : Bool := startsWith piece.reverse text.reverse

/-- Whether `piece` occurs in the text. -/
def occurs (piece : List Char) : List Char → Bool
  | [] => piece.isEmpty
  | c :: rest => startsWith piece (c :: rest) || occurs piece rest

/-- The text before the first `piece` and the text after it; `passed` is the reversed text
already passed over. -/
def breakAfter (piece : List Char) (passed : List Char) : List Char →
    Option (List Char × List Char)
  | [] => if piece.isEmpty then some (passed.reverse, []) else none
  | c :: rest =>
    match dropPrefix? piece (c :: rest) with
    | some after => some (passed.reverse, after)
    | none => breakAfter piece (c :: passed) rest

def breakAt? (piece text : List Char) : Option (List Char × List Char) := breakAfter piece [] text

/-- Pieces between the separators; `field` is the reversed piece being read. -/
def splitAux (sep : Char) (field : List Char) : List Char → List (List Char) → List (List Char)
  | [], done => (field.reverse :: done).reverse
  | c :: rest, done =>
    if c = sep then splitAux sep [] rest (field.reverse :: done)
    else splitAux sep (c :: field) rest done

/-- The pieces between the separators: always one more than there are separators. -/
def splitOn (sep : Char) (text : List Char) : List (List Char) := splitAux sep [] text []

def lines (text : List Char) : List (List Char) := splitOn '\n' text

/-- `replaceAux` passes over `skip` more characters before it looks for `old` again. -/
def replaceAux (old new : List Char) (skip : Nat) : List Char → List Char → List Char
  | [], done => done.reverse
  | c :: rest, done =>
    match skip with
    | k + 1 => replaceAux old new k rest done
    | 0 =>
      if startsWith old (c :: rest) then
        replaceAux old new (old.length - 1) rest (new.reverse ++ done)
      else replaceAux old new 0 rest (c :: done)

/-- Replaces each `old` from the left; the ones found do not overlap. -/
def replaceAll (old new text : List Char) : List Char :=
  if old.isEmpty then text else replaceAux old new 0 text []

def replaceChar (old : Char) (new : List Char) (text : List Char) : List Char :=
  text.flatMap fun c => if c = old then new else [c]

/-- The text with carriage returns, alone or before a line break, as line breaks. -/
def plainBreaks : List Char → List Char
  | [] => []
  | '\r' :: '\n' :: rest => '\n' :: plainBreaks rest
  | c :: rest => (if c = '\r' then '\n' else c) :: plainBreaks rest

/-- The text of these lines, each ended by a line break. -/
def unlines (ls : List String) : String := String.join (ls.map (· ++ "\n"))

def join (sep : List Char) (parts : List (List Char)) : List Char := sep.intercalate parts

end DesignComponents.Text
