import DesignComponents.Text.LetterCase
import DesignComponents.Text.Search

/-! Readers of a piece of text at a place. A reader takes as much as its parts allow and never
gives a character back, so what it reads is settled by the text alone. -/

set_option autoImplicit false

namespace DesignComponents.Text

/-- A place in a text: the character before it, if there is one, and the text from it on. -/
structure Place where
  before : Option Char
  rest : List Char

namespace Place

def start (text : List Char) : Place := ⟨none, text⟩

/-- The place after `taken`, where `rest` is left. -/
def past (p : Place) (taken rest : List Char) : Place :=
  ⟨taken.getLast?.or p.before, rest⟩

end Place

abbrev Reader (α : Type) := StateT Place Option α

namespace Reader

variable {α : Type}

@[inline] def one (p : Char → Bool) : Reader Char := fun place =>
  match place.rest with
  | c :: rest => if p c then some (c, ⟨some c, rest⟩) else none
  | [] => none

@[inline] def char (c : Char) : Reader Unit := do
  let _ ← one (· == c)

@[inline] def text (piece : String) : Reader Unit := fun place =>
  (dropPrefix? piece.toList place.rest).map fun rest => ((), place.past piece.toList rest)

/-- A word of small letters, in letters of any case. -/
def letters (word : String) : Reader Unit :=
  word.toList.forM fun small => do
    let _ ← one (sameLetter small)

/-- All the characters of a class that stand here, perhaps none. -/
@[inline] def many (p : Char → Bool) : Reader (List Char) := fun place =>
  let (taken, rest) := place.rest.span p
  some (taken, place.past taken rest)

/-- All the characters of a class that stand here, at least `least` of them. -/
@[inline] def atLeast (least : Nat) (p : Char → Bool) : Reader (List Char) := do
  let taken ← many p
  if least ≤ taken.length then pure taken else failure

@[inline] def many1 (p : Char → Bool) : Reader (List Char) := atLeast 1 p

@[inline] def blanks : Reader (List Char) := many isBlank

@[inline] def blanks1 : Reader (List Char) := many1 isBlank

/-- The text up to the next `piece`, which is read too. -/
@[inline] def through (piece : String) : Reader (List Char) := fun place =>
  (breakAt? piece.toList place.rest).map fun (taken, rest) =>
    (taken, place.past piece.toList rest)

/-- The first of these texts that stands here. -/
def oneOf : List String → Reader String
  | [] => failure
  | piece :: pieces => (do text piece; pure piece) <|> oneOf pieces

@[inline] def optional (r : Reader α) : Reader (Option α) := (some <$> r) <|> pure none

/-- Reads as often as it can. Each reading takes a character, so as many times as there are
characters are enough. -/
def skipManyFrom (r : Reader Unit) : List Char → Place → Place
  | [], place => place
  | _ :: fuel, place =>
    match r place with
    | some ((), next) => skipManyFrom r fuel next
    | none => place

def skipMany (r : Reader Unit) : Reader Unit := fun place =>
  some ((), skipManyFrom r place.rest place)

def skipMany1 (r : Reader Unit) : Reader Unit := do
  r
  skipMany r

/-- Holds where no word character stands before. -/
@[inline] def wordStart : Reader Unit := fun place =>
  if place.before.any isWord then none else some ((), place)

/-- Holds where no word character follows. -/
@[inline] def wordEnd : Reader Unit := fun place =>
  if place.rest.head?.any isWord then none else some ((), place)

@[inline] def atEnd : Reader Unit := fun place =>
  if place.rest.isEmpty then some ((), place) else none

/-- Holds at the end, and before a line break that ends the text. -/
@[inline] def atLastEnd : Reader Unit := fun place =>
  match place.rest with
  | [] | ['\n'] => some ((), place)
  | _ => none

/-- Whether the text from its start on begins with what the reader reads. -/
def accepts (r : Reader α) (text : List Char) : Bool := (r (Place.start text)).isSome

end Reader

end DesignComponents.Text
