import DesignComponents.Text.Reader

/-! Cutting a text at the pieces that a reader reads, from the left and without overlap. -/

set_option autoImplicit false

namespace DesignComponents.Text

variable {α : Type}

/-- One piece that was read, and the text passed over before it. -/
structure Hit (α : Type) where
  passed : List Char
  value : α

structure Cut (α : Type) where
  hits : List (Hit α)
  tail : List Char

namespace Cut

def values (c : Cut α) : List α := c.hits.map Hit.value

/-- The text with each piece that was read replaced by its value. -/
def fill (c : Cut (List Char)) : List Char :=
  (c.hits.flatMap fun h => h.passed ++ h.value) ++ c.tail

/-- The text with each piece that was read replaced by what `f` makes of it, from the left. -/
def fillM {m : Type → Type} [Monad m] (f : α → m (List Char)) (c : Cut α) : m (List Char) := do
  let parts ← c.hits.mapM fun h => return h.passed ++ (← f h.value)
  return parts.flatten ++ c.tail

end Cut

/-- Each step passes over at least one character, so the length of the text is enough fuel. -/
def cutFrom (r : Reader α) : Nat → Place → List Char → List (Hit α) → Cut α
  | 0, place, passed, hits => ⟨hits.reverse, passed.reverse ++ place.rest⟩
  | fuel + 1, place, passed, hits =>
    match place.rest with
    | [] => ⟨hits.reverse, passed.reverse⟩
    | c :: rest =>
      match r place with
      | some (v, next) => cutFrom r fuel next [] (⟨passed.reverse, v⟩ :: hits)
      | none => cutFrom r fuel ⟨some c, rest⟩ (c :: passed) hits

def cut (r : Reader α) (text : List Char) : Cut α :=
  cutFrom r text.length (Place.start text) [] []

def substitute (r : Reader (List Char)) (text : List Char) : List Char := (cut r text).fill

def findAll (r : Reader α) (text : List Char) : List α := (cut r text).values

def countAll (r : Reader α) (text : List Char) : Nat := (cut r text).hits.length

/-- Whether the reader reads a piece anywhere after `before`. -/
def foundAfter (r : Reader α) (before : Option Char) : List Char → Bool
  | [] => false
  | c :: rest => (r ⟨before, c :: rest⟩).isSome || foundAfter r (some c) rest

def found (r : Reader α) (text : List Char) : Bool := foundAfter r none text

/-- The first piece that is read, with the text passed over before it and the place after it. -/
def firstAfter (r : Reader α) (passed : List Char) (before : Option Char) :
    List Char → Option (List Char × α × Place)
  | [] => (r ⟨before, []⟩).map fun (v, next) => (passed.reverse, v, next)
  | c :: rest =>
    match r ⟨before, c :: rest⟩ with
    | some (v, next) => some (passed.reverse, v, next)
    | none => firstAfter r (c :: passed) (some c) rest

def first? (r : Reader α) (text : List Char) : Option (List Char × α × Place) :=
  firstAfter r [] none text

end DesignComponents.Text
