import DesignComponents.Markup.Token
import DesignComponents.Source.Node
import DesignComponents.Text.Trim

/-! The tree of a markup text. However tags are nested there is one: what is left open is closed at
the end, and an end tag that closes nothing is passed over. -/

set_option autoImplicit false

namespace DesignComponents.Markup

open Text Source

/-- An element that is still open, with its children so far, the last one first. -/
structure Frame where
  data : Element
  children : List Node

def Frame.finish (f : Frame) (last : List Node) : Node :=
  .element f.data (last ++ f.children).reverse

/-- The open elements, innermost first, the finished roots, last first, and the number of elements
so far. -/
structure Building where
  stack : List Frame := []
  roots : List Node := []
  count : Nat := 0

namespace Building

def append (b : Building) (n : Node) : Building :=
  match b.stack with
  | [] => { b with roots := n :: b.roots }
  | f :: rest => { b with stack := { f with children := n :: f.children } :: rest }

/-- Closes open elements from the inside out, up to one with the tag, or all of them. Gives the
frames left open and what is finished outside all of them. -/
def unwind (stopAt : Option String) (last : List Node) : List Frame → List Frame × List Node
  | [] => ([], last)
  | f :: rest =>
    let node := f.finish last
    if stopAt == some f.data.tag then
      match rest with
      | [] => ([], [node])
      | g :: outer => ({ g with children := node :: g.children } :: outer, [])
    else unwind stopAt [node] rest

def close (b : Building) (stopAt : Option String) : Building :=
  let (stack, finished) := unwind stopAt [] b.stack
  { b with stack, roots := finished ++ b.roots }

/-- White space at its ends is no part of a text, and a blank text is none. -/
def appendText (b : Building) (text : List Char) : Building :=
  match trim text with
  | [] => b
  | cs => b.append (.text (String.ofList (Entity.decode cs)))

def appendToken (b : Building) (t : Token) : Building :=
  match t with
  | .aside => b
  | .stop tag => if b.stack.any (·.data.tag == tag) then b.close (some tag) else b
  | .start tag attributes selfClosing =>
    let number := b.count + 1
    let data : Element :=
      { id := s!"node-{number}", tag,
        attributes := some ((attributesOf attributes).mapValues .str) }
    let b := { b with count := number }
    if selfClosing then b.append (.element data [])
    else { b with stack := ⟨data, []⟩ :: b.stack }

def step (b : Building) (hit : Hit Token) : Building :=
  (b.appendText hit.passed).appendToken hit.value

def finish (b : Building) : Node :=
  match (b.close none).roots with
  | [n] => n
  | ns => .fragment ns.reverse

end Building

/-- The one root of the tree, or a fragment of its roots. -/
def treeOf (c : Cut Token) : Node :=
  ((c.hits.foldl Building.step {}).appendText c.tail).finish

def checkHit (hit : Hit Token) : Except Fault Unit := do
  Entity.check hit.passed
  hit.value.check

/-- Whether all that stands in the tree can be read. -/
def checkTree (c : Cut Token) : Except Fault Unit := do
  c.hits.forM checkHit
  Entity.check c.tail

/-- The tree of a text that can be read. -/
def parse (text : List Char) : Except Fault Node := do
  let c := tokens text
  checkTree c
  return treeOf c

end DesignComponents.Markup
