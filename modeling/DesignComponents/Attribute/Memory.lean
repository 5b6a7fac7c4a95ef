import DesignComponents.Attribute.Markup
import DesignComponents.Attribute.Sanitize

/-! A memory of what names become. It is bounded: a full memory is emptied before the next name is
entered. Whatever it holds, a name becomes the same. -/

set_option autoImplicit false

namespace DesignComponents.Attribute

structure Memory where
  /-- How many names are held at most; no limit is kept below one. -/
  limit : Number := 2048
  held : OrderedMap String := .empty
  hits : Nat := 0
  misses : Nat := 0

namespace Memory

/-- Enters a name, after emptying a memory that is full. -/
def enter (t : Memory) (name renamed : String) : OrderedMap String :=
  (if t.limit.le (.int t.held.size) then OrderedMap.empty else t.held).insert name renamed

/-- What a name becomes, remembered from now on. -/
def nameFor (name : String) : StateM Memory String := fun t =>
  match t.held.get? name with
  | some renamed => (renamed, { t with hits := t.hits + 1 })
  | none =>
    let renamed := rename name
    (renamed, { t with held := t.enter name renamed, misses := t.misses + 1 })

def clear (t : Memory) : Memory := { limit := t.limit }

def sanitize (attributes : OrderedMap Json) : ExceptT Fault (StateM Memory) (OrderedMap Json) :=
  sanitizeVia nameFor attributes

/-- Only a map of attributes holds any. -/
def sanitizeValue (v : Json) : ExceptT Fault (StateM Memory) (OrderedMap Json) :=
  match v with
  | .obj members => sanitize (.ofList members)
  | _ => pure .empty

def renameMarkup (text : List Char) : StateM Memory (List Char) :=
  renameMarkupVia nameFor text

end Memory

end DesignComponents.Attribute
