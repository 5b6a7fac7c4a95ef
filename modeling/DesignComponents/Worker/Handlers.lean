import DesignComponents.Attribute.Markup
import DesignComponents.Markup.Balance
import DesignComponents.Markup.Optimize
import DesignComponents.Markup.Tree
import DesignComponents.Worker.Pool

/-! What workers do with markup. -/

set_option autoImplicit false

namespace DesignComponents.Worker

inductive Reply where
  | value (v : Json)
  | tree (n : Source.Node)

def Reply.text (cs : List Char) : Reply := .value (.str (String.ofList cs))

/-- What is told of a fault of markup. -/
def unreadText (f : Fault) : String := s!"ValueError: {f.message}"

/-- What a worker makes of markup. -/
def handle (type : Job) (markup : List Char) : Except String Reply :=
  match type with
  | .parse => Reply.tree <$> (Markup.parse markup).mapError unreadText
  | .transform => .ok (.text (Markup.optimize (Attribute.renameMarkup markup)))
  | .optimize => .ok (.text (Markup.optimize markup))
  | .validate => .ok (.value (.obj [("balanced", .bool (Markup.balanced markup)),
      ("elements", .int (Markup.elementCount markup))]))

/-- What is told of a payload that is no text. -/
def refusal (v : Json) : String :=
  let f := Fault.notText v.kindName
  s!"TypeError: {f.message}"

def usualHandler (type : Job) (payload : Json) : Except String Reply :=
  match payload with
  | .str s => handle type s.toList
  | v => .error (refusal v)

/-- Every type of task is handled. -/
def usualHandlers : Handlers Json Reply := fun type => some (usualHandler type)

end DesignComponents.Worker
