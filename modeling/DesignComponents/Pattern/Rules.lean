import DesignComponents.Number.Basic
import DesignComponents.Pattern.Signal
import DesignComponents.Severity

/-! The rules by which a node is taken for a card, a button, a form or a navigation. A node may be
several of them. -/

set_option autoImplicit false

namespace DesignComponents.Pattern

open Source

structure Thresholds where
  cardConfidence : Number := .real (.ofDecimal false 85 (-2))
  buttonConfidence : Number := .real (.ofDecimal false 9 (-1))
  formConfidence : Number := .real (.ofDecimal false 8 (-1))
  navigationConfidence : Number := .real (.ofDecimal false 75 (-2))
  buttonMinWidth : Number := 60
  buttonMaxWidth : Number := 300
  buttonMinHeight : Number := 30
  buttonMaxHeight : Number := 80
  touchTarget : Number := 44
  linearTolerance : Number := 10
  navigationMinItems : Number := 3
  cardTypes : List String := ["FRAME", "RECTANGLE", "COMPONENT", "INSTANCE"]
  cardTags : List String := ["svg", "g", "rect", "symbol", "foreignObject"]

/-- An element goes by its type, and by its tag if it has none. -/
def isContainer (t : Thresholds) (e : Element) : Bool :=
  if e.nodeType.isTruthy then t.cardTypes.any e.nodeType.isStr else t.cardTags.contains e.tag

def cardLike (t : Thresholds) (e : Element) (children : List Node) : Except Fault Bool := do
  return (← isFilled e) && !children.isEmpty && isContainer t e

def within (low high x : Number) : Bool := low.le x && x.le high

def Thresholds.isButtonSize (t : Thresholds) (b : Bounds) : Bool :=
  within t.buttonMinWidth t.buttonMaxWidth b.width &&
    within t.buttonMinHeight t.buttonMaxHeight b.height

def hasButtonSize (t : Thresholds) (e : Element) : Except Fault Bool :=
  return (← boundsOf e).any t.isButtonSize

/-- A filled element with a text, named a button or of a button's size. -/
def buttonLike (t : Thresholds) (e : Element) (children : List Node) : Except Fault Bool := do
  let name ← nameOf e
  if !(children.any isText || e.text.isTruthy) then return false
  if !(← isFilled e) then return false
  if holdsWord name "button" || holdsWord name "btn" then return true
  hasButtonSize t e

def isField (e : Element) : Except Fault Bool := do
  let name ← nameOf e
  return ["input", "field", "label"].any (holdsWord name)

/-- An element with a field among its children; the children after the first field do not matter. -/
def hasField : List Element → Except Fault Bool
  | [] => .ok false
  | e :: rest => do if ← isField e then return true else hasField rest

def formLike (children : List Node) : Except Fault Bool := hasField (elementsAmong children)

/-- Whether two coordinates are hardly apart. -/
def Thresholds.areNear (t : Thresholds) (a b : Number) : Except Fault Bool :=
  return (← a.sub b).abs.le t.linearTolerance

def Thresholds.areInLine (t : Thresholds) (a b : Bounds) : Except Fault Bool := do
  if ← t.areNear a.y b.y then return true else t.areNear a.x b.x

/-- Whether the first two children stand beside or below each other. -/
def isLinear (t : Thresholds) (children : List Node) : Except Fault Bool :=
  match elementsAmong children with
  | first :: second :: _ => do
    match ← boundsOf first, ← boundsOf second with
    | some a, some b => t.areInLine a b
    | _, _ => return false
  | _ => .ok false

def navigationLike (t : Thresholds) (e : Element) (children : List Node) : Except Fault Bool := do
  if (Number.int (elementsAmong children).length).lt t.navigationMinItems then return false
  let name ← nameOf e
  if ← isLinear t children then return true
  return holdsWord name "nav" || holdsWord name "menu"

def hasTouchTarget (t : Thresholds) (e : Element) : Except Fault Bool :=
  return (← boundsOf e).any fun b => t.touchTarget.le b.width && t.touchTarget.le b.height

/-! ### Patterns -/

inductive Kind where
  | card
  | button
  | form
  | navigation
  deriving DecidableEq, Repr, Inhabited

structure Insight where
  severity : Severity
  message : String
  fix : String
  deriving DecidableEq, Repr

namespace Kind

def all : List Kind := [card, button, form, navigation]

def name : Kind → String
  | card => "card"
  | button => "button"
  | form => "form"
  | navigation => "navigation"

def confidence (t : Thresholds) : Kind → Number
  | card => t.cardConfidence
  | button => t.buttonConfidence
  | form => t.formConfidence
  | navigation => t.navigationConfidence

def holds (t : Thresholds) (e : Element) (children : List Node) : Kind → Except Fault Bool
  | card => cardLike t e children
  | button => buttonLike t e children
  | form => formLike children
  | navigation => navigationLike t e children

/-- Advice on the design. -/
def suggestions : Kind → List String
  | card => ["Consider adding subtle shadow for depth", "Ensure proper spacing between elements",
      "Add hover states for interactivity"]
  | button => ["Add focus states for keyboard navigation", "Ensure minimum 44px touch target",
      "Consider loading states"]
  | form => ["Add proper form validation", "Include error states",
      "Group related fields with fieldsets"]
  | navigation => ["Implement keyboard navigation", "Add ARIA landmarks",
      "Consider mobile hamburger menu"]

/-- Advice on the code. -/
def codeAdvice : Kind → List String
  | card => ["Consider using a Card component with proper semantic HTML",
      "Add transition effects for hover states"]
  | button => ["Implement button variants (primary, secondary, outline)",
      "Add loading and disabled states"]
  | form => ["Use form validation library like react-hook-form",
      "Implement proper error handling and display"]
  | navigation => ["Consider using React Router for navigation",
      "Implement responsive navigation with mobile menu"]

/-- Advice on access; a button may also be too small to touch. -/
def insights (t : Thresholds) (e : Element) : Kind → Except Fault (List Insight)
  | card => .ok [⟨.suggestion, "Add semantic HTML structure",
      "Use <article> or <section> elements for card containers"⟩]
  | button => do
    let labels : Insight := ⟨.suggestion, "Add proper ARIA labels",
      "Include aria-label or aria-describedby attributes"⟩
    if ← hasTouchTarget t e then return [labels]
    return [labels, ⟨.error, "Touch target too small", "Ensure buttons are at least 44px × 44px"⟩]
  | form => .ok [
      ⟨.error, "Associate labels with form controls",
        "Use proper <label> elements or aria-labelledby"⟩,
      ⟨.suggestion, "Add form validation feedback",
        "Implement aria-invalid and aria-describedby for errors"⟩]
  | navigation => .ok [
      ⟨.error, "Add navigation landmarks", "Use <nav> element with proper aria-label"⟩,
      ⟨.suggestion, "Implement keyboard navigation",
        "Ensure all items are focusable and support arrow key navigation"⟩]

end Kind

end Pattern

/-- A pattern found in a node. -/
structure Pattern where
  kind : Pattern.Kind
  confidence : Number
  insights : List Pattern.Insight
  nodeId : String
  nodeName : Json

namespace Pattern

open Source

/-- A confidence kept between zero and one. -/
def clamp (confidence : Number) : Number :=
  (confidence.max (.real (.zero false))).min (.real (.ofInt 1))

/-- The patterns of one kind in a node: one or none. -/
def ofKind (t : Thresholds) (e : Element) (children : List Node) (kind : Kind) :
    Except Fault (List Pattern) := do
  if !(← kind.holds t e children) then return []
  return [⟨kind, clamp (kind.confidence t), ← kind.insights t e, e.id, e.name⟩]

def ofNode (t : Thresholds) (e : Element) (children : List Node) : Except Fault (List Pattern) :=
  return (← Kind.all.mapM (ofKind t e children)).flatten

/-- A node that cannot be examined has no patterns, unless what hinders is the size of a number. -/
def ofNodeIfAny (t : Thresholds) (e : Element) (children : List Node) :
    Except Fault (List Pattern) :=
  match ofNode t e children with
  | .ok patterns => .ok patterns
  | .error f => if f.isOverflow then .error f else .ok []

def ofNodes (t : Thresholds) (nodes : List (Element × List Node)) : Except Fault (List Pattern) :=
  return (← nodes.mapM fun (e, children) => ofNodeIfAny t e children).flatten

def ofTree (t : Thresholds) (tree : Node) : Except Fault (List Pattern) :=
  ofNodes t tree.elements

end Pattern

end DesignComponents
