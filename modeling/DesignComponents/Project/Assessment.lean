import DesignComponents.Code.Scan
import DesignComponents.Component.Basic
import DesignComponents.Project.Measures
import DesignComponents.Severity

/-! A component's quality: signs found in its text give or take points in six categories. -/

set_option autoImplicit false

namespace DesignComponents.Project

open Text

/-! ### Signs -/

/-- A piece of text as it stands. -/
@[inline] def sign (piece : String) : Reader Unit := Reader.text piece

def anyOf : List (Reader Unit) → Reader Unit
  | [] => failure
  | r :: rest => r <|> anyOf rest

def accessibleSign : Reader Unit := anyOf [sign "aria-", sign "role=", sign "alt="]

def interfaceSign : Reader Unit := do
  Reader.wordStart
  Reader.text "interface"
  let _ ← Reader.blanks1
  let _ ← Reader.one isWord

def typeSign : Reader Unit := do
  Reader.char ':'
  let _ ← Reader.blanks
  let _ ← Reader.oneOf ["string", "number", "boolean"]
  Reader.wordEnd

def typedSign : Reader Unit := anyOf [interfaceSign, sign "lang=\"ts\"", typeSign]

def functionSign : Reader Unit := do
  Reader.wordStart
  Reader.text "function"
  let _ ← Reader.one isBlank

def exportSign : Reader Unit := do
  Reader.text "export"
  let _ ← Reader.blanks1
  Reader.text "let"
  let _ ← Reader.one isBlank

def arrowSign : Reader Unit := do
  Reader.text "=>"
  let _ ← Reader.blanks
  Reader.char '\x7b'

def declarationSign : Reader Unit :=
  anyOf [sign "React.FC", functionSign, sign "defineComponent", sign "@Component", exportSign,
    arrowSign]

def relativeSign : Reader Unit := do
  let _ ← Reader.one isDecimal
  (do let _ ← Reader.oneOf ["rem", "em"]; Reader.wordEnd) <|> Reader.char '%'

def responsiveSign : Reader Unit := sign "@media" <|> relativeSign

def assignedSign : Reader Unit := do
  Reader.text ".innerHTML"
  let _ ← Reader.blanks
  Reader.char '='

def rawMarkupSign : Reader Unit :=
  anyOf [sign "dangerouslySetInnerHTML", sign "v-html", sign "[innerHTML]", sign "\x7b@html",
    assignedSign]

def evalSign : Reader Unit := do
  Reader.wordStart
  Reader.text "eval("

def newFunctionSign : Reader Unit := do
  Reader.text "new"
  let _ ← Reader.blanks1
  Reader.text "Function("

def evaluationSign : Reader Unit := evalSign <|> newFunctionSign

structure Signs where
  typed : Bool
  declaration : Bool
  comments : Bool
  accessible : Bool
  tests : Bool
  rawMarkup : Bool
  evaluation : Bool
  directWrite : Bool
  responsive : Bool
  options : Nat
  wantsTypes : Bool
  deriving DecidableEq, Repr

/-- The component's code and then each of its other files. -/
def allText (c : Component) : List Char :=
  c.code.toList ++ '\n' :: join ['\n'] (c.additional.values.map String.toList)

def Signs.of (c : Component) (config : Config) : Signs :=
  let code := c.code.toList
  let all := allText c
  { typed := config.isTyped && found typedSign code
    declaration := found declarationSign code
    comments := Code.isCommented code
    accessible := found accessibleSign all
    tests := config.hasTests
    rawMarkup := found rawMarkupSign all
    evaluation := found evaluationSign all
    directWrite := occurs "document.write".toList all
    responsive := found responsiveSign c.style.toList
    options := config.optimization.count
    wantsTypes := config.isTyped }

/-! ### Scores -/

/-- The points of each category. -/
structure Thresholds where
  visual : Number := 85
  codeBase : Number := 70
  codeTyped : Number := 15
  codeDeclaration : Number := 10
  codeComment : Number := 5
  performanceBase : Number := 75
  performanceFlag : Number := 8
  accessibilityPresent : Number := 95
  accessibilityMissing : Number := 60
  maintainabilityComments : Number := 40
  maintainabilityTyped : Number := 30
  maintainabilityTests : Number := 30
  securityBase : Number := 90
  securityRawMarkup : Number := 20
  securityEvaluation : Number := 30
  securityWrite : Number := 25
  deriving DecidableEq, Repr

structure Scores where
  visual : Binary64
  code : Binary64
  performance : Binary64
  accessibility : Binary64
  maintainability : Binary64
  security : Binary64
  deriving DecidableEq, Repr

/-- The points, if the sign is there. -/
def gain (there : Bool) (points score : Number) : Except Fault Number :=
  if there then score.add points else .ok score

def loss (there : Bool) (points score : Number) : Except Fault Number :=
  if there then score.sub points else .ok score

def points (there : Bool) (n : Number) : Number := if there then n else 0

def codePoints (t : Thresholds) (s : Signs) : Except Fault Number :=
  gain s.typed t.codeTyped t.codeBase >>= gain s.declaration t.codeDeclaration >>=
    gain s.comments t.codeComment

def performancePoints (t : Thresholds) (s : Signs) : Except Fault Number :=
  t.performanceFlag.mul (.int s.options) >>= t.performanceBase.add

def accessibilityPoints (t : Thresholds) (s : Signs) : Number :=
  if s.accessible then t.accessibilityPresent else t.accessibilityMissing

def maintainabilityPoints (t : Thresholds) (s : Signs) : Except Fault Number := do
  let read ← (points s.comments t.maintainabilityComments).add
    (points s.typed t.maintainabilityTyped)
  read.add (points s.tests t.maintainabilityTests)

def securityPoints (t : Thresholds) (s : Signs) : Except Fault Number :=
  loss s.rawMarkup t.securityRawMarkup t.securityBase >>=
    loss s.evaluation t.securityEvaluation >>= loss s.directWrite t.securityWrite

/-- Points are counted as they are given; a score is a double. -/
def scoreOf (points : Number) : Except Fault Binary64 := clamp <$> points.toReal

def Scores.of (t : Thresholds) (s : Signs) : Except Fault Scores := do
  return {
    visual := ← scoreOf t.visual
    code := ← codePoints t s >>= scoreOf
    performance := ← performancePoints t s >>= scoreOf
    accessibility := ← scoreOf (accessibilityPoints t s)
    maintainability := ← maintainabilityPoints t s >>= scoreOf
    security := ← securityPoints t s >>= scoreOf }

/-- The mean of all categories but the visual one, to two places. -/
def Scores.overall (s : Scores) : Binary64 :=
  let total := [s.code, s.performance, s.accessibility, s.maintainability, s.security].foldl
    Binary64.add (.zero false)
  (total.div (.ofInt 5)).roundTo 2

/-! ### Issues -/

structure Issue where
  severity : Severity
  message : String
  category : String
  deriving DecidableEq, Repr, Inhabited

def Signs.issues (s : Signs) : List Issue :=
  [(!s.accessible, ⟨.warning, "Missing accessibility attributes", "accessibility"⟩),
    (s.rawMarkup, ⟨.error, "Raw HTML injection sink detected", "security"⟩),
    (s.evaluation, ⟨.error, "Dynamic code evaluation detected", "security"⟩),
    (s.directWrite, ⟨.error, "Direct DOM write detected", "security"⟩),
    (s.wantsTypes && !s.typed, ⟨.info, "No typed interface found in component", "code"⟩),
    (!s.comments, ⟨.info, "Component has no comments", "maintainability"⟩)].filterMap
    fun ((there, issue) : Bool × Issue) => if there then some issue else none

def Signs.recommendations (s : Signs) : List String :=
  [(!s.accessible,
      "Add aria-label, role or alt attributes to interactive and graphic elements"),
    (s.wantsTypes && !s.typed, "Enable TypeScript for better type safety"),
    (!s.comments, "Document the component with a short header comment"),
    (!s.tests, "Enable unit test generation to improve maintainability"),
    (!s.responsive, "Add responsive design patterns"),
    (s.options == 0, "Enable tree shaking, code splitting or lazy loading")].filterMap
    fun ((there, advice) : Bool × String) => if there then some advice else none

structure Assessment where
  overall : Binary64
  scores : Scores
  issues : List Issue
  recommendations : List String
  deriving DecidableEq, Repr

def assess (t : Thresholds) (c : Component) (config : Config) : Except Fault Assessment := do
  let signs := Signs.of c config
  let scores ← Scores.of t signs
  return ⟨scores.overall, scores, signs.issues, signs.recommendations⟩

end DesignComponents.Project
