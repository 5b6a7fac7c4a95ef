import DesignComponents.Number.Basic
import DesignComponents.Project.Layout

/-! Measures of a project's files. -/

set_option autoImplicit false

namespace DesignComponents.Project

structure Measures where
  linesOfCode : Nat
  componentCount : Nat
  totalSize : Nat
  complexity : Nat
  maintainability : Binary64
  repeatedLines : Nat
  /-- In milliseconds. -/
  duration : Number
  deriving DecidableEq, Repr

/-- A number kept between zero and a hundred. -/
def clamp (score : Binary64) : Binary64 :=
  let low := if score.lt (.ofInt 100) then score else .ofInt 100
  if (Binary64.zero false).lt low then low else .zero false

/-- Every branch costs two points of a hundred, and every ten lines one. -/
def maintainabilityOf (branches lines : Nat) : Binary64 :=
  (clamp ((Binary64.ofInt (100 - branches * 2)).sub (.ofRatio lines 10))).roundTo 2

/-- Time never runs backward. -/
def elapsed (start now : Number) : Except Fault Number :=
  return .max (.real (.zero false)) (← now.sub start)

def Measures.ofFiles (files : List GeneratedFile) (start now : Number) :
    Except Fault Measures := do
  let code := (primary? files).map fun f => f.content.toList
  let branches := (code.map Code.complexity).getD 1
  return {
    linesOfCode := (files.map fun f => Code.countLines f.content.toList).foldr (· + ·) 0
    componentCount := files.countP isComponent
    totalSize := (files.map GeneratedFile.size).foldr (· + ·) 0
    complexity := branches
    maintainability :=
      (code.map fun c => maintainabilityOf branches (Code.countLines c)).getD (.ofInt 80)
    repeatedLines := (code.map Code.repeatedLines).getD 0
    duration := ← elapsed start now }

end DesignComponents.Project
