import DesignComponents.Command.Generate
import DesignComponents.Command.Watch

/-! Carrying out a command line. -/

set_option autoImplicit false

namespace DesignComponents.Command

open CommandLine

/-- The code with which a program ends that is told only to explain itself. -/
def explained : Nat := 0

/-- The code with which a program ends that does not understand its command line. -/
def misunderstood : Nat := 2

/-- Shows what a command line that is not carried out leads to. -/
def conclude : Ending → Shell Nat
  | .told text => do
    Shell.print text
    return explained
  | .refused page r => do
    Shell.put (.complain (page.refusal r.message))
    return misunderstood

/-- The path that was given; nothing is none. -/
def pathOf (g : Given) : Except Fault String :=
  match g with
  | .text path => .ok path
  | .nothing => .error (.notPath (valueOf g).kindName)

def carryOut (settings : Json) : Option CommandLine.Command → Shell Unit
  | some (.generate source choices) => generate source choices settings
  | some (.analyze source) => analyze source settings
  | some (.watch input choices) => do
    watchOnce (← Shell.liftFault (pathOf input)) choices settings
  | none => Shell.print (Page.text .program)

/-- The settings that arguments name. -/
def settingsOf (a : Arguments) : Shell Json := do
  Settings.load (← Shell.liftFault (pathOf (a.settingsPath.getD (.text Settings.usualPath))))

/-- Carries out a command line. One that is not carried out gives the code to end with. -/
def run (line : List String) : Shell (Option Nat) := do
  match Arguments.read line with
  | .error ending => some <$> conclude ending
  | .ok a =>
    carryOut (← settingsOf a) a.command
    return none

end DesignComponents.Command
