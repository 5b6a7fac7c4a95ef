import DesignComponents.CommandLine.Page
import DesignComponents.CommandLine.Switch
import DesignComponents.Settings.Check

/-! The command lines of the program. -/

set_option autoImplicit false

namespace DesignComponents.CommandLine

/-- Where a design is read from. -/
structure Source where
  input : Option Given := none
  fileKey : Option Given := none
  deriving DecidableEq, Repr, Inhabited

/-- What is asked of a component. -/
structure Choices where
  framework : Option Given := none
  styling : Option Given := none
  typescript : Option Bool := none
  name : Option Given := none
  output : Option Given := none
  passProps : Bool := false
  renderChildren : Bool := false
  memo : Bool := false
  unitTests : Bool := false
  deriving DecidableEq, Repr, Inhabited

inductive Command where
  | generate (source : Source) (choices : Choices)
  | analyze (source : Source)
  | watch (input : Given) (choices : Choices)
  deriving DecidableEq, Repr

structure Arguments where
  settingsPath : Option Given := none
  command : Option Command := none
  deriving DecidableEq, Repr

/-- Why a command is not carried out. -/
inductive Ending where
  | told (text : String)
  | refused (page : Page) (r : Refusal)

abbrev Options := Source × Choices

def helpSwitch {α : Type} (page : Page) : Switch α := ⟨["-h", "--help"], .tell page.text⟩

def versionText : String := "airis-codegen 0.1.0\n"

def programSwitches : List (Switch (Option Given)) := [
  helpSwitch .program,
  ⟨["--config", "-c"], .value [] fun v _ => some v⟩,
  ⟨["--version", "-v"], .tell versionText⟩]

def inputSwitch : Switch Options :=
  ⟨["--input", "-i"], .value [] fun v o => ({ o.1 with input := some v }, o.2)⟩

def keySwitch : Switch Options :=
  ⟨["--file-key"], .value [] fun v o => ({ o.1 with fileKey := some v }, o.2)⟩

def choiceSwitch (names : List String) (effect : Effect Choices) : Switch Options :=
  ⟨names, match effect with
    | .mark set => .mark fun name o => (o.1, set name o.2)
    | .value choices set => .value choices fun v o => (o.1, set v o.2)
    | .tell text => .tell text⟩

def choiceSwitches : List (Switch Options) := [
  choiceSwitch ["--framework", "-f"]
    (.value Settings.frameworkNames fun v c => { c with framework := some v }),
  choiceSwitch ["--styling", "-s"]
    (.value Settings.stylingNames fun v c => { c with styling := some v }),
  choiceSwitch ["--typescript", "--no-typescript"]
    (.mark fun name c => { c with typescript := some (name == "--typescript") }),
  choiceSwitch ["--name", "-n"] (.value [] fun v c => { c with name := some v }),
  choiceSwitch ["--output", "-o"] (.value [] fun v c => { c with output := some v }),
  choiceSwitch ["--pass-props"] (.mark fun _ c => { c with passProps := true }),
  choiceSwitch ["--render-children"] (.mark fun _ c => { c with renderChildren := true }),
  choiceSwitch ["--memo"] (.mark fun _ c => { c with memo := true }),
  choiceSwitch ["--unit-tests"] (.mark fun _ c => { c with unitTests := true })]

def Page.switches (page : Page) (more : List (Switch Options)) : List (Switch Options) :=
  helpSwitch page :: inputSwitch :: more

def onPage {α : Type} (page : Page) (r : Except Stop α) : Except Ending α :=
  r.mapError fun s =>
    match s with
    | .told text => .told text
    | .refused r => .refused page r

/-- The options of a command, and the words that mean nothing to it. -/
def readOptions (page : Page) (more : List (Switch Options)) (line : List String) :
    Except Ending (Options × List String) := do
  let found ← onPage page (read (page.switches more) false line default)
  return (found.value, found.unknown)

def readCommand (name : String) (line : List String) : Except Ending (Command × List String) := do
  match name with
  | "generate" =>
    let ((source, choices), unknown) ← readOptions .generate (keySwitch :: choiceSwitches) line
    return (.generate source choices, unknown)
  | "analyze" =>
    let ((source, _), unknown) ← readOptions .analyze [keySwitch] line
    return (.analyze source, unknown)
  | "watch" =>
    let ((source, choices), unknown) ← readOptions .watch choiceSwitches line
    match source.input with
    | some input => return (.watch input choices, unknown)
    | none => throw (.refused .watch (.missing inputSwitch.title))
  | _ => throw (.refused .program (.notAChoice "command" name ["generate", "analyze", "watch"]))

def Arguments.read (line : List String) : Except Ending Arguments := do
  let found ← onPage .program (CommandLine.read programSwitches true line none)
  let (command, unknown) ← match found.rest with
    | [] => pure (none, [])
    | name :: rest => do
      let (command, unknown) ← readCommand name rest
      pure (some command, unknown)
  match found.unknown ++ unknown with
  | [] => return ⟨found.value, command⟩
  | words => throw (.refused .program (.unknownWords words))

end DesignComponents.CommandLine
