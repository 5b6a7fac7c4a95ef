import DesignComponents.Text.Quoted
import DesignComponents.Text.Reader

/-! Switches on a command line. A long name may be cut short as long as it stays the only one, a
value may stand in the next word or in the switch's own, and short switches may share a word. -/

set_option autoImplicit false

namespace DesignComponents.CommandLine

open Text

/-- What a switch is given: a text, or nothing where two hyphens stand in its own word. -/
inductive Given where
  | text (s : String)
  | nothing
  deriving DecidableEq, Repr, Inhabited

namespace Given

def ofText (s : String) : Given := if s = "--" then .nothing else .text s

def text? : Given → Option String
  | .text s => some s
  | .nothing => none

end Given

/-- What a switch does. It is told by which of its names it was given. -/
inductive Effect (α : Type) where
  | mark (set : String → α → α)
  /-- Takes a value, and a text has to be one of the choices if there are any. -/
  | value (choices : List String) (set : Given → α → α)
  /-- Shows a text instead of anything else. -/
  | tell (text : String)

structure Switch (α : Type) where
  names : List String
  effect : Effect α

/-- Why a command line is refused. -/
inductive Refusal where
  | ambiguous (word : String) (names : List String)
  | noValue (switch : String)
  | unwantedValue (switch value : String)
  | notAChoice (switch value : String) (choices : List String)
  | missing (switch : String)
  | unknownWords (words : List String)
  deriving DecidableEq, Repr

def quoted (s : String) : String := String.ofList (Quoted.encode s.toList)

def Refusal.message : Refusal → String
  | .ambiguous word names =>
    s!"ambiguous option: {word} could match " ++ ", ".intercalate names
  | .noValue switch => s!"argument {switch}: expected one argument"
  | .unwantedValue switch value => s!"argument {switch}: ignored explicit argument {quoted value}"
  | .notAChoice switch value choices =>
    s!"argument {switch}: invalid choice: {quoted value} (choose from " ++
      ", ".intercalate (choices.map quoted) ++ ")"
  | .missing switch => s!"the following arguments are required: {switch}"
  | .unknownWords words => "unrecognized arguments: " ++ " ".intercalate words

/-- Why reading ends early. -/
inductive Stop where
  | told (text : String)
  | refused (r : Refusal)
  deriving DecidableEq, Repr

variable {α : Type}

namespace Switch

def title (s : Switch α) : String := "/".intercalate s.names

def takesValue (s : Switch α) : Bool :=
  match s.effect with
  | .value .. => true
  | _ => false

end Switch

/-! ### Words -/

/-- A switch in a word, by the name it was found by, with the rest of the word as its value. -/
structure Found (α : Type) where
  switch : Switch α
  name : String
  value : Option (List Char) := none

inductive Kind (α : Type) where
  | plain
  /-- Two hyphens: what follows are plain words. -/
  | hyphens
  | switch (f : Found α)
  /-- A word that looks like a switch, and is none. -/
  | unknown

structure Word (α : Type) where
  text : String
  kind : Kind α

def named? (switches : List (Switch α)) (name : String) : Option (Switch α) :=
  switches.find? (·.names.contains name)

/-- The text before the first equals sign, and after it if there is one. -/
def cutEquals (text : List Char) : List Char × Option (List Char) :=
  match breakAt? ['='] text with
  | some (before, after) => (before, some after)
  | none => (text, none)

/-- The switches that a word may mean, none of whose names it is. -/
def candidates (switches : List (Switch α)) (text : List Char) : List (Found α) :=
  let all := switches.flatMap fun s => s.names.map fun name => (name, s)
  match text with
  | '-' :: '-' :: _ =>
    let (stem, value) := cutEquals text
    (all.filter fun (name, _) => startsWith stem name.toList).map fun (name, s) =>
      ⟨s, name, value⟩
  | '-' :: c :: rest =>
    (all.filter fun (name, _) => name.toList == ['-', c]).map fun (name, s) =>
      ⟨s, name, some rest⟩
  | _ => []

/-- A number with a minus sign. -/
def negativeNumber : Reader Unit := do
  Reader.char '-'
  (do
    let _ ← Reader.many1 isDecimal
    Reader.atLastEnd) <|> do
    let _ ← Reader.many isDecimal
    Reader.char '.'
    let _ ← Reader.many1 isDecimal
    Reader.atLastEnd

/-- A word that could be a switch by its look. -/
def recognise (switches : List (Switch α)) (text : String) : Except Refusal (Kind α) :=
  let cs := text.toList
  let (stem, value) := cutEquals cs
  match named? switches text, named? switches (String.ofList stem), candidates switches cs with
  | some s, _, _ => .ok (.switch ⟨s, text, none⟩)
  | none, some s, _ => .ok (.switch ⟨s, String.ofList stem, value⟩)
  | none, none, [f] => .ok (.switch f)
  | none, none, [] =>
    .ok (if negativeNumber.accepts cs || cs.contains ' ' then .plain else .unknown)
  | none, none, fs => .error (.ambiguous text (fs.map Found.name))

def kindOf (switches : List (Switch α)) (text : String) : Except Refusal (Kind α) :=
  match text.toList with
  | '-' :: _ :: _ => recognise switches text
  | _ => .ok .plain

def words (switches : List (Switch α)) : List String → Except Refusal (List (Word α))
  | [] => .ok []
  | "--" :: rest => .ok (⟨"--", .hyphens⟩ :: rest.map (⟨·, .plain⟩))
  | text :: rest => do
    let kind ← kindOf switches text
    return ⟨text, kind⟩ :: (← words switches rest)

/-! ### What the switches of a word do -/

/-- A switch with what it was given. -/
structure Use (α : Type) where
  switch : Switch α
  name : String
  value : Option Given := none

/-- The switches of one word. The last may wait for a value. -/
structure Row (α : Type) where
  uses : List (Use α)
  waiting : Option (Use α) := none

def Row.after (u : Use α) (r : Row α) : Row α := { r with uses := u :: r.uses }

def isShort (name : String) : Bool := !startsWith ['-', '-'] name.toList

/-- What stands behind a switch in its word, if anything does. -/
def behind (text : List Char) : Option (List Char) := if text.isEmpty then none else some text

/-- Unpacks a word. A short switch that takes no value lets others follow in the word, and those a
value; what follows has to be a switch. -/
def unpack (switches : List (Switch α)) (s : Switch α) (name : String) :
    Option (List Char) → Except Refusal (Row α)
  | none =>
    .ok (if s.takesValue then ⟨[], some ⟨s, name, none⟩⟩ else ⟨[⟨s, name, none⟩], none⟩)
  | some value =>
    if s.takesValue then .ok ⟨[⟨s, name, some (.ofText (String.ofList value))⟩], none⟩ else
    match value with
    | [] => .error (.unwantedValue s.title "")
    | c :: rest =>
      let next := String.ofList ['-', c]
      match named? switches next with
      | some following =>
        if isShort name then
          Row.after ⟨s, name, none⟩ <$> unpack switches following next (behind rest)
        else .error (.unwantedValue s.title (String.ofList (c :: rest)))
      | none => .error (.unwantedValue s.title (String.ofList (c :: rest)))
  termination_by value => (value.map fun cs => cs.length + 1).getD 0
  decreasing_by
    unfold behind
    split <;> simp

def Use.perform (u : Use α) (a : α) : Except Stop α :=
  match u.switch.effect, u.value with
  | .mark set, _ => .ok (set u.name a)
  | .tell text, _ => .error (.told text)
  | .value _ set, some .nothing => .ok (set .nothing a)
  | .value choices set, some (.text v) =>
    if choices.isEmpty || choices.contains v then .ok (set (.text v) a)
    else .error (.refused (.notAChoice u.switch.title v choices))
  | .value .., none => .error (.refused (.noValue u.switch.title))

/-! ### Command lines -/

structure Reading (α : Type) where
  value : α
  /-- Words that mean nothing. -/
  unknown : List String
  /-- The words from the first on that is no switch, where reading stops at such a word. -/
  rest : List String

/-- Refuses a line in place of what is read from it. -/
def refuse {β : Type} (r : Refusal) : Except Stop β := .error (.refused r)

/-- Reads word by word. Where reading `stops`, it does so at the first plain word. -/
def readFrom (switches : List (Switch α)) (stops : Bool) :
    List (Word α) → α → List String → Except Stop (Reading α)
  | [], a, unknown => .ok ⟨a, unknown, []⟩
  | w :: rest, a, unknown =>
    match w.kind with
    | .unknown => readFrom switches stops rest a (unknown ++ [w.text])
    | .plain =>
      if stops then .ok ⟨a, unknown, (w :: rest).map Word.text⟩
      else readFrom switches stops rest a (unknown ++ [w.text])
    | .hyphens =>
      if stops && !rest.isEmpty then .ok ⟨a, unknown, (w :: rest).map Word.text⟩
      else readFrom switches stops rest a (unknown ++ [w.text])
    | .switch f => do
      let row ← (unpack switches f.switch f.name f.value).mapError .refused
      match row.waiting, rest with
      | none, rest =>
        readFrom switches stops rest (← row.uses.foldlM (fun a u => u.perform a) a) unknown
      | some last, ⟨text, .plain⟩ :: rest =>
        let uses := row.uses ++ [{ last with value := some (.text text) }]
        readFrom switches stops rest (← uses.foldlM (fun a u => u.perform a) a) unknown
      | some last, _ => refuse (.noValue last.switch.title)

def read (switches : List (Switch α)) (stops : Bool) (line : List String) (a : α) :
    Except Stop (Reading α) := do
  readFrom switches stops (← (words switches line).mapError .refused) a []

end DesignComponents.CommandLine
