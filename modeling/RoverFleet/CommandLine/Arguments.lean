import RoverFleet.CommandLine.Usage
import RoverFleet.Value

/-!
# Arguments of the command

The arguments are read into items from left to right. After two dashes all are words. Short options
may share a dash, and the value of an option may be attached to it. The items then ask for a page
or a run.
-/
namespace RoverFleet.CommandLine

inductive Item where
  | flag (f : Flag)
  | page (p : Page)
  | config (text : String)
  | word (text : String)
  deriving DecidableEq, Repr

/-- What one argument says. With `awaited`, the next argument is the value of that option. -/
structure Argument where
  items : List Item
  awaited : Option String := none
  deriving DecidableEq, Repr

/-- A long option, whose value stands after an equals sign. -/
def readLong (s : List Char) : Except UsageError Argument :=
  let name := String.ofList (s.takeWhile (· ≠ '='))
  let value? := match s.dropWhile (· ≠ '=') with
    | _ :: value => some (String.ofList value)
    | [] => none
  if name = configName then
    match value? with
    | some value => .ok ⟨[.config value], none⟩
    | none => .ok ⟨[], some name⟩
  else
    match ((Flag.ofName? name).map Item.flag).or ((Page.ofName? name).map Item.page) with
    | some item => if value?.isSome then .error (.takesNoValue name) else .ok ⟨[item], none⟩
    | none => .error (.unknownName name)

/-- Short options behind one dash. -/
def readLetters : List Char → Except UsageError Argument
  | [] => .ok ⟨[], none⟩
  | 'v' :: rest => do
    let more ← readLetters rest
    return { more with items := .flag .verbose :: more.items }
  | 'c' :: value =>
    .ok (if value.isEmpty then ⟨[], some "-c"⟩ else ⟨[.config (String.ofList value)], none⟩)
  | c :: _ => .error (.unknownLetter c)

def readArgument (argument : String) : Except UsageError Argument :=
  match argument.toList with
  | '-' :: '-' :: rest => readLong ('-' :: '-' :: rest)
  | '-' :: c :: rest => readLetters (c :: rest)
  | _ => .ok ⟨[.word argument], none⟩

/-- Reads the items of arguments, when an option may await its value. -/
def readItemsFrom (awaited : Option String) : List String → Except UsageError (List Item)
  | [] => awaited.elim (.ok []) fun name => .error (.needsValue name)
  | argument :: rest =>
    if awaited.isSome then return .config argument :: (← readItemsFrom none rest)
    else if argument = "--" then .ok (rest.map .word)
    else do
      let a ← readArgument argument
      return a.items ++ (← readItemsFrom a.awaited rest)

def readItems (arguments : List String) : Except UsageError (List Item) :=
  readItemsFrom none arguments

/-- A run that is asked for. -/
structure Order where
  file : String
  flags : List Flag
  /-- The settings file; of several the last counts. -/
  config : Option String
  deriving DecidableEq, Repr

inductive Request where
  | page (p : Page)
  | run (o : Order)
  deriving DecidableEq, Repr

namespace Item

def page? : Item → Option Page
  | .page p => some p
  | _ => none

def flag? : Item → Option Flag
  | .flag f => some f
  | _ => none

def config? : Item → Option String
  | .config text => some text
  | _ => none

def word? : Item → Option String
  | .word text => some text
  | _ => none

end Item

namespace Order

/-- Every flag as a setting: one that is not given is off. -/
def settings (o : Order) : Fields := Flag.all.map fun f => (f.setting, .bool (o.flags.contains f))

end Order

namespace Request

/-- The first page that is asked for, or else a run of the one file. -/
def ofItems (items : List Item) : Except UsageError Request :=
  match items.findSome? Item.page?, items.filterMap Item.word? with
  | some p, _ => .ok (.page p)
  | none, [] => .error .missingFile
  | none, [file] =>
    .ok (.run ⟨file, items.filterMap Item.flag?, (items.filterMap Item.config?).getLast?⟩)
  | none, _ :: extra => .error (.extraWords extra)

def read (arguments : List String) : Except UsageError Request := do
  ofItems (← readItems arguments)

end Request

end RoverFleet.CommandLine
