import RoverFleet.Plateau

/-!
# Sessions

A session makes plateaus and rovers under names and works on them step by step. Plateaus keep
their rovers by reference: a rover that several plateaus keep is one rover, and each sees where it
stands now. A step is an action that checks and assigns in a fixed order; when it fails, what it
has assigned before stays.
-/
namespace RoverFleet
open Numeric

inductive Handle where
  | rover (index : Nat)
  | plateau (index : Nat)
  deriving DecidableEq, Repr

/-- A plateau of a session: its rovers are indices into the rovers of the session. -/
structure Ground where
  id : String
  bounds : Bounds
  registry : List Nat
  deriving DecidableEq, Repr

/-- Everything that was made, and what each name is bound to now. -/
structure Session where
  rovers : List Rover
  grounds : List Ground
  names : List (String × Handle)
  deriving DecidableEq, Repr

inductive Step where
  | makePlateau (name id : String) (x y : Value)
  | makeRover (name id : String) (x y heading : Value)
  | add (plateau rover : String)
  | rotate (rover : String) (command : Value)
  | move (rover : String) (plateau : Option String)
  | execute (rover : String) (plateau : Option String) (command : String)
  | run (rover : String) (plateau : Option String) (commands : List Char)
  | next (rover : String)
  | inside (plateau : String) (point : Point)
  | occupied (plateau : String) (point : Point) (exclude : Option String)
  | get (plateau id : String)
  | rovers (plateau : String)
  | clearRovers (plateau : String)
  | text (name : String)
  | fields (name : String)
  | description (rover : String)

/-- Why a step has no answer. -/
inductive Trouble where
  | unbound
  | failed (f : Failure)
  | unknownHeading (text : String)
  | unknownCommand (text : String)
  | notATurn
  | incomparable
  deriving DecidableEq, Repr

/-- What a step answers: nothing, a value, or a rover itself. -/
inductive Answer where
  | null
  | value (v : Value)
  | rover (index : Nat)

namespace Trouble

def ofLimit (l : DigitLimit) : Trouble := .failed (.limit l)

def ofRefusal (r : Refusal) : Trouble := .failed (.refused r)

end Trouble

namespace Heading

/-- The heading that a value names. -/
def ofValue (v : Value) : Except Trouble Heading :=
  let unknown := match v.quotedText with
    | .ok text => .error (.unknownHeading text)
    | .error l => .error (.ofLimit l)
  match v with
  | .string s => (ofText? s).elim unknown .ok
  | _ => unknown

end Heading

namespace Command

/-- The command that a value names. -/
def ofValue (v : Value) : Except Trouble Command :=
  let unknown := match v.quotedText with
    | .ok text => .error (.unknownCommand text)
    | .error l => .error (.ofLimit l)
  match v with
  | .string s => (ofText? s).elim unknown .ok
  | _ => unknown

end Command

namespace Rover

def make (id : String) (x y heading : Value) : Except Trouble Rover := do
  let cell ← (startCell x y).mapError .ofRefusal
  return ⟨id, cell, ← Heading.ofValue heading⟩

end Rover

namespace Session

def empty : Session := ⟨[], [], []⟩

def bind (name : String) (h : Handle) : List (String × Handle) → List (String × Handle)
  | [] => [(name, h)]
  | (n, g) :: rest => if n = name then (n, h) :: rest else (n, g) :: bind name h rest

def handle (s : Session) (name : String) : Except Trouble Handle :=
  (s.names.lookup name).elim (.error .unbound) .ok

/-- The rover under a name, with its index. -/
def rover (s : Session) (name : String) : Except Trouble (Nat × Rover) :=
  match s.names.lookup name with
  | some (.rover i) => (s.rovers[i]?).elim (.error .unbound) fun r => .ok (i, r)
  | _ => .error .unbound

/-- The plateau under a name, with its index. -/
def ground (s : Session) (name : String) : Except Trouble (Nat × Ground) :=
  match s.names.lookup name with
  | some (.plateau i) => (s.grounds[i]?).elim (.error .unbound) fun g => .ok (i, g)
  | _ => .error .unbound

/-- A plateau with its rovers as they stand now. -/
def view (s : Session) (g : Ground) : Plateau :=
  ⟨g.id, g.bounds, g.registry.filterMap (s.rovers[·]?)⟩

def plateau (s : Session) (name : String) : Except Trouble Plateau :=
  return s.view (← s.ground name).2

def roverAt (s : Session) (i : Nat) : Except Trouble Rover :=
  (s.rovers[i]?).elim (.error .unbound) .ok

def plateauAt (s : Session) (k : Nat) : Except Trouble Plateau :=
  (s.grounds[k]?).elim (.error .unbound) fun g => .ok (s.view g)

def setRover (s : Session) (i : Nat) (r : Rover) : Session := { s with rovers := s.rovers.set i r }

/-- Puts a rover in the place of the registered one with its id, or at the end. -/
def register (s : Session) (i : Nat) (id : String) : List Nat → List Nat
  | [] => [i]
  | j :: rest =>
    if (s.rovers[j]?).map (·.id) = some id then i :: rest else j :: register s i id rest

/-- The index of the rover that a plateau keeps under an id. -/
def registered? (s : Session) (g : Ground) (id : String) : Option Nat :=
  g.registry.find? fun i => (s.rovers[i]?).map (·.id) = some id

def roverList (p : Plateau) : Value := .list (p.rovers.map fun r => .object r.fields)

/-! Actions -/

/-- Part of a step. It finds the session as the parts before it have left it, and an error leaves
the session as it is then. -/
abbrev Action := ExceptT Trouble (StateM Session)

/-- What an action makes of a session, and its result. -/
def Action.perform {α : Type} (act : Action α) (s : Session) : Session × Except Trouble α :=
  let (result, t) := act.run.run s
  (t, result)

/-- A check, which does not depend on the session. -/
def checking {α : Type} (x : Except Trouble α) : Action α := liftM x

/-- Something that the session tells as it is now. -/
def asking {α : Type} (question : Session → Except Trouble α) : Action α := do
  checking (question (← get))

def assign (i : Nat) (r : Rover) : Action Unit := modify (·.setRover i r)

/-- Turns a rover; a move is no turn. -/
def turn (i : Nat) (c : Command) : Action Unit := do
  let r ← asking (·.roverAt i)
  match c with
  | .left => assign i { r with heading := r.heading.left }
  | .right => assign i { r with heading := r.heading.right }
  | .move => throw .notATurn

/-- Checks that a move may lead to a cell. Without a plateau it may lead anywhere. -/
def checkTarget (id : String) (target : Cell) : Option Nat → Action Unit
  | none => pure ()
  | some k => asking fun s => do ((← s.plateauAt k).moving id target).mapError .failed

/-- Takes a rover one step ahead, on a plateau or without one. -/
def move (i : Nat) (site : Option Nat) : Action Unit := do
  let r ← asking (·.roverAt i)
  checkTarget r.id r.ahead site
  assign i { r with cell := r.ahead }

def execute (i : Nat) (site : Option Nat) : Command → Action Unit
  | .move => move i site
  | c => turn i c

/-- Executes the command of each letter until one fails. -/
def runLetters (i : Nat) (site : Option Nat) : List Char → Action Unit
  | [] => pure ()
  | c :: rest => do
    let k ← checking (Command.ofValue (.string (String.singleton c)))
    execute i site k
    runLetters i site rest

/-- A list of rovers that is given out: the registry of a plateau, or a list made for who asks. -/
inductive Listing where
  | registry (ground : Nat)
  | copy (indices : List Nat)

namespace Listing

/-- The list that a plateau gives out of its rovers. -/
def ofGround (g : Ground) : Listing := .copy g.registry

/-- Clears a list. No one else has a copy. -/
def clear : Listing → Action Unit
  | .registry k => modify fun s =>
    { s with grounds := s.grounds.modify k fun g => { g with registry := [] } }
  | .copy _ => pure ()

end Listing

/-! Steps -/

def makePlateau (name id : String) (x y : Value) : Action Answer := do
  let p ← checking ((Plateau.ofBounds id x y).mapError .ofRefusal)
  modify fun s => { s with
    grounds := s.grounds ++ [⟨p.id, p.bounds, []⟩]
    names := bind name (.plateau s.grounds.length) s.names }
  return .value (.object p.fields)

/-- Makes a rover. Until all of it is checked, no one else sees the rover that is being made. -/
def makeRover (name id : String) (x y heading : Value) : Action Answer := do
  let r ← checking (Rover.make id x y heading)
  modify fun s => { s with
    rovers := s.rovers ++ [r]
    names := bind name (.rover s.rovers.length) s.names }
  return .null

def add (plateau rover : String) : Action Answer := do
  let (k, g) ← asking (·.ground plateau)
  let (i, r) ← asking (·.rover rover)
  asking fun s => ((s.view g).placing r).mapError .failed
  modify fun s =>
    { s with grounds := s.grounds.set k { g with registry := s.register i r.id g.registry } }
  return .null

/-- The plateau to drive on, if one is named. -/
def siteAt : Option String → Action (Option Nat)
  | none => pure none
  | some name => do
    let (k, _) ← asking (·.ground name)
    return some k

/-- Drives the rover of a name, on a plateau or without one. -/
def driveBy (name : String) (plateau : Option String) (act : Nat → Option Nat → Action Unit) :
    Action Answer := do
  let (i, _) ← asking (·.rover name)
  let site ← siteAt plateau
  act i site
  return .null

/-- A rotation by the command that a value names. -/
def rotate (i : Nat) (command : Value) : Action Unit := do
  turn i (← checking (Command.ofValue command))

/-- A text that is no command is executed by doing nothing. -/
def executeText (i : Nat) (site : Option Nat) (command : String) : Action Unit :=
  (Command.ofText? command).elim (pure ()) (execute i site)

/-- The text of what a name is bound to. -/
def textOf (s : Session) (name : String) : Except Trouble String := do
  match ← s.handle name with
  | .rover _ => (← s.rover name).2.text?.mapError .ofLimit
  | .plateau _ => (← s.plateau name).text?.mapError .ofLimit

def fieldsOf (s : Session) (name : String) : Except Trouble Fields := do
  match ← s.handle name with
  | .rover _ => return (← s.rover name).2.fields
  | .plateau _ => return (← s.plateau name).fields

/-- What a step does. -/
def act : Step → Action Answer
  | .makePlateau name id x y => makePlateau name id x y
  | .makeRover name id x y heading => makeRover name id x y heading
  | .add plateau rover => add plateau rover
  | .rotate rover command => driveBy rover none fun i _ => rotate i command
  | .move rover plateau => driveBy rover plateau move
  | .execute rover plateau command =>
    driveBy rover plateau fun i site => executeText i site command
  | .run rover plateau commands => driveBy rover plateau fun i site => runLetters i site commands
  | .next rover => do
    let (_, r) ← asking (·.rover rover)
    return .value (.object [("x", .int r.ahead.x), ("y", .int r.ahead.y)])
  | .inside plateau point => do
    let p ← asking (·.plateau plateau)
    (p.bounds.contains? point).elim (throw .incomparable) fun b => return .value (.bool b)
  | .occupied plateau point exclude => do
    let p ← asking (·.plateau plateau)
    return .value (.bool (p.occupiedAt point exclude))
  | .get plateau id => do
    let (_, g) ← asking (·.ground plateau)
    let found ← asking fun s => return s.registered? g id
    return found.elim .null .rover
  | .rovers plateau => return .value (roverList (← asking (·.plateau plateau)))
  | .clearRovers plateau => do
    let (_, g) ← asking (·.ground plateau)
    (Listing.ofGround g).clear
    return .value (roverList (← asking (·.plateau plateau)))
  | .text name => return .value (.string (← asking (·.textOf name)))
  | .fields name => return .value (.object (← asking (·.fieldsOf name)))
  | .description rover => do
    let (_, r) ← asking (·.rover rover)
    return .value (.string (← checking (r.description.mapError .ofLimit)))

def step (s : Session) (st : Step) : Session × Except Trouble Answer := (act st).perform s

end Session

end RoverFleet
