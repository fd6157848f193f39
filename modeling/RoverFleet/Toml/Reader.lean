import RoverFleet.Toml.Scalar
import RoverFleet.Toml.Tables

/-!
# Reading TOML

A document is a row of statements: table headers, headers of tables in lists, and keys with their
values. Each statement ends its line.
-/
namespace RoverFleet.Toml

/-! Keys -/

def isBareKeyChar (c : Char) : Bool := c.isAlphanum || c = '-' || c = '_'

def readKeyPart : Reader String
  | '"' :: s => do
    let (body, rest) ← readBasic false (s.length + 1) s
    return (String.ofList body, rest)
  | '\x27' :: s => do
    let (body, rest) ← readLiteral false "'" s
    return (String.ofList body, rest)
  | s =>
    let part := s.takeWhile isBareKeyChar
    if part.isEmpty then fail .keyStart s
    else .ok (String.ofList part, s.dropWhile isBareKeyChar)

/-- Parts of a key with points between them, and the blanks after it. -/
def readKeyParts : Nat → Reader Key
  | 0, s => fail .keyStart s
  | fuel + 1, s => do
    let (part, s) ← readKeyPart s
    match skipSpace s with
    | '.' :: s => do
      let (parts, s) ← readKeyParts fuel (skipSpace s)
      return (part :: parts, s)
    | s => return ([part], s)

def readKey : Reader Key := fun s => readKeyParts (s.length + 1) s

/-! Comments -/

def skipComment (s : List Char) : Except Fault (List Char) :=
  match s with
  | '#' :: rest =>
    let body := rest.takeWhile (· ≠ '\n')
    match illegalSuffix? false body with
    | some (c :: more) => fail (.invalidCharacter c) (rest.drop (body.length - (more.length + 1)))
    | _ => .ok (rest.dropWhile (· ≠ '\n'))
  | _ => .ok s

/-- Blanks, line ends and comments between the items of an array. -/
def skipFiller : Nat → List Char → Except Fault (List Char)
  | 0, s => .ok s
  | fuel + 1, s => do
    let rest ← skipComment (skipSpaceAndLines s)
    if rest.length = s.length then return rest else skipFiller fuel rest

def skipArrayFiller (s : List Char) : Except Fault (List Char) := skipFiller (s.length + 1) s

/-! Values -/

def isCompound : Value → Bool
  | .object _ | .list _ => true
  | _ => false

/-- Adds a pair to an inline table, given the keys of its compound values. -/
def addInline (frozen : List Key) (table : Fields) (key : Key) (v : Value) (rest : List Char) :
    Except Fault Fields :=
  if frozen.any fun f => f.isPrefixOf key then fail (.immutable key) rest
  else
    match changeTable false some key.dropLast table with
    | none => fail .overwritten rest
    | some opened =>
      match changeTable false (addNew (key.getLast?.getD "") v) key.dropLast opened with
      | some table => .ok table
      | none => fail (.duplicate (key.getLast?.getD "")) rest

/-- A number or a moment. -/
def readScalar : Reader Value := fun s =>
  let number := ((readBased? s).map .ok).or ((readDecimal? s).or ((readSpecial? s).map .ok))
  ((readMoment? s).or number).getD (fail .value s)

mutual

def readValue : Nat → Reader Value
  | 0, s => fail .value s
  | fuel + 1, s =>
    match s with
    | '"' :: rest => do
      let (text, rest) ← readDoubleQuoted rest
      return (.string text, rest)
    | '\x27' :: rest => do
      let (text, rest) ← readSingleQuoted rest
      return (.string text, rest)
    | '[' :: rest => do
      match ← skipArrayFiller rest with
      | ']' :: rest => return (.list [], rest)
      | rest => do
        let (items, rest) ← readItems fuel rest
        return (.list items, rest)
    | '\x7b' :: rest =>
      match skipSpace rest with
      | '\x7d' :: rest => .ok (.object [], rest)
      | rest => do
        let (table, rest) ← readPairs fuel [] [] rest
        return (.object table, rest)
    | _ =>
      match (after? "true" s).map (true, ·) |>.or ((after? "false" s).map (false, ·)) with
      | some (b, rest) => .ok (.bool b, rest)
      | none => readScalar s

/-- The items of an array from the first one up to the bracket. -/
def readItems : Nat → Reader (List Value)
  | 0, s => fail .unclosedArray s
  | fuel + 1, s => do
    let (v, s) ← readValue fuel s
    match ← skipArrayFiller s with
    | ']' :: s => return ([v], s)
    | ',' :: s =>
      match ← skipArrayFiller s with
      | ']' :: s => return ([v], s)
      | s => do
        let (more, s) ← readItems fuel s
        return (v :: more, s)
    | s => fail .unclosedArray s

/-- A key, an equals sign and a value. -/
def readPair : Nat → Reader (Key × Value)
  | 0, s => fail .keyStart s
  | fuel + 1, s => do
    let (key, s) ← readKey s
    match s with
    | '=' :: s => do
      let (v, s) ← readValue fuel (skipSpace s)
      return ((key, v), s)
    | s => fail .noEquals s

/-- The pairs of an inline table up to the brace. -/
def readPairs : Nat → List Key → Fields → Reader Fields
  | 0, _, _, s => fail .unclosedTable s
  | fuel + 1, frozen, table, s => do
    let ((key, v), s) ← readPair fuel s
    let table ← addInline frozen table key v s
    match skipSpace s with
    | '\x7d' :: s => return (table, s)
    | ',' :: s =>
      readPairs fuel (if isCompound v then key :: frozen else frozen) table (skipSpace s)
    | s => fail .unclosedTable s

end

/-! Statements -/

/-- The tables read so far, and the key of the last header. -/
structure Document where
  tables : Tables
  header : Key

/-- The proper prefixes of a key, each below the header. -/
def containers (header key : Key) : List Key :=
  ((List.range key.length).drop 1).map fun n => header ++ key.take n

def addPair (d : Document) (key : Key) (v : Value) (rest : List Char) : Except Fault Document := do
  let around := containers d.header key
  match around.find? d.tables.isOpened with
  | some k => fail (.redefined k) rest
  | none =>
    let tables := { d.tables with pending := around ++ d.tables.pending }
    let parent := d.header ++ key.dropLast
    if tables.isFrozen parent then fail (.immutable parent) rest
    else
      match changeTable true (addNew (key.getLast?.getD "") v) parent tables.data with
      | none => fail .overwritten rest
      | some data =>
        let tables := if isCompound v then tables.freeze (d.header ++ key) else tables
        return { d with tables := { tables with data } }

/-- A table header after its bracket. -/
def readHeader (t : Tables) : Reader Document := fun s => do
  let (key, s) ← readKey (skipSpace s)
  if t.isOpened key || t.isFrozen key then fail (.declaredTwice key) s
  else
    match changeTable true some key t.data with
    | none => fail .overwritten s
    | some data =>
      match s with
      | ']' :: s => return (⟨{ t.openTable key with data }, key⟩, s)
      | s => fail .tableEnd s

/-- A header of a table in a list after its two brackets. -/
def readListHeader (t : Tables) : Reader Document := fun s => do
  let (key, s) ← readKey (skipSpace s)
  if t.isFrozen key then fail (.immutable key) s
  else
    match changeTable true (addToList (key.getLast?.getD "")) key.dropLast t.data with
    | none => fail .overwritten s
    | some data =>
      match s with
      | ']' :: ']' :: s => return (⟨{ (t.release key).openTable key with data }, key⟩, s)
      | s => fail .tableArrayEnd s

/-- What stands on a line before its comment. -/
def readStatement (d : Document) : Reader Document := fun s =>
  match s with
  | '[' :: '[' :: rest => readListHeader d.tables.finishPending rest
  | '[' :: rest => readHeader d.tables.finishPending rest
  | '#' :: _ => .ok (d, s)
  | c :: _ =>
    if isBareKeyChar c || c = '"' || c = '\x27' then do
      let ((key, v), rest) ← readPair (2 * s.length + 2) s
      return (← addPair d key v rest, rest)
    else fail .statement s
  | [] => .ok (d, [])

/-- Reads line by line. -/
def readLines : Nat → Document → List Char → Except Fault Document
  | 0, d, _ => .ok d
  | fuel + 1, d, s =>
    match skipSpace s with
    | [] => .ok d
    | '\n' :: rest => readLines fuel d rest
    | s => do
      let (d, rest) ← readStatement d s
      match ← skipComment (skipSpace rest) with
      | [] => return d
      | '\n' :: rest => readLines fuel d rest
      | rest => fail .afterStatement rest

/-- The table that a document describes. -/
def parse (s : List Char) : Except Fault Fields :=
  return (← readLines (s.length + 1) ⟨Tables.empty, []⟩ s).tables.data

end RoverFleet.Toml
