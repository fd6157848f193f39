import RoverFleet.Toml.Fault
import RoverFleet.Value

/-!
# Tables of a TOML document

The tables read so far and what may not be done to them any more: a table that was opened is not
opened again, and what a single value holds is not added to.
-/
namespace RoverFleet.Toml

structure Tables where
  data : Fields
  /-- Tables that cannot be opened by a header. -/
  opened : List Key
  /-- Values that nothing can be added to. -/
  frozen : List Key
  /-- Tables of dotted keys, which count as opened from the next header on. -/
  pending : List Key

namespace Tables

def empty : Tables := ⟨[], [], [], []⟩

def isOpened (t : Tables) (key : Key) : Bool := t.opened.contains key

/-- Whether the key leads to a frozen value or into one. -/
def isFrozen (t : Tables) (key : Key) : Bool := t.frozen.any fun f => f.isPrefixOf key

def openTable (t : Tables) (key : Key) : Tables := { t with opened := key :: t.opened }

def freeze (t : Tables) (key : Key) : Tables := { t with frozen := key :: t.frozen }

def finishPending (t : Tables) : Tables := { t with opened := t.pending ++ t.opened, pending := [] }

/-- Frees a key and all below it. -/
def release (t : Tables) (key : Key) : Tables :=
  { t with
    opened := t.opened.filter (!key.isPrefixOf ·)
    frozen := t.frozen.filter (!key.isPrefixOf ·) }

end Tables

/-- Changes the table at a key, making the tables on the way. With `throughLists` the last table of
a list stands for the list. Gives nothing where another value is in the way. -/
def changeTable (throughLists : Bool) (change : Fields → Option Fields) :
    Key → Fields → Option Fields
  | [], table => change table
  | part :: rest, table =>
    match table.lookup part with
    | none => do
      let inner ← changeTable throughLists change rest []
      some (table.put part (.object inner))
    | some (.object inner) => do
      let inner ← changeTable throughLists change rest inner
      some (table.put part (.object inner))
    | some (.list items) =>
      match throughLists, items.getLast? with
      | true, some (.object inner) => do
        let inner ← changeTable throughLists change rest inner
        some (table.put part (.list (items.dropLast ++ [.object inner])))
      | _, _ => none
    | some _ => none

/-- Adds a new value to a table. -/
def addNew (name : String) (v : Value) (table : Fields) : Option Fields :=
  if table.has name then none else some (table.put name v)

/-- Adds an empty table to the list under a name. -/
def addToList (name : String) (table : Fields) : Option Fields :=
  match table.lookup name with
  | none => some (table.put name (.list [.object []]))
  | some (.list items) => some (table.put name (.list (items ++ [.object []])))
  | some _ => none

end RoverFleet.Toml
