import RoverFleet.Files.System

/-!
# Trees of files

A tree gives the files and directories that there are. Looking a path up goes from directory to
directory; a component of more than 255 bytes cannot be looked up. A host is a system whose files
are those of a tree, without links, where every file can be read.
-/
namespace RoverFleet.Files

inductive Entry where
  | file (bytes : List UInt8)
  | directory
  deriving DecidableEq, Repr

/-- Entries by location; the directories around an entry exist as well. -/
structure Tree where
  entries : List (Location × Entry)

/-- A tree of files, the directory that a program runs in, and its environment. -/
structure Host where
  tree : Tree
  directory : Location
  environment : List (String × String)

namespace Entry

def kind : Entry → Kind
  | .file _ => .file
  | .directory => .directory

def bytes? : Entry → Option (List UInt8)
  | .file bytes => some bytes
  | .directory => none

end Entry

namespace Tree

def entry? (t : Tree) (l : Location) : Option Entry :=
  match t.entries.lookup l with
  | some e => some e
  | none =>
    if l.isEmpty || t.entries.any fun e => l.isPrefixOf e.1 then some .directory else none

def isLong (part : String) : Bool := 255 < part.utf8ByteSize

/-- What lies at the end of the components, seen from a location. -/
def find? (t : Tree) (here : Location) : List String → Except SystemError (Option Entry)
  | [] => .ok (t.entry? here)
  | part :: rest =>
    match t.entry? here with
    | some .directory =>
      if isLong part then .error .nameTooLong else find? t (here.push part) rest
    | _ => .ok none

/-- What lies at a path, seen from a directory. -/
def entryAt? (t : Tree) (directory : Location) (p : Path) : Except SystemError (Option Entry) :=
  if p.hasNul then .ok none
  else if 4096 ≤ p.text.utf8ByteSize then .error .nameTooLong
  else t.find? (if p.isAbsolute then [] else directory) p.parts

end Tree

namespace Host

def entryAt? (h : Host) (p : Path) : Except SystemError (Option Entry) :=
  h.tree.entryAt? h.directory p

/-- The bytes of the file at a path, if a file is there. -/
def fileAt? (h : Host) (p : Path) : Except SystemError (Option (List UInt8)) :=
  (h.entryAt? p).map fun found => found.bind Entry.bytes?

/-- What is found at a path; it is an error if nothing is. -/
def found {α : Type} (answer : Option α) : Except SystemError α :=
  answer.elim (.error .notFound) .ok

/-- The system of a host, which knows no other codecs and whose streams are no terminals. -/
def system (h : Host) : System where
  directory := .ok h.directory
  environment := h.environment
  follow p := .ok (Location.walk (if p.isAbsolute then [] else h.directory) p.parts)
  examine p := do return (← found (← h.entryAt? p)).kind
  contents p := do return .ok (← found (← h.fileAt? p))
  codec? _ := none
  isTerminal _ := false

instance : Coe Host System := ⟨Host.system⟩

end Host

end RoverFleet.Files
