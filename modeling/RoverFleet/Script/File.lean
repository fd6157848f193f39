import RoverFleet.Files.System
import RoverFleet.Simulation

/-!
# Script files

A script file is found from a base directory, decoded, and run. A file that is missing, cannot be
opened or read, or cannot be decoded makes a failing report; the faults of `Escape` end the run
without a report.
-/
namespace RoverFleet.Script
open Files Codec

/-- Why a file is not read, in a way that is reported. -/
inductive Unreadable where
  | notFound (path : String)
  | notOpened (path : String) (e : SystemError) (l : Location)
  | unknownEncoding (path : String) (f : NameFault)
  | notRead (path : String) (e : SystemError)
  | undecodable (path : String) (u : Undecodable)
  deriving DecidableEq, Repr

/-- A fault of reading that no report tells of. -/
inductive Escape where
  | path (f : PathFault)
  | nulInEncoding
  | noMark
  | foreign (message : String)
  deriving DecidableEq, Repr

inductive ReadFailure where
  | unreadable (u : Unreadable)
  | escape (e : Escape)
  deriving DecidableEq, Repr

namespace Unreadable

def failed (path reason : String) : String := "Failed to read file: " ++ path ++ ". " ++ reason

def message : Unreadable → String
  | .notFound path => "File not found: " ++ path
  | .notOpened path e l => failed path (e.messageAt l)
  | .unknownEncoding path f => failed path f.message
  | .notRead path e => failed path e.message
  | .undecodable path u => failed path u.message

def fault (u : Unreadable) : Simulation.Fault := ⟨"Error", u.message, u.message, none⟩

end Unreadable

namespace Escape

def message : Escape → String
  | .path f => f.message
  | .nulInEncoding => "embedded null character"
  | .noMark => "UTF-16 stream does not start with BOM"
  | .foreign message => message

end Escape

/-- The location of a script, seen from the base or else from the directory of the program. -/
def locate (s : System) (base : Option String) (path : String) : Except PathFault Location := do
  let base ← base.elim s.current fun text => .ok (Path.ofText text)
  s.resolve (base.seenFrom (Path.ofText path))

def decodeFile (path : String) (decoder : Decoder) (bytes : List UInt8) :
    Except ReadFailure (List Char) :=
  match decoder bytes with
  | .ok s => .ok (unifyLineEnds s)
  | .error (.undecodable u) => .error (.unreadable (.undecodable path u))
  | .error .noMark => .error (.escape .noMark)
  | .error (.foreign message) => .error (.escape (.foreign message))

/-- The text of the file at a location. The file is opened before the encoding is looked up. -/
def readFile (s : System) (l : Location) (encoding path : String) :
    Except ReadFailure (List Char) :=
  if encoding.toList.contains '\x00' then .error (.escape .nulInEncoding)
  else do
    let opened ← (s.contents l.toPath).mapError fun e => .unreadable (.notOpened path e l)
    let decoder ← (decoderOf s.codec? encoding).mapError fun f =>
      .unreadable (.unknownEncoding path f)
    let bytes ← opened.mapError fun e => .unreadable (.notRead path e)
    decodeFile path decoder bytes

/-- The text of a script file. -/
def load (s : System) (base : Option String) (encoding path : String) :
    Except ReadFailure (List Char) := do
  let l ← (locate s base path).mapError fun f => .escape (.path f)
  if ← (s.isFile l.toPath).mapError fun f => .escape (.path f) then readFile s l encoding path
  else throw (.unreadable (.notFound path))

end Script

namespace Simulation

/-- Runs the script in a file. -/
def ofFile (s : Files.System) (base : Option String) (encoding path : String) :
    Except Script.Escape Simulation :=
  match Script.load s base encoding path with
  | .ok text => .ok (ofText text (some path))
  | .error (.unreadable u) => .ok (failing [] u.fault (some path))
  | .error (.escape e) => .error e

end Simulation

end RoverFleet
