import RoverFleet.Codec.Encoding
import RoverFleet.Files.Path
import RoverFleet.Text.Quoted

/-!
# The operating system

What a program asks of the system: its directory and environment, where a path leads, what lies
there, and what a file holds. Any question about files may be answered by an error. An error that
says that nothing is there to be found is no error for the question whether a path leads to a file.
-/
namespace RoverFleet.Files

/-- An error of the system. -/
structure SystemError where
  number : Nat
  text : String
  deriving DecidableEq, Repr

/-- What lies at a path. -/
inductive Kind where
  | file
  | directory
  | other
  deriving DecidableEq, Repr

inductive Stream where
  | output
  | errors
  deriving DecidableEq, Repr

/-- Why a path cannot be looked at. -/
inductive PathFault where
  | embeddedNul
  | linkLoop (p : Path)
  | system (e : SystemError)
  deriving DecidableEq, Repr

/-- The system by its answers. -/
structure System where
  directory : Except SystemError Location
  environment : List (String × String)
  /-- Where a path leads when the links on it are followed. -/
  follow : Path → Except SystemError Location
  examine : Path → Except SystemError Kind
  /-- The bytes of a file. Opening it may fail, and reading it afterwards. -/
  contents : Path → Except SystemError (Except SystemError (List UInt8))
  /-- The codecs that there are besides the encodings. -/
  codec? : String → Option Codec.Decoder
  isTerminal : Stream → Bool

namespace SystemError

def notFound : SystemError := ⟨2, "No such file or directory"⟩

def nameTooLong : SystemError := ⟨36, "File name too long"⟩

def isLoop (e : SystemError) : Bool := e.number = 40

/-- Whether the error says that there is nothing: no entry, no directory on the way, a bad
descriptor, or links that lead round. -/
def isAbsence (e : SystemError) : Bool := [2, 20, 9].contains e.number || e.isLoop

def message (e : SystemError) : String := "[Errno " ++ toString e.number ++ "] " ++ e.text

def messageAt (e : SystemError) (l : Location) : String := e.message ++ ": " ++ Text.quoted l.text

end SystemError

namespace PathFault

/-- A name or a path that is too long for the system. -/
@[match_pattern]
abbrev nameTooLong : PathFault := .system ⟨36, "File name too long"⟩

def message : PathFault → String
  | .embeddedNul => "embedded null byte"
  | .linkLoop p => "Symlink loop from " ++ Text.quoted p.text
  | .system e => e.text

end PathFault

namespace System

def lookup? (s : System) (name : String) : Option String := s.environment.lookup name

/-- The path of the directory that the program runs in. -/
def current (s : System) : Except PathFault Path :=
  (s.directory.map Location.toPath).mapError .system

/-- Whether a regular file is at a path. A path with a null character leads to none. -/
def isFile (s : System) (p : Path) : Except PathFault Bool :=
  if p.hasNul then .ok false
  else
    match s.examine p with
    | .ok kind => .ok (kind = .file)
    | .error e => if e.isAbsence then .ok false else .error (.system e)

/-- The location that a path leads to. What lies there is examined, but only links that lead round
count as a fault. -/
def resolve (s : System) (p : Path) : Except PathFault Location :=
  if p.hasNul then .error .embeddedNul
  else
    match s.follow p with
    | .error e => .error (if e.isLoop then .linkLoop p else .system e)
    | .ok l =>
      match s.examine l.toPath with
      | .error e => if e.isLoop then .error (.linkLoop l.toPath) else .ok l
      | .ok _ => .ok l

end System

end RoverFleet.Files
