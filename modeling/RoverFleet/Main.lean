import RoverFleet.CommandLine.Run
import Std.Time.Format

/-!
# The command

Asks the machine for all that a run may ask it for, runs the command and prints what it says.
-/
namespace RoverFleet.Machine
open Files

/-- The error of a code, which may come negated. -/
def ofCode (code : UInt32) (text : String) : SystemError :=
  ⟨min code.toNat (-code).toNat, text.capitalize⟩

def systemError : IO.Error → SystemError
  | .alreadyExists _ code text | .interrupted _ code text | .noFileOrDirectory _ code text
  | .invalidArgument _ code text | .permissionDenied _ code text | .resourceExhausted _ code text
  | .inappropriateType _ code text | .noSuchThing _ code text | .otherError code text
  | .resourceBusy code text | .resourceVanished code text | .unsupportedOperation code text
  | .hardwareFault code text | .unsatisfiedConstraints code text | .illegalOperation code text
  | .protocolError code text | .timeExpired code text => ofCode code text
  | e => ⟨5, toString e⟩

def attempted {α : Type} (action : IO α) : IO (Except SystemError α) := do
  try
    return .ok (← action)
  catch e => return .error (systemError e)

/-- What the machine says of a path. -/
structure Answer where
  path : Path
  target : Location
  kind : Except SystemError Kind
  bytes : Except SystemError (List UInt8)

/-- Where a path leads, seen from a directory; links are followed if all of it is there. -/
def target (directory : Location) (p : Path) : IO Location := do
  try
    return (Path.ofText (← IO.FS.realPath p.text).toString).parts
  catch _ => return Location.walk (if p.isAbsolute then [] else directory) p.parts

def ask (directory : Location) (p : Path) : IO Answer := do
  let kind ← attempted do
    match (← ((← IO.currentDir) / p.text).metadata).type with
    | .file => return Kind.file
    | .dir => return Kind.directory
    | _ => return Kind.other
  let bytes ← attempted (IO.FS.readBinFile p.text)
  return ⟨p, ← target directory p, kind, bytes.map (·.toList)⟩

def Answer.ofNothing (p : Path) : Answer := ⟨p, p.parts, .error .notFound, .error .notFound⟩

/-- A system that answers as the machine did. -/
def systemOf (directory : Except SystemError Location) (environment : List (String × String))
    (answers : List Answer) (outputIsTerminal errorsAreTerminal : Bool) : System :=
  let answer (p : Path) : Answer := (answers.find? (·.path = p)).getD (.ofNothing p)
  { directory
    environment
    follow := fun p => .ok (answer p).target
    examine := fun p => (answer p).kind
    contents := fun p => (answer p).bytes.map .ok
    codec? := fun _ => none
    isTerminal := fun
      | .output => outputIsTerminal
      | .errors => errorsAreTerminal }

/-- The variables between the zero bytes of a block. -/
def readVariables (block : ByteArray) : List (String × String) :=
  (block.toList.splitOn 0).filterMap fun bytes => do
    let text ← String.fromUTF8? ⟨bytes.toArray⟩
    let name := text.toList.takeWhile (· ≠ '=')
    if name.isEmpty then none
    else return (String.ofList name, String.ofList (text.toList.drop (name.length + 1)))

def readEnvironment : IO (List (String × String)) :=
  return readVariables (← IO.FS.readBinFile "/proc/self/environ")

/-- The paths that a run starts from: its directory, its script and its named settings files. -/
def firstPaths (directory : Location) (environment : List (String × String))
    (o : CommandLine.Order) : List Path :=
  let named := o.config.toList ++ (environment.lookup Settings.fileVariable).toList
  directory.toPath :: directory.toPath.seenFrom (Path.ofText o.file) :: named.map Path.ofText

/-- The paths that may be asked for after a path: its target, and settings files around that. -/
def nextPaths (a : Answer) : List Path :=
  a.target.toPath ::
    a.target.withParents.map fun d => Location.toPath (d ++ [Settings.fileName])

def readSystem (arguments : List String) : IO System := do
  let directory ← attempted do return (Path.ofText (toString (← IO.currentDir))).parts
  let environment ← readEnvironment
  let answers ← match directory, CommandLine.Request.read arguments with
    | .ok directory, .ok (.run o) => do
      let first ← (firstPaths directory environment o).mapM (ask directory)
      let next ← (first.flatMap nextPaths).mapM (ask directory)
      pure (first ++ next)
    | _, _ => pure []
  return systemOf directory environment answers (← (← IO.getStdout).isTty)
    (← (← IO.getStderr).isTty)

def readTime : IO String := do
  let now := Std.Time.DateTime.ofTimestamp (← Std.Time.Timestamp.now) .UTC
  return now.format "uuuu-MM-dd'T'HH:mm:ss.SSSSSS'Z'"

end RoverFleet.Machine

def main (arguments : List String) : IO UInt32 := do
  let system ← RoverFleet.Machine.readSystem arguments
  let time ← RoverFleet.Machine.readTime
  let outcome := RoverFleet.CommandLine.run .standard system time arguments
  (← IO.getStderr).putStr outcome.errors
  (← IO.getStdout).putStr outcome.output
  return outcome.code.toUInt32
