import RoverFleet.Value

/-!
# Log records

A record tells of one event. It is written if its level reaches the threshold of its logger, which
is lower for the program's own loggers in a verbose log.
-/
namespace RoverFleet.Log

inductive Level where
  | debug
  | info
  | warning
  | error
  | critical
  deriving DecidableEq, Repr

namespace Level

def rank : Level → Nat
  | .debug => 10
  | .info => 20
  | .warning => 30
  | .error => 40
  | .critical => 50

def name : Level → String
  | .debug => "debug"
  | .info => "info"
  | .warning => "warning"
  | .error => "error"
  | .critical => "critical"

def all : List Level := [.debug, .info, .warning, .error, .critical]

def ofName? (name : String) : Option Level := all.find? (·.name = name)

end Level

structure Record where
  logger : String
  level : Level
  event : String
  fields : Fields := []

/-- How a log is written. -/
structure Setup where
  verbose : Bool := false
  json : Bool := false
  /-- Whether the columns of lines are coloured. -/
  colours : Bool := false
  deriving DecidableEq, Repr

def ownLogger : String := "roverctl"

/-- The program's own logger and those below it. -/
def isOwn (logger : String) : Bool :=
  logger = ownLogger || (ownLogger ++ ".").toList.isPrefixOf logger.toList

/-- How lines call a logger: the one without a name is the root of all. -/
def loggerTitle (logger : String) : String := if logger.isEmpty then "root" else logger

namespace Setup

def threshold (s : Setup) (logger : String) : Level :=
  if s.verbose && isOwn logger then .debug else .warning

def passes (s : Setup) (logger : String) (level : Level) : Bool :=
  (s.threshold logger).rank ≤ level.rank

def shows (s : Setup) (r : Record) : Bool := s.passes r.logger r.level

end Setup

end RoverFleet.Log
