import RoverFleet.Files.Path

/-!
# Settings

The settings of a run. Plain settings stand on their own, the others in sections. A setting that no
source gives has its default.
-/
namespace RoverFleet
open Files

structure Settings where
  /-- The directory that script paths are seen from. -/
  base : Path
  /-- The settings file that was read. -/
  file : Option Path
  json : Bool := false
  verbose : Bool := false
  debug : Bool := false
  logJson : Bool := false
  encoding : String := "utf-8-sig"
  verboseOutput : Bool := false
  width : Int := 120
  deriving DecidableEq, Repr

namespace Settings

def plainNames : List String :=
  ["base_dir", "config_path", "json_output", "verbose", "debug", "log_json"]

/-- The sections and their keys. -/
def sections : List (String × List String) :=
  [("input", ["encoding"]), ("output", ["verbose", "width"])]

def sectionNames : List String := sections.map (·.1)

def isKnown (name : String) : Bool := plainNames.contains name || sectionNames.contains name

/-- Rovers are shown in the verbose format if the flag or the section asks for it. -/
def isVerbose (s : Settings) : Bool := s.verbose || s.verboseOutput

end Settings

end RoverFleet
