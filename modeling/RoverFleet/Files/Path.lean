/-!
# Paths

A path is read into its components; empty ones and single dots fall away. Resolving it walks the
components as a stack, so that the result is absolute and free of dots.
-/
namespace RoverFleet.Files

/-- The components of an absolute path from the root on, without dots. -/
abbrev Location := List String

structure Path where
  /-- How many slashes stand in front: none, one, or exactly two. -/
  slashes : Nat
  parts : List String
  deriving DecidableEq, Repr

namespace Path

def components (s : List Char) : List String :=
  ((s.splitOn '/').map String.ofList).filter fun part => part ≠ "" && part ≠ "."

def ofText (text : String) : Path :=
  let s := text.toList
  let slashes := (s.takeWhile (· = '/')).length
  ⟨if slashes = 2 then 2 else min slashes 1, components s⟩

def text (p : Path) : String :=
  if p.slashes = 0 ∧ p.parts.isEmpty then "."
  else String.ofList (List.replicate p.slashes '/') ++ "/".intercalate p.parts

def isAbsolute (p : Path) : Bool := 0 < p.slashes

def hasNul (p : Path) : Bool := p.parts.any (·.toList.contains '\x00')

/-- The path seen from another one; an absolute path stays as it is. -/
def seenFrom (base p : Path) : Path :=
  if p.isAbsolute then p else ⟨base.slashes, base.parts ++ p.parts⟩

end Path

namespace Location

/-- One component on the stack; two dots take one off. -/
def push (here : Location) (part : String) : Location :=
  if part = ".." then here.dropLast else here ++ [part]

def walk (here : Location) (parts : List String) : Location := parts.foldl push here

def text (l : Location) : String := "/" ++ "/".intercalate l

def toPath (l : Location) : Path := ⟨1, l⟩

/-- A location and the directories around it, the innermost first. -/
def withParents (l : Location) : List Location :=
  ((List.range (l.length + 1)).map l.take).reverse

end Location

end RoverFleet.Files
