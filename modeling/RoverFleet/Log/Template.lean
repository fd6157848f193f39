import RoverFleet.Log.Conversion

/-!
# Templates of events

A percent sign starts a conversion, which writes the next argument. Two percent signs write one and
take no argument.
-/
namespace RoverFleet.Log

/-- Fills the places of a template, which have to use up the arguments. Each round takes at least
one character off the template. -/
def fillWithin : Nat → List Char → Arguments → Option (List Char)
  | 0, _, _ => none
  | _, [], a => if a.isDone then some [] else none
  | rounds + 1, '%' :: '%' :: s, a => return '%' :: (← fillWithin rounds s a)
  | rounds + 1, '%' :: s, a => do
    let (k, a, rest) ← Conversion.read? a s
    let (v, a) ← a.take?
    return (← k.write? v) ++ (← fillWithin rounds rest a)
  | rounds + 1, c :: s, a => return c :: (← fillWithin rounds s a)

def fill? (template : List Char) (a : Arguments) : Option (List Char) :=
  fillWithin (template.length + 1) template a

/-- The text of an event; without arguments it stands as it is. -/
def eventText? (template : String) (arguments : List Value) : Option String :=
  if arguments.isEmpty then some template
  else (fill? template.toList (.ofList arguments)).map String.ofList

end RoverFleet.Log
