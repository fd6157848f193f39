import RoverFleet.Value

/-!
# Layers of fields

Fields laid over others: a field of the upper layer hides the one below it, but a section only
hides the keys that it has itself.
-/
namespace RoverFleet.Fields

/-- Sets all fields of the first layer in the second one. -/
def putAll (upper lower : Fields) : Fields := upper.foldl (fun all f => put f.1 f.2 all) lower

/-- What an upper value makes of the one below it. -/
def cover : Value → Option Value → Value
  | .object upper, some (.object lower) => .object (putAll upper lower)
  | upper, _ => upper

def overlay (upper lower : Fields) : Fields :=
  upper.foldl (fun all f => put f.1 (cover f.2 (all.lookup f.1)) all) lower

end RoverFleet.Fields
