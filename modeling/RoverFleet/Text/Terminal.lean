/-!
# Terminal sequences

An escape character and a bracket, then parameters, then intermediate characters and one final
character make a sequence that steers a terminal. What is printed has none.
-/
namespace RoverFleet.Text

def isParameter (c : Char) : Bool := '0' ≤ c && c ≤ '?'

def isIntermediate (c : Char) : Bool := ' ' ≤ c && c ≤ '/'

def isFinal (c : Char) : Bool := '@' ≤ c && c ≤ '~'

/-- What follows a sequence, read from its parameters on. -/
def afterSequence? (s : List Char) : Option (List Char) :=
  match (s.dropWhile isParameter).dropWhile isIntermediate with
  | c :: rest => if isFinal c then some rest else none
  | [] => none

theorem afterSequence?_length {s rest : List Char} (h : afterSequence? s = some rest) :
    rest.length < s.length := by
  have hle := (List.dropWhile_suffix isIntermediate (l := s.dropWhile isParameter)).length_le
  have hle' := (List.dropWhile_suffix isParameter (l := s)).length_le
  unfold afterSequence? at h
  split at h
  · next c more heq =>
    rw [heq, List.length_cons] at hle
    split at h
    · obtain rfl := Option.some.inj h
      omega
    · simp at h
  · simp at h

/-- Takes the terminal sequences out of a text. -/
def dropSequences (s : List Char) : List Char :=
  match s with
  | [] => []
  | '\x1b' :: '[' :: s =>
    match _h : afterSequence? s with
    | some rest => dropSequences rest
    | none => '\x1b' :: dropSequences ('[' :: s)
  | c :: s => c :: dropSequences s
termination_by s.length
decreasing_by
  all_goals simp_wf
  have := afterSequence?_length _h
  omega

end RoverFleet.Text
