/-!
# Similar words

The likeness of two words is counted by matching blocks: the longest common block, and the blocks
that match before and after it. It is measured against the lengths of both.
-/
namespace RoverFleet.Text

def commonLength : List Char → List Char → Nat
  | a :: s, b :: t => if a = b then commonLength s t + 1 else 0
  | _, _ => 0

structure Block where
  left : Nat
  right : Nat
  length : Nat
  deriving DecidableEq, Repr

/-- The blocks at all pairs of places, by the place on the left and then on the right. -/
def blocks (s t : List Char) : List Block :=
  (List.range s.length).flatMap fun i =>
    (List.range t.length).map fun j => ⟨i, j, commonLength (s.drop i) (t.drop j)⟩

/-- The first of the longest blocks. -/
def longestBlock (s t : List Char) : Block :=
  (blocks s t).foldl (fun best b => if best.length < b.length then b else best) ⟨0, 0, 0⟩

/-- The number of characters in matching blocks; each round takes at least one off the left. -/
def matchedWithin : Nat → List Char → List Char → Nat
  | 0, _, _ => 0
  | rounds + 1, s, t =>
    let b := longestBlock s t
    if b.length = 0 then 0
    else matchedWithin rounds (s.take b.left) (t.take b.right) + b.length +
      matchedWithin rounds (s.drop (b.left + b.length)) (t.drop (b.right + b.length))

/-- How alike two words are: characters that match, and characters of both. -/
structure Likeness where
  matched : Nat
  total : Nat
  deriving DecidableEq, Repr

def likeness (s t : String) : Likeness :=
  ⟨matchedWithin s.length s.toList t.toList, s.length + t.length⟩

namespace Likeness

/-- Whether at least three characters of ten match. -/
def isClose (l : Likeness) : Bool := 3 * l.total ≤ 10 * l.matched

def le (l m : Likeness) : Bool := l.matched * m.total ≤ m.matched * l.total

end Likeness

/-- Puts the likelier word first, and of equally likely ones the later in the alphabet. -/
def isLikelier (word s t : String) : Bool :=
  let l := likeness s word
  let m := likeness t word
  if l.le m && m.le l then !(s < t) else m.le l

/-- Up to three words that are close to the given one, in alphabetical order. -/
def closeWords (word : String) (words : List String) : List String :=
  let close := words.filter fun w => (likeness w word).isClose
  ((close.mergeSort (isLikelier word)).take 3).mergeSort fun s t => !(t < s)

end RoverFleet.Text
