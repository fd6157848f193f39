/-!
# Blanks, lines and words

The blank characters, trimming at both ends, division at line feeds, and the words of a line:
its maximal runs of characters that are not blank.
-/
namespace RoverFleet.Text

/-- Whether a code point lies in one of the ranges, ends included. -/
def inRanges (ranges : List (Nat × Nat)) (code : Nat) : Bool :=
  ranges.any fun r => r.1 ≤ code && code ≤ r.2

/-- The white space of Unicode and the four information separators. -/
def blanks : List (Nat × Nat) :=
  [(0x09, 0x0d), (0x1c, 0x20), (0x85, 0x85), (0xa0, 0xa0), (0x1680, 0x1680), (0x2000, 0x200a),
    (0x2028, 0x2029), (0x202f, 0x202f), (0x205f, 0x205f), (0x3000, 0x3000)]

def isBlank (c : Char) : Bool := inRanges blanks c.toNat

def trimEnd (p : Char → Bool) (s : List Char) : List Char := (s.reverse.dropWhile p).reverse

def trim (p : Char → Bool) (s : List Char) : List Char := trimEnd p (s.dropWhile p)

def lines (s : List Char) : List (List Char) := s.splitOn '\n'

def consWord (word : List Char) (words : List (List Char)) : List (List Char) :=
  if word.isEmpty then words else word :: words

/-- The word that the text starts with, which may be empty, and the words after it. -/
def wordSplit : List Char → List Char × List (List Char)
  | [] => ([], [])
  | c :: s =>
    let (word, words) := wordSplit s
    if isBlank c then ([], consWord word words) else (c :: word, words)

def words (s : List Char) : List (List Char) :=
  let (word, words) := wordSplit s
  consWord word words

end RoverFleet.Text
