/-!
# Similarity of texts

The edit distance of two texts counts the characters that have to be put in, taken out or replaced.
The similarity is 1 for equal texts and falls with the distance.
-/

namespace MetricLayer.Similarity

/-- The next row of the table of distances. `c` is the character of the row, `left` the distance
just computed and `diagonal` the one up and to the left; the list pairs the characters of the other
text with the row above. -/
def rowFrom (c : Char) (left diagonal : Nat) : List (Char × Nat) → List Nat
  | [] => []
  | (d, above) :: rest =>
    let here := min (min (left + 1) (above + 1)) (diagonal + if c = d then 0 else 1)
    here :: rowFrom c here above rest

/-- The row of distances after the characters, `first` being the entry in front of it. -/
def rows (t : List Char) : List Char → Nat → List Nat → List Nat
  | [], _, row => row
  | c :: cs, first, row => rows t cs (first + 1) (rowFrom c (first + 1) first (t.zip row))

/-- The edit distance. -/
def distance (s t : List Char) : Nat :=
  ((rows t s 0 ((List.range t.length).map (· + 1))).getLast?).getD s.length

/-- The similarity: 1 less the distance in relation to the longer text. -/
def similarity (s t : String) : Float :=
  let longer := max s.toList.length t.toList.length
  if longer = 0 then 1
  else 1 - Float.ofNat (distance s.toList t.toList) / Float.ofNat longer

end MetricLayer.Similarity
