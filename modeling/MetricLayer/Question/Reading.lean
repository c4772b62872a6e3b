import MetricLayer.Pattern.Basic
import MetricLayer.Request.Basic

/-!
# Reading a question

A question is read phrase by phrase. What has been read is blanked out, so that no later phrase is
found in it; a blanked character leaves as many spaces as it takes bytes.
-/

namespace MetricLayer

namespace Span

/-- The span covers the place. -/
def covers (s : Span) (i : Nat) : Bool := s.start ≤ i && i < s.stop

/-- The span further on by a distance. -/
def shift (s : Span) (n : Nat) : Span := ⟨s.start + n, s.stop + n⟩

end Span

/-- The characters with those in the spans, whose places are counted from `i`, blanked out. -/
def blankOutFrom (spans : List Span) (i : Nat) : List Char → List Char
  | [] => []
  | c :: cs =>
    (if spans.any (·.covers i) then List.replicate c.utf8Size ' ' else [c]) ++
      blankOutFrom spans (i + 1) cs

/-- The characters with those in the spans blanked out. -/
def blankOut (spans : List Span) (cs : List Char) : List Char := blankOutFrom spans 0 cs

/-- What is left to read, and the request read so far. -/
structure Reading where
  rest : List Char
  request : Request

namespace Reading

/-- The start of reading a question. -/
def ofText (s : String) : Reading := ⟨s.toList, Request.ofText s⟩

/-- The reading with the spans blanked out. -/
def blank (r : Reading) (spans : List Span) : Reading := { r with rest := blankOut spans r.rest }

/-- The characters that are not blank. -/
def size (r : Reading) : Nat := r.rest.countP (!Text.isBlank ·)

end Reading

end MetricLayer
