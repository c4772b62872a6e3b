/-!
# Ids of requests

An id is 16 random bytes in hexadecimal digits, with hyphens between five groups. Its version, 4,
and its variant stand at fixed places.
-/

namespace MetricLayer.RequestId

/-- The number of bytes of an id. -/
def byteCount : Nat := 16

/-- A byte as two hexadecimal digits. -/
def byteDigits (b : Nat) : List Char := [Nat.digitChar (b / 16), Nat.digitChar (b % 16)]

/-- The byte at a place of an id. -/
def mark (place b : Nat) : Nat :=
  if place = 6 then 64 + b % 16 else if place = 8 then 128 + b % 64 else b

/-- The text of the id with the bytes. -/
def ofBytes (bytes : List Nat) : String :=
  String.ofList (bytes.zipIdx.flatMap fun (b, place) =>
    (if place ∈ [4, 6, 8, 10] then ['-'] else []) ++ byteDigits (mark place b))

end MetricLayer.RequestId
