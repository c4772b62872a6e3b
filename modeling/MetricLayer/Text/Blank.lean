import MetricLayer.Text.Run

/-!
# White space

The characters with the Unicode property `White_Space`, and the operations that cut text at them.
-/

namespace MetricLayer.Text

/-- The runs of the property `White_Space`. -/
def blankRuns : List Run :=
  [⟨9, 13, 1⟩, ⟨32, 32, 1⟩, ⟨133, 133, 1⟩, ⟨160, 160, 1⟩, ⟨5760, 5760, 1⟩, ⟨8192, 8202, 1⟩,
  ⟨8232, 8233, 1⟩, ⟨8239, 8239, 1⟩, ⟨8287, 8287, 1⟩, ⟨12288, 12288, 1⟩]

/-- The character is white space. -/
def isBlank (c : Char) : Bool := Run.anyHas c blankRuns

/-- Every character that is white space in the ASCII sense is blank. -/
theorem isBlank_of_isWhitespace {c : Char} (h : c.isWhitespace = true) : isBlank c = true := by
  simp only [Char.isWhitespace, Bool.or_eq_true, decide_eq_true_eq] at h
  rcases h with ((rfl | rfl) | rfl) | rfl <;> decide

/-- The characters without the blanks at their start. -/
def trimStartChars (s : List Char) : List Char := s.dropWhile isBlank

/-- The characters without the blanks at their end. -/
def trimEndChars (s : List Char) : List Char := (s.reverse.dropWhile isBlank).reverse

/-- The characters without the blanks at both ends. -/
def trimChars (s : List Char) : List Char := trimEndChars (trimStartChars s)

/-- The text without the blanks at both ends. -/
def trim (s : String) : String := String.ofList (trimChars s.toList)

/-- The text has no character that is not blank. -/
def isBlankText (s : String) : Bool := s.toList.all isBlank

/-- The maximal runs of characters outside the class `cut`, in order; `word` holds, reversed, the
run that is being read. -/
def fieldsFrom (cut : Char → Bool) (word : List Char) : List Char → List (List Char)
  | [] => if word.isEmpty then [] else [word.reverse]
  | c :: cs =>
    if cut c then
      if word.isEmpty then fieldsFrom cut [] cs else word.reverse :: fieldsFrom cut [] cs
    else fieldsFrom cut (c :: word) cs

/-- The words of the text: its maximal runs of characters that are not blank. -/
def words (s : String) : List String := (fieldsFrom isBlank [] s.toList).map String.ofList

/-- The words of the text, one space between each two. -/
def collapse (s : String) : String := String.intercalate " " (words s)

/-- The text without the characters of the class at both ends. -/
def trimWhile (p : Char → Bool) (s : String) : String :=
  String.ofList ((s.toList.dropWhile p).reverse.dropWhile p).reverse

end MetricLayer.Text
