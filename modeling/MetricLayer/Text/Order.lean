/-!
# Ordered lists of texts

Texts are ordered by their characters' code points. A list in that order that has every text once
stands for a set of texts.
-/

namespace MetricLayer.Text

/-- Inserts a text into an ordered list, unless it is there. -/
def insertSorted (s : String) : List String → List String
  | [] => [s]
  | t :: ts => if s = t then t :: ts else if s < t then s :: t :: ts else t :: insertSorted s ts

/-- The texts in their order, each once. -/
def sortedSet (ss : List String) : List String := ss.foldl (fun acc s => insertSorted s acc) []

/-- The one list of texts does not stand behind the other, by the first text that differs. -/
def listLe : List String → List String → Bool
  | [], _ => true
  | _ :: _, [] => false
  | s :: ss, t :: ts => s < t || (s == t && listLe ss ts)

theorem mem_insertSorted {s x : String} {ts : List String} :
    x ∈ insertSorted s ts ↔ x = s ∨ x ∈ ts := by
  induction ts with
  | nil => simp [insertSorted]
  | cons t ts ih =>
    simp only [insertSorted]
    split
    · rename_i h; subst h; simp
    · split
      · simp
      · simp only [List.mem_cons, ih]; grind

end MetricLayer.Text
