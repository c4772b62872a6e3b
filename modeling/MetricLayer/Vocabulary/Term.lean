import MetricLayer.Vocabulary.Singular

/-!
# Terms

A term is the form in which phrases are compared: lower case, camel case split into words, blanks
for everything that is neither letter nor number, single spaces, and the last word in the singular.
-/

namespace MetricLayer.Term

/-- A new word begins at `c` inside camel case: an upper-case letter after a lower-case letter or a
digit, or one that ends a run of upper-case letters. -/
def startsWord (before c : Char) (next : Option Char) : Bool :=
  Text.isUppercase c && (Text.isLowercase before || before.isDigit ||
    (Text.isUppercase before && next.any Text.isLowercase))

/-- The characters with a space in front of every word that begins inside camel case. -/
def splitCamelFrom (before : Option Char) : List Char → List Char
  | [] => []
  | c :: cs =>
    if before.any (startsWord · c cs.head?) then ' ' :: c :: splitCamelFrom (some c) cs
    else c :: splitCamelFrom (some c) cs

/-- The words of a phrase, in lower case. -/
def wordsOf (phrase : String) : List String :=
  let lowered := Text.lowerFrom [] (splitCamelFrom none phrase.toList)
  (Text.fieldsFrom (!Text.isAlphanumeric ·) [] lowered).map String.ofList

/-- The words with the last one in the singular. -/
def singularLast : List String → List String
  | [] => []
  | [w] => [Singular.ofWord w]
  | w :: ws => w :: singularLast ws

/-- The term of a phrase. -/
def ofPhrase (phrase : String) : String := String.intercalate " " (singularLast (wordsOf phrase))

/-- The list occurs in the other as a contiguous part. -/
def occursIn (needle : List Char) : List Char → Bool
  | [] => needle.isEmpty
  | c :: cs => needle.isPrefixOf (c :: cs) || occursIn needle cs

/-- The text contains the phrase as whole words. -/
def hasPhrase (text phrase : String) : Bool :=
  !phrase.isEmpty && occursIn (' ' :: phrase.toList ++ [' ']) (' ' :: text.toList ++ [' '])

end MetricLayer.Term
