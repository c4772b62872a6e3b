import MetricLayer.Pattern.Basic
import MetricLayer.Text.Casing

/-!
# Singular forms

The singular form of a word, found by fixed words first and by its ending otherwise. The result need
not be good English: both sides of every comparison go through the same rules, so they only have to
be consistent.
-/

namespace MetricLayer.Singular

open Pattern (all anyOf exactly oneOf noneOf group stop start)

/-- An ending rule: the singular is the text of group 1, the text of group 2 if `keepSecond`, and
`ending`; everything else of the word is dropped. -/
structure Rule where
  pattern : Pattern
  /-- What words end in that the pattern can match, so that other words need no search. Without
  tails every word is searched. -/
  tails : List String := []
  keepSecond : Bool := false
  ending : String := ""

/-- Word characters, as many as possible. -/
def letters : Pattern := .many true (.char Text.isWordChar)

/-- A rule for words in which `stem` is followed by `tail` at the end. -/
def suffixRule (stem : Pattern) (tail ending : String) : Rule :=
  { pattern := all [group 1 stem, exactly tail, stop], tails := [tail], ending }

/-- The rules for endings, in the order in which they are tried. -/
def rules : List Rule :=
  [suffixRule (exactly "database") "s" "",
    suffixRule (exactly "quiz") "zes" "",
    suffixRule (exactly "matr") "ices" "ix",
    suffixRule (anyOf [exactly "vert", exactly "ind"]) "ices" "ex",
    { pattern := all [start, group 1 (exactly "ox"), exactly "en"] },
    { pattern := all [group 1 (anyOf [exactly "alias", exactly "status"]),
        .optional (group 2 (exactly "es")), stop] },
    { pattern := all [group 1 (anyOf [exactly "octop", exactly "vir"]),
        group 2 (anyOf [exactly "us", exactly "i"]), stop], ending := "us" },
    { pattern := all [start, group 1 (exactly "a"), exactly "x", oneOf "ie", exactly "s", stop]
      ending := "xis" },
    { pattern := all [group 1 (anyOf [exactly "cris", exactly "test"]),
        group 2 (anyOf [exactly "is", exactly "es"]), stop], ending := "is" },
    suffixRule (exactly "shoe") "s" "",
    { pattern := all [group 1 (exactly "bus"), .optional (group 2 (exactly "es")), stop] },
    suffixRule (anyOf [exactly "m", exactly "l"]) "ice" "ouse",
    { pattern := all [group 1 letters,
        group 2 (anyOf [exactly "x", exactly "ch", exactly "ss", exactly "sh"]), exactly "es", stop]
      tails := ["xes", "ches", "sses", "shes"], keepSecond := true },
    suffixRule (exactly "m") "ovies" "ovie",
    suffixRule (exactly "s") "eries" "eries",
    suffixRule (.seq letters (group 2 (anyOf [noneOf "aeiouy", exactly "qu"]))) "ies" "y",
    { pattern := all [group 1 letters, group 2 (oneOf "lr"), exactly "ves", stop]
      tails := ["lves", "rves"], ending := "f" },
    { pattern := all [group 1 letters, group 2 (exactly "tive"), exactly "s", stop]
      tails := ["tives"] },
    { pattern := all [group 1 letters, group 2 (exactly "hive"), exactly "s", stop]
      tails := ["hives"] },
    { pattern := all [group 1 letters, group 2 (noneOf "f"), exactly "ves", stop]
      tails := ["ves"], ending := "fe" },
    { pattern := all [group 1 (.seq start (exactly "analy")),
        group 2 (anyOf [exactly "sis", exactly "ses"]), stop], ending := "sis" },
    { pattern := all [group 1 (anyOf (["analy", "ba", "diagno", "parenthe", "progno", "synop",
        "the"].map exactly)), anyOf [exactly "sis", exactly "ses"], stop], ending := "sis" },
    { pattern := all [group 1 letters, group 2 (oneOf "ti"), exactly "a", stop]
      tails := ["ta", "ia"], ending := "um" },
    { pattern := all [group 1 letters, group 2 (exactly "o"), exactly "es", stop]
      tails := ["oes"] },
    suffixRule (exactly "n") "ews" "ews",
    { pattern := all [group 1 letters, group 2 (exactly "ss"), stop], tails := ["ss"]
      keepSecond := true },
    suffixRule letters "s" ""]

/-- Plurals with a singular of their own. -/
def exceptions : List (String × String) :=
  [("oxen", "ox"), ("boxes", "box"), ("men", "man"), ("women", "woman"), ("dice", "die"),
    ("yeses", "yes"), ("feet", "foot"), ("eaves", "eave"), ("geese", "goose"), ("teeth", "tooth"),
    ("quizzes", "quiz")]

/-- Words without a plural. -/
def uncountable : List String :=
  ["accommodation", "adulthood", "advertising", "advice", "aggression", "aid", "air", "aircraft",
    "alcohol", "anger", "applause", "arithmetic", "assistance", "athletics", "bacon", "baggage",
    "beef", "biology", "blood", "botany", "bread", "butter", "carbon", "cardboard", "cash",
    "chalk", "chaos", "chess", "crossroads", "countryside", "dancing", "deer", "dignity", "dirt",
    "dust", "economics", "education", "electricity", "engineering", "enjoyment", "envy",
    "equipment", "ethics", "evidence", "evolution", "fame", "fiction", "flour", "flu", "food",
    "fuel", "fun", "furniture", "gallows", "garbage", "garlic", "genetics", "gold", "golf",
    "gossip", "grammar", "gratitude", "grief", "guilt", "gymnastics", "happiness", "hardware",
    "harm", "hate", "hatred", "health", "heat", "help", "homework", "honesty", "honey",
    "hospitality", "housework", "humour", "hunger", "hydrogen", "ice", "importance", "inflation",
    "information", "innocence", "iron", "irony", "jam", "jewelry", "judo", "karate", "knowledge",
    "lack", "laughter", "lava", "leather", "leisure", "lightning", "linguine", "linguini",
    "linguistics", "literature", "litter", "livestock", "logic", "loneliness", "luck", "luggage",
    "macaroni", "machinery", "magic", "management", "mankind", "marble", "mathematics",
    "mayonnaise", "measles", "methane", "milk", "money", "mud", "music", "mumps", "nature",
    "news", "nitrogen", "nonsense", "nurture", "nutrition", "obedience", "obesity", "oxygen",
    "pasta", "patience", "physics", "poetry", "pollution", "poverty", "pride", "psychology",
    "publicity", "punctuation", "quartz", "racism", "relaxation", "reliability", "research",
    "respect", "revenge", "rice", "rubbish", "rum", "safety", "scenery", "seafood", "seaside",
    "series", "shame", "sheep", "shopping", "sleep", "smoke", "smoking", "snow", "soap",
    "software", "soil", "spaghetti", "species", "steam", "stuff", "stupidity", "sunshine",
    "symmetry", "tennis", "thirst", "thunder", "timber", "traffic", "transportation", "trust",
    "underwear", "unemployment", "unity", "validity", "veal", "vegetation", "vegetarianism",
    "vengeance", "violence", "vitality", "warmth", "wealth", "weather", "welfare", "wheat",
    "wildlife", "wisdom", "yoga", "zinc", "zoology"]

/-- Plurals of the vocabulary of reports, with their singular. -/
def reportPlurals : List (String × String) :=
  [("people", "person"), ("children", "child"), ("analyses", "analysis"), ("criteria", "criterion"),
    ("media", "medium"), ("indices", "index"), ("currencies", "currency")]

/-- The word has one of the tails of the rule, if the rule has tails. -/
def Rule.hasTail (r : Rule) (word : List Char) : Bool :=
  r.tails.isEmpty || r.tails.any fun tail => tail.toList.isSuffixOf word

/-- What a rule makes of a word, if it applies. -/
def Rule.singular? (r : Rule) (word : List Char) : Option String :=
  if r.hasTail word then
    (r.pattern.find word).bind fun m => (m.group? 1).map fun _ =>
      m.groupText 1 word ++ (if r.keepSecond then m.groupText 2 word else "") ++ r.ending
  else none

/-- The singular by exceptions and endings; a word that none of them covers stays as it is. -/
def byEnding (word : String) : String :=
  if uncountable.contains word then word
  else match exceptions.lookup word with
    | some singular => singular
    | none => (rules.findSome? (·.singular? word.toList)).getD word

/-- The singular of a word in lower case. Words of at most three bytes and words in `ss`, `us` and
`is` have no other form. -/
def ofLower (word : String) : String :=
  match reportPlurals.find? fun (plural, singular) => word = plural || word = singular with
  | some (_, singular) => singular
  | none =>
    if word.utf8ByteSize ≤ 3 || word.endsWith "ss" || word.endsWith "us" || word.endsWith "is" then
      word
    else byEnding word

/-- The singular of a word, in lower case. -/
def ofWord (word : String) : String := ofLower (Text.lower word)

end MetricLayer.Singular
