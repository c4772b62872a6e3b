import MetricLayer.Pattern.Basic

/-!
# Phrases of questions

The patterns by which a question is read. Letter case never matters.
-/

namespace MetricLayer.Phrase

open Pattern

/-- A Latin letter in either case. -/
def letter : Pattern := char fun c => 'a' ≤ Text.fold c && Text.fold c ≤ 'z'

/-- A Latin letter in either case, or a space. -/
def letterOrSpace : Pattern := char fun c => ('a' ≤ Text.fold c && Text.fold c ≤ 'z') || c = ' '

/-- A word character or a space. -/
def wordOrSpace : Pattern := char fun c => Text.isWordChar c || c = ' '

/-- A decimal digit of any script. -/
def digit : Pattern := char Text.isDecimalDigit

/-- As in "vs the same period last year"; group 1 is the unit. -/
def comparison : Pattern :=
  all [edge,
    anyOf [seq (word "vs") (optional (exactly ".")), word "versus",
      all [word "compared", gap, words ["to", "with"]], word "against"],
    gap, optional (seq (word "the") gap), optional (seq (phrase "same period") gap),
    words ["last", "previous", "prior"], gap, group 1 (words ["year", "month", "period"]), edge]

/-- As in "year over year"; group 1 is the phrase. -/
def shortComparison : Pattern :=
  all [edge, group 1 (phrases ["year over year", "yoy", "month over month", "mom"]), edge]

/-- As in "in the last 30 days"; group 1 is the period. -/
def period : Pattern :=
  all [edge, optional (seq (words ["in", "over", "during", "for"]) gap),
    optional (seq (word "the") gap),
    group 1 (anyOf [
      all [words ["last", "past", "previous"], gap, optional (seq (some1 digit) gap),
        words ["day", "week", "month", "quarter", "year"], optional (word "s")],
      all [words ["this", "current"], gap, words ["week", "month", "quarter", "year"]],
      all [words ["week", "month", "quarter", "year"], gap, phrase "to date"],
      words ["ytd", "qtd", "mtd", "wtd", "today", "yesterday"]]),
    edge]

/-- As in "top 10"; group 1 is the word and group 2 the number. -/
def limit : Pattern :=
  all [edge, group 1 (words ["top", "bottom", "limit"]), gap, group 2 (some1 digit), edge]

/-- One value: a quoted text or a bare word. -/
def value : Pattern :=
  anyOf [all [exactly "'", many true (noneOf "'"), exactly "'"],
    all [exactly "\"", many true (noneOf "\""), exactly "\""],
    some1 (char fun c => Text.isWordChar c || c = '.' || c = '-')]

/-- What stands between two values: a comma or "or", with or without blanks. -/
def valueSeparator : Pattern :=
  all [blanks, alt (exactly ",") (all [edge, word "or", edge]), blanks]

/-- As in "country is UK or DE"; group 1 is the field, group 2 the sign or group 3 the words of the
operator, and group 4 the values. -/
def condition : Pattern :=
  all [group 1 (seq letter (many false wordOrSpace)),
    alt
      (all [blanks, group 2 (anyOf (["!=", "<>", ">=", "<=", "=", ">", "<"].map exactly)), blanks])
      (all [gap, group 3 (phrases ["is not", "is one of", "is in", "not in", "one of", "is",
        "equals", "not equals", "greater than", "less than", "more than", "above", "below",
        "at least", "at most", "contains", "starts with", "ends with"]), gap]),
    group 4 (seq value (many true (seq valueSeparator value)))]

/-- A condition with the word that introduces it. -/
def firstCondition : Pattern := all [edge, words ["where", "with", "when"], gap, condition]

/-- A further condition right behind another one. -/
def chainedCondition : Pattern := all [start, blanks, word "and", gap, condition]

/-- As in "sorted by bets desc"; group 1 is the field and group 2 the direction. -/
def sort : Pattern :=
  all [edge, words ["sorted", "ordered", "order", "sort"], gap, word "by", gap,
    group 1 (seq letter (many false letterOrSpace)),
    optional (seq gap (group 2 (words ["asc", "ascending", "desc", "descending"]))), blanks,
    anyOf [stop, oneOf ",.;?",
      all [edge, words ["and", "for", "where", "with", "top", "limit"], edge]]]

/-- What introduces the names of dimensions. -/
def grouping : Pattern :=
  all [edge,
    phrases ["broken down by", "split by", "grouped by", "for each", "by", "per"], gap]

/-- As in "show me the total revenue"; group 1 is the phrase at the end. -/
def lead : Pattern :=
  all [start, blanks,
    anyOf [seq (word "show") (optional (seq gap (word "me"))),
      all [word "what", gap, words ["is", "was", "are", "were"]], phrase "give me", word "list",
      word "get", phrase "how much", phrase "how many"],
    gap, optional (seq (word "the") gap), optional (seq (word "total") gap),
    group 1 (all [letter, many true letterOrSpace, letter])]

/-- The word for an aggregation at the end of a text; group 1 is the word. -/
def aggregation : Pattern :=
  all [edge,
    group 1 (words ["total", "sum", "average", "avg", "mean", "count", "number of", "distinct",
      "unique", "minimum", "min", "maximum", "max"]),
    gap, optional (seq (word "of") gap), stop]

/-- The words of a metric, also in the plural. -/
def metric (ws : List String) : Pattern :=
  all [edge, all ((ws.map word).intersperse gap),
    optional (seq (optional (word "e")) (word "s")), edge]

end MetricLayer.Phrase
