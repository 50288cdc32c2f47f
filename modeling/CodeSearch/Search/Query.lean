import CodeSearch.Pattern
import CodeSearch.Text.Case
import CodeSearch.Text.Pieces

/-! # Queries

Queries that differ in their blanks only are one query. A query's keywords are its longer words
without those that carry no meaning. A query may ask for code to be written.
-/

namespace CodeSearch.Query

/-- Single spaces between the words and none at the ends. -/
def normalizeChars (query : List Char) : List Char := Text.trim (Text.collapseBlanks query)

/-- Words that say nothing about code. -/
def stopWords : List String := [
  "как", "что", "где", "когда", "почему", "какой", "какая", "какое",
  "the", "a", "an", "is", "are", "was", "were", "be", "been", "being",
  "have", "has", "had", "do", "does", "did", "will", "would", "should",
  "can", "could", "may", "might", "must", "shall", "this", "that", "these", "those",
  "and", "for", "with", "from", "into", "how", "what", "where", "when", "why", "which"]

/-- The words of a query in lower case; what is neither a word character nor a blank separates. -/
def words (query : List Char) : List (List Char) :=
  Text.words ((Text.lower query).map fun c => if Text.isWord c || Text.isBlank c then c else ' ')

/-- A keyword has at least three characters. -/
def isKeyword (word : List Char) : Bool :=
  decide (2 < word.length) && !stopWords.contains (String.ofList word)

/-- The keywords of a query, repeated ones included. -/
def keywords (query : List Char) : List (List Char) := (words query).filter isKeyword

/-- Words that ask for something to be made. -/
def makingWords : List String := [
  "создай", "напиши", "реализуй", "сделай", "create", "write", "implement", "make", "build"]

/-- Letters are compared without case; the capital with a dot and the small letter without one both
count as the letter i. -/
def sameLetter (letter c : Char) : Bool :=
  Text.foldChar c == [letter] || (letter == 'i' && (c == 'İ' || c == 'ı'))

/-- A word without regard to case. -/
def anyCase (word : String) : Pattern :=
  .all (word.toList.map fun letter => .one (sameLetter letter))

def makingWord : Pattern := .all [.wordEdge, .any (makingWords.map anyCase), .wordEdge]

end CodeSearch.Query

namespace CodeSearch

/-- The form that all queries with the same words and signs share. -/
def normalizeQuery (query : String) : String :=
  String.ofList (Query.normalizeChars query.toList)

def extractKeywords (query : String) : List String :=
  (Query.keywords query.toList).map String.ofList

/-- Whether a query asks for new code rather than for an explanation. -/
def asksForCode (query : String) : Bool := Query.makingWord.occurs query.toList

end CodeSearch
