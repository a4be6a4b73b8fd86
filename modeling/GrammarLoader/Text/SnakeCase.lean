import GrammarLoader.Text.Alphanumeric

/-!
Snake case: the words of a name in small letters, with underscores between them. Words end at
characters that are neither letters nor digits, before a capital behind a small letter, and before
the last of several capitals if a small letter follows.

Letters that have no small letter in ASCII are kept as they are and count as caseless. A name with
such a letter is in snake case never one of ASCII, whatever its words are.
-/

namespace GrammarLoader.Text

def kelvin : Char := '\u212a'

def isCapital (c : Char) : Bool := c.isUpper || c = kelvin

/-- The small letter of a capital; other characters stay as they are. -/
def toSmall (c : Char) : Char := if c = kelvin then 'k' else c.toLower

inductive Case
  | none
  | lower
  | upper
  deriving DecidableEq, Repr

def Case.next (before : Case) (c : Char) : Case :=
  if c.isLower then lower else if isCapital c then upper else before

def consWord (word : List Char) (words : List (List Char)) : List (List Char) :=
  if word.isEmpty then words else word.reverse :: words

/-- The words of a text; `word` is the one before it, the last character first. -/
def wordsFrom (before : Case) (word : List Char) : List Char → List (List Char)
  | [] => consWord word []
  | c :: rest =>
    if ¬ alphanumeric c then consWord word (wordsFrom .none [] rest)
    else
      let next := rest.headD ' '
      if before.next c = .lower ∧ isCapital next then
        consWord (c :: word) (wordsFrom .none [] rest)
      else if before = .upper ∧ isCapital c ∧ next.isLower then
        consWord word (wordsFrom .none [c] rest)
      else wordsFrom (before.next c) (c :: word) rest

def snakeCase (name : String) : String :=
  "_".intercalate <|
    (wordsFrom .none [] name.toList).map fun word => String.ofList (word.map toSmall)

end GrammarLoader.Text
