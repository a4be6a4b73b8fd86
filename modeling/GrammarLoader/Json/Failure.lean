import GrammarLoader.Json.Scalar

/-!
Why and where reading a text fails. A failure remembers the part of the text that was left. Most
failures are placed where they arise; an unplaced one gets its place from the container around it.
-/

namespace GrammarLoader.Json

inductive Bracket
  | list
  | map
  deriving DecidableEq, Repr

inductive Reason
  | endInValue
  | endInString
  | endIn (container : Bracket)
  | controlCharacter
  | invalidEscape
  | loneSurrogate
  /-- The first half of a surrogate pair is not followed by an escape. -/
  | endOfHexEscape
  | invalidNumber
  | numberOutOfRange
  | expectedIdent
  | expectedValue
  | expectedComma (container : Bracket)
  | expectedColon
  | expectedKey
  | trailingComma
  | trailingCharacters
  | recursionLimit
  | invalidType (found : Found) (expected : String)
  | unknownVariant (name : String) (variants : List String)
  | duplicateField (name : String)
  | missingField (name : String)
  | invalidLength (length : Nat) (expected : String)
  | noVariant (type : String)

def oneOf : List String → String
  | [a] => "`" ++ a ++ "`"
  | [a, b] => "`" ++ a ++ "` or `" ++ b ++ "`"
  | names => "one of " ++ ", ".intercalate (names.map fun name => "`" ++ name ++ "`")

def Reason.message : Reason → String
  | endInValue => "EOF while parsing a value"
  | endInString => "EOF while parsing a string"
  | endIn .list => "EOF while parsing a list"
  | endIn .map => "EOF while parsing an object"
  | controlCharacter => "control character (\\u0000-\\u001F) found while parsing a string"
  | invalidEscape => "invalid escape"
  | loneSurrogate => "lone leading surrogate in hex escape"
  | endOfHexEscape => "unexpected end of hex escape"
  | invalidNumber => "invalid number"
  | numberOutOfRange => "number out of range"
  | expectedIdent => "expected ident"
  | expectedValue => "expected value"
  | expectedComma .list => "expected `,` or `]`"
  | expectedComma .map => "expected `,` or `\x7d`"
  | expectedColon => "expected `:`"
  | expectedKey => "key must be a string"
  | trailingComma => "trailing comma"
  | trailingCharacters => "trailing characters"
  | recursionLimit => "recursion limit exceeded"
  | invalidType found expected => "invalid type: " ++ found.describe ++ ", expected " ++ expected
  | unknownVariant name variants => "unknown variant `" ++ name ++ "`, expected " ++ oneOf variants
  | duplicateField name => "duplicate field `" ++ name ++ "`"
  | missingField name => "missing field `" ++ name ++ "`"
  | invalidLength length expected =>
    "invalid length " ++ toString length ++ ", expected " ++ expected
  | noVariant type => "data did not match any variant of untagged enum " ++ type

inductive Failure
  /-- The place is `ahead` bytes into `rest`, the end of the text, or its end if it is shorter. -/
  | placed (reason : Reason) (rest : List Char) (ahead : Nat)
  /-- The place is still open; `rest` is the end of the text that was not read. -/
  | unplaced (reason : Reason) (rest : List Char)

namespace Failure

def before (reason : Reason) (rest : List Char) : Failure := placed reason rest 0

/-- A failure behind the first byte of `rest`, which is the one that is wrong. -/
def behind (reason : Reason) (rest : List Char) : Failure := placed reason rest 1

def reason : Failure → Reason
  | placed reason _ _ => reason
  | unplaced reason _ => reason

end Failure

def utf8Length (text : List Char) : Nat := text.foldl (fun n c => n + c.utf8Size) 0

structure Place where
  line : Nat
  column : Nat
  deriving DecidableEq, Repr

namespace Place

def walk (place : Place) (offset : Nat) : List Char → Place
  | [] => place
  | c :: rest =>
    if offset < c.utf8Size then ⟨place.line, place.column + offset⟩
    else if c = '\n' then walk ⟨place.line + 1, 0⟩ (offset - c.utf8Size) rest
    else walk ⟨place.line, place.column + c.utf8Size⟩ (offset - c.utf8Size) rest

def ofOffset (text : List Char) (offset : Nat) : Place := walk ⟨1, 0⟩ offset text

end Place

def Failure.place (text : List Char) : Failure → Place
  | placed _ rest ahead => .ofOffset text (utf8Length text - utf8Length rest + ahead)
  | unplaced _ rest => .ofOffset text (utf8Length text - utf8Length rest)

structure ReadError where
  reason : Reason
  place : Place

def Failure.toError (text : List Char) (f : Failure) : ReadError := ⟨f.reason, f.place text⟩

def ReadError.message (e : ReadError) : String :=
  e.reason.message ++ " at line " ++ toString e.place.line ++ " column " ++ toString e.place.column

abbrev Attempt := Except Failure

@[grind =] theorem Attempt.bind_eq_ok {x : Attempt α} {f : α → Attempt β} {b : β} :
    (x >>= f) = .ok b ↔ ∃ a, x = .ok a ∧ f a = .ok b := by
  cases x <;> simp [bind, Except.bind]

end GrammarLoader.Json
