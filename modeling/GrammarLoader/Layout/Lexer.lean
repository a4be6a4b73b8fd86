/-!
A lexer reads a text character by character and keeps the byte offsets of the token it is reading.
It holds the text from its position on; what lies behind it survives as offsets only.
-/

namespace GrammarLoader.Layout

structure Lexer where
  rest : List Char
  position : Nat
  tokenStart : Nat
  markedEnd : Option Nat
  deriving DecidableEq, Repr

namespace Lexer

/-- A lexer at byte offset `position`, where `rest` begins, with no token read yet. -/
def startAt (rest : List Char) (position : Nat) : Lexer := ⟨rest, position, position, none⟩

/--
Walks over `rest`, which begins at byte `position`, up to byte `offset`. An offset beyond the end is
the end; one inside a character is the start of that character.
-/
def seek (offset position : Nat) : List Char → Lexer
  | [] => startAt [] position
  | c :: rest =>
    if position + c.utf8Size ≤ offset then seek offset (position + c.utf8Size) rest
    else startAt (c :: rest) position

def ofText (text : String) (offset : Nat) : Lexer := seek offset 0 text.toList

def lookahead (l : Lexer) : Option Char := l.rest.head?

def atEnd (l : Lexer) : Bool := l.rest.isEmpty

def advance (l : Lexer) : Lexer :=
  match l.rest with
  | [] => l
  | c :: rest => { l with rest, position := l.position + c.utf8Size }

/-- Steps over the character at the position; the token starts behind it at the earliest. -/
def skip (l : Lexer) : Lexer :=
  let l := l.advance
  { l with tokenStart := l.position }

def mark (l : Lexer) : Lexer := { l with markedEnd := some l.position }

def tokenEnd (l : Lexer) : Nat := l.markedEnd.getD l.position

/-- The bytes of the token, from the first one to the one behind the last. -/
def tokenRange (l : Lexer) : Nat × Nat := (min l.tokenStart l.tokenEnd, l.tokenEnd)

@[simp] theorem tokenRange_startAt (rest : List Char) (position : Nat) :
    (startAt rest position).tokenRange = (position, position) := by
  simp [tokenRange, tokenEnd, startAt]

end Lexer
end GrammarLoader.Layout
