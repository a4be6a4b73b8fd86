import GrammarLoader.Layout.Token
import GrammarLoader.Layout.Margin

/-!
The layout scanner turns the margin of a line into tokens. It keeps the widths of the open blocks. A
line that is wider opens a block, a narrower one closes every wider block: one `dedent` at once, the
others and a final `newline` in the calls that follow.
-/

namespace GrammarLoader.Layout

structure Scanner where
  /--
  The widths of the open blocks, the innermost first. Below them lies the text itself, of width 0.
  -/
  levels : List UInt16
  /--
  How many tokens are still due for closed blocks. The last of them is a newline, the others
  dedents.
  -/
  pending : UInt16
  /-- A flag that snapshots carry; no scan sets it. -/
  finalNewline : Bool
  deriving DecidableEq, Repr

structure Scan where
  token : Option Token
  scanner : Scanner
  lexer : Lexer
  deriving DecidableEq, Repr

namespace Scanner

def initial : Scanner := ⟨[], 0, false⟩

def indent (s : Scanner) : UInt16 := s.levels.headD 0

def depth (s : Scanner) : Nat := s.levels.length

def widths (s : Scanner) : List UInt16 := 0 :: s.levels.reverse

def maxPending : Nat := 65535

def openBlock (s : Scanner) (width : UInt16) : Scanner := { s with levels := width :: s.levels }

/-- Closes every block wider than `width`; as many tokens are then pending. -/
def closeBlocks (s : Scanner) (width : UInt16) : Scanner :=
  let kept := s.levels.dropWhile (width < ·)
  let closed := s.levels.length - kept.length
  { s with levels := kept, pending := UInt16.ofNat (min maxPending closed) }

/-- The next token of a closing of several blocks, if one is pending and acceptable. -/
def drain? (s : Scanner) (valid : TokenSet) : Option (Token × Scanner) :=
  if s.pending = 1 ∧ .newline ∈ valid then some (.newline, { s with pending := 0 })
  else if 1 < s.pending ∧ .dedent ∈ valid then some (.dedent, { s with pending := s.pending - 1 })
  else none

/-- The token for a character on a new line of width `width`. -/
def startLine (s : Scanner) (width : UInt16) (valid : TokenSet) : Option Token × Scanner :=
  if .indent ∈ valid ∧ s.indent < width then (some .indent, s.openBlock width)
  else if .dedent ∈ valid ∧ width < s.indent then (some .dedent, s.closeBlocks width)
  else if .newline ∈ valid then (some .newline, s)
  else (none, s)

/-- The token at the end of a text: one dedent for the innermost block. -/
def finish (s : Scanner) (valid : TokenSet) : Option Token × Scanner :=
  match s.levels with
  | _ :: levels => if .dedent ∈ valid then (some .dedent, { s with levels }) else (none, s)
  | [] => (none, s)

def place (s : Scanner) (margin : Margin) (atEnd : Bool) (valid : TokenSet) :
    Option Token × Scanner :=
  if margin.newLine then s.startLine margin.width valid
  else if atEnd then s.finish valid
  else (none, s)

/--
Reads the layout token at the position of `l`, of those in `valid`. Pending tokens come first and
read nothing; if the pending one is not acceptable, all of them are dropped.
-/
def scan (s : Scanner) (l : Lexer) (valid : TokenSet) : Scan :=
  match s.drain? valid with
  | some (token, s) => ⟨some token, s, l⟩
  | none =>
    let s := { s with pending := 0 }
    match l.skipBlanks with
    | (l, none) => ⟨none, s, l⟩
    | (l, some margin) =>
      let (token, s) := s.place margin l.atEnd valid
      ⟨token, s, l.mark⟩

end Scanner
end GrammarLoader.Layout
