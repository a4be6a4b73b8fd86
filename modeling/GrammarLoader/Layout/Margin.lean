import GrammarLoader.Layout.Lexer

/-!
The margin of a line: the blanks before its first character, and what they say about the layout.

Blanks are line feeds, spaces, tabs, carriage returns, form feeds and line continuations. A
continuation is a backslash, an optional carriage return, and a line feed or the end of the text; it
neither ends the line nor changes the width.
-/

namespace GrammarLoader.Layout

structure Margin where
  newLine : Bool
  /-- The columns since the last line feed, carriage return or form feed. -/
  width : UInt16
  deriving DecidableEq, Repr

namespace Margin

/-- The widest margin that is told apart from wider ones. -/
def maxWidth : Nat := 65535

def tabWidth : Nat := 4

def start : Margin := ⟨false, 0⟩

def lineFeed (_ : Margin) : Margin := ⟨true, 0⟩

def rewind (m : Margin) : Margin := { m with width := 0 }

/-- The margin behind `columns` more columns; the width stops at `maxWidth`. -/
def widen (m : Margin) (columns : Nat) : Margin :=
  { m with width := UInt16.ofNat (min maxWidth (m.width.toNat + columns)) }

theorem toNat_width_widen (m : Margin) (columns : Nat) :
    (m.widen columns).width.toNat = min maxWidth (m.width.toNat + columns) := by
  have h : min maxWidth (m.width.toNat + columns) < 65536 :=
    Nat.lt_of_le_of_lt (Nat.min_le_left _ _) (by decide)
  simpa [widen] using Nat.mod_eq_of_lt h

end Margin

structure BlankRun where
  /-- The margin behind the blanks; none behind a backslash that continues no line. -/
  margin : Option Margin
  position : Nat
  rest : List Char
  deriving DecidableEq, Repr

/--
Reads all blanks at the front of a text that begins at byte `position`, where `m` is the margin so
far. A backslash that continues no line ends the reading behind it, or behind the carriage return
that follows it.
-/
def readBlanks (m : Margin) (position : Nat) : List Char → BlankRun
  | '\n' :: rest => readBlanks m.lineFeed (position + 1) rest
  | ' ' :: rest => readBlanks (m.widen 1) (position + 1) rest
  | '\t' :: rest => readBlanks (m.widen Margin.tabWidth) (position + 1) rest
  | '\r' :: rest => readBlanks m.rewind (position + 1) rest
  | '\x0c' :: rest => readBlanks m.rewind (position + 1) rest
  | '\\' :: '\n' :: rest => readBlanks m (position + 2) rest
  | '\\' :: '\r' :: '\n' :: rest => readBlanks m (position + 3) rest
  | ['\\'] => ⟨some m, position + 1, []⟩
  | ['\\', '\r'] => ⟨some m, position + 2, []⟩
  | '\\' :: '\r' :: rest => ⟨none, position + 2, rest⟩
  | '\\' :: rest => ⟨none, position + 1, rest⟩
  | rest => ⟨some m, position, rest⟩

theorem rest_readBlanks_suffix (m : Margin) (position : Nat) (text : List Char) :
    (readBlanks m position text).rest <:+ text := by
  fun_induction readBlanks m position text <;> grind [List.suffix_cons_iff, List.suffix_refl]

theorem length_rest_readBlanks_lt {m m' : Margin} {position : Nat} {text : List Char}
    (hm : m.newLine = false) (h : (readBlanks m position text).margin = some m')
    (hm' : m'.newLine = true) : (readBlanks m position text).rest.length < text.length := by
  have le (m : Margin) (position : Nat) (rest : List Char) :
      (readBlanks m position rest).rest.length ≤ rest.length :=
    (rest_readBlanks_suffix m position rest).length_le
  fun_cases readBlanks m position text <;> grind [readBlanks]

/-- Skips all blanks at the position. The margin is none if a backslash there continues no line. -/
def Lexer.skipBlanks (l : Lexer) : Lexer × Option Margin :=
  let run := readBlanks .start l.position l.rest
  let tokenStart := if run.position = l.position then l.tokenStart else run.position
  ({ l with rest := run.rest, position := run.position, tokenStart }, run.margin)

theorem length_rest_skipBlanks_le (l : Lexer) : l.skipBlanks.1.rest.length ≤ l.rest.length :=
  (rest_readBlanks_suffix _ _ _).length_le

theorem length_rest_skipBlanks_lt {l : Lexer} {m : Margin} (h : l.skipBlanks.2 = some m)
    (hm : m.newLine = true) : l.skipBlanks.1.rest.length < l.rest.length :=
  length_rest_readBlanks_lt rfl h hm

end GrammarLoader.Layout
