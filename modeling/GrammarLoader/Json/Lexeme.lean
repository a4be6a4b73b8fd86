import GrammarLoader.Json.Failure

/-!
The smallest pieces of JSON: blanks, words, and the escapes and bodies of strings. Each function
takes its piece off the front of a text, and a lemma says that it leaves less.
-/

namespace GrammarLoader.Json

def isBlank (c : Char) : Bool := c = ' ' || c = '\n' || c = '\t' || c = '\r'

def skipBlanks (text : List Char) : List Char := text.dropWhile isBlank

theorem length_skipBlanks_le (text : List Char) : (skipBlanks text).length ≤ text.length :=
  (List.dropWhile_suffix _).length_le

def readWord : (word text : List Char) → Attempt (List Char)
  | [], text => .ok text
  | _ :: _, [] => .error (.before .endInValue [])
  | w :: word, c :: text =>
    if c = w then readWord word text else .error (.behind .expectedIdent (c :: text))

@[grind →] theorem length_readWord_le {word text rest : List Char}
    (h : readWord word text = .ok rest) : rest.length ≤ text.length := by
  fun_induction readWord word text <;> grind

def hexValue? (c : Char) : Option Nat :=
  if '0' ≤ c ∧ c ≤ '9' then some (c.toNat - '0'.toNat)
  else if 'a' ≤ c ∧ c ≤ 'f' then some (c.toNat - 'a'.toNat + 10)
  else if 'A' ≤ c ∧ c ≤ 'F' then some (c.toNat - 'A'.toNat + 10)
  else none

def hexValue4? (a b c d : Char) : Option Nat := do
  return ((← hexValue? a) * 16 + (← hexValue? b)) * 256 + (← hexValue? c) * 16 + (← hexValue? d)

def readHex4 (text : List Char) : Attempt (Nat × List Char) :=
  let fail :=
    if utf8Length (text.take 4) < 4 then Failure.before .endInString []
    else Failure.placed .invalidEscape text 4
  match text with
  | a :: b :: c :: d :: rest =>
    match hexValue4? a b c d with
    | some n => .ok (n, rest)
    | none => .error fail
  | _ => .error fail

@[grind →] theorem length_readHex4_lt {text rest : List Char} {n : Nat}
    (h : readHex4 text = .ok (n, rest)) : rest.length < text.length := by
  unfold readHex4 at h
  grind

def isHighSurrogate (n : Nat) : Bool := 0xD800 ≤ n && n ≤ 0xDBFF

def isLowSurrogate (n : Nat) : Bool := 0xDC00 ≤ n && n ≤ 0xDFFF

def surrogatePair (high low : Nat) : Char :=
  Char.ofNat (0x10000 + (high - 0xD800) * 0x400 + (low - 0xDC00))

def readPairing (c : Char) : List Char → Attempt (List Char)
  | [] => .error (.before .endInString [])
  | c' :: rest => if c' = c then .ok rest else .error (.behind .endOfHexEscape (c' :: rest))

/-- Reads what follows `\u`: a code unit, or two that are a surrogate pair. -/
def readUnicode (text : List Char) : Attempt (Char × List Char) := do
  let (n, rest) ← readHex4 text
  if isLowSurrogate n then .error (.before .loneSurrogate rest)
  else if isHighSurrogate n then
    let rest ← readPairing '\\' rest
    let rest ← readPairing 'u' rest
    let (low, rest) ← readHex4 rest
    if isLowSurrogate low then .ok (surrogatePair n low, rest)
    else .error (.before .loneSurrogate rest)
  else .ok (Char.ofNat n, rest)

def simpleEscape? : Char → Option Char
  | '"' => some '"'
  | '\\' => some '\\'
  | '/' => some '/'
  | 'b' => some '\x08'
  | 'f' => some '\x0c'
  | 'n' => some '\n'
  | 'r' => some '\r'
  | 't' => some '\t'
  | _ => none

def readEscape : List Char → Attempt (Char × List Char)
  | [] => .error (.before .endInString [])
  | c :: rest =>
    if c = 'u' then readUnicode rest
    else
      match simpleEscape? c with
      | some c => .ok (c, rest)
      | none => .error (.behind .invalidEscape (c :: rest))

@[grind →] theorem length_readPairing_lt {c : Char} {text rest : List Char}
    (h : readPairing c text = .ok rest) : rest.length < text.length := by
  cases text <;> grind [readPairing]

@[grind →] theorem length_readUnicode_lt {text rest : List Char} {c : Char}
    (h : readUnicode text = .ok (c, rest)) : rest.length < text.length := by
  unfold readUnicode at h
  grind

@[grind →] theorem length_readEscape_lt {text rest : List Char} {c : Char}
    (h : readEscape text = .ok (c, rest)) : rest.length < text.length := by
  cases text <;> grind [readEscape]

/--
Reads a string up to its closing quote; `found` are the characters before, the last one first.
-/
def readStringFrom (found : List Char) : List Char → Attempt (String × List Char)
  | [] => .error (.before .endInString [])
  | '"' :: rest => .ok (String.ofList found.reverse, rest)
  | '\\' :: rest =>
    match _ : readEscape rest with
    | .ok (c, rest') => readStringFrom (c :: found) rest'
    | .error f => .error f
  | c :: rest =>
    if c < ' ' then .error (.behind .controlCharacter (c :: rest))
    else readStringFrom (c :: found) rest
termination_by text => text.length
decreasing_by
  · rename_i h
    have := length_readEscape_lt h
    grind
  · grind

theorem length_readStringFrom_lt {found text rest : List Char} {s : String}
    (h : readStringFrom found text = .ok (s, rest)) : rest.length < text.length := by
  fun_induction readStringFrom found text <;> grind

def readString (text : List Char) : Attempt (String × List Char) := readStringFrom [] text

@[grind →] theorem length_readString_lt {text rest : List Char} {s : String}
    (h : readString text = .ok (s, rest)) : rest.length < text.length :=
  length_readStringFrom_lt h

def readColon (text : List Char) : Attempt (List Char) :=
  match skipBlanks text with
  | [] => .error (.before (.endIn .map) [])
  | ':' :: rest => .ok rest
  | rest => .error (.behind .expectedColon rest)

@[grind →] theorem length_readColon_lt {text rest : List Char} (h : readColon text = .ok rest) :
    rest.length < text.length := by
  have := length_skipBlanks_le text
  unfold readColon at h
  grind

end GrammarLoader.Json
