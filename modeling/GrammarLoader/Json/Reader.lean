import GrammarLoader.Json.Number

/-!
A reader takes a value off the front of a text. It takes at least one character, so that reading one
value after another comes to an end.
-/

namespace GrammarLoader.Json

structure Reader (α : Type) where
  run : List Char → Attempt (α × List Char)
  shorter : ∀ {text a rest}, run text = .ok (a, rest) → rest.length < text.length

def readScalar (text : List Char) : Attempt (Scalar × List Char) :=
  match text with
  | [] => .error (.before .endInValue [])
  | '"' :: rest => do
    let (s, rest) ← readString rest
    .ok (.string s, rest)
  | 'n' :: rest => do .ok (.null, ← readWord ['u', 'l', 'l'] rest)
  | 't' :: rest => do .ok (.bool true, ← readWord ['r', 'u', 'e'] rest)
  | 'f' :: rest => do .ok (.bool false, ← readWord ['a', 'l', 's', 'e'] rest)
  | c :: rest =>
    if c = '-' || c.isDigit then readNumber (c :: rest)
    else .error (.behind .expectedValue (c :: rest))

@[grind →] theorem length_readScalar_lt {text rest : List Char} {v : Scalar}
    (h : readScalar text = .ok (v, rest)) : rest.length < text.length := by
  unfold readScalar at h
  grind

/--
Why the value at the front of a text is not what was expected. A scalar is read to its end first,
and may fail on its own; a container is not entered.
-/
def unexpected (expected : String) (text : List Char) : Failure :=
  match text with
  | '[' :: _ => .before (.invalidType .list expected) text
  | '\x7b' :: _ => .before (.invalidType .map expected) text
  | _ =>
    match readScalar text with
    | .ok (v, rest) => .before (.invalidType (.scalar v) expected) rest
    | .error f => f

namespace Reader

def refuse (expected : String) : Reader α where
  run text := .error (unexpected expected (skipBlanks text))
  shorter := by simp

def scalar : Reader Scalar where
  run text := readScalar (skipBlanks text)
  shorter {text _ _} h := by
    have := length_skipBlanks_le text
    grind

def stringAs (expected : String) : Reader String where
  run text :=
    match skipBlanks text with
    | '"' :: rest => readString rest
    | text => .error (unexpected expected text)
  shorter {text _ _} h := by
    have := length_skipBlanks_le text
    grind

def string : Reader String := stringAs "a string"

def bool : Reader Bool where
  run text :=
    match skipBlanks text with
    | 't' :: rest => do .ok (true, ← readWord ['r', 'u', 'e'] rest)
    | 'f' :: rest => do .ok (false, ← readWord ['a', 'l', 's', 'e'] rest)
    | text => .error (unexpected "a boolean" text)
  shorter {text _ _} h := by
    have := length_skipBlanks_le text
    grind

def unit : Reader Unit where
  run text :=
    match skipBlanks text with
    | 'n' :: rest => do .ok ((), ← readWord ['u', 'l', 'l'] rest)
    | text => .error (unexpected "unit" text)
  shorter {text _ _} h := by
    have := length_skipBlanks_le text
    grind

/-- Reads `null` as none, and anything else by `r`. -/
def option (r : Reader α) : Reader (Option α) where
  run text :=
    match skipBlanks text with
    | 'n' :: rest => do .ok (none, ← readWord ['u', 'l', 'l'] rest)
    | text => do
      let (a, rest) ← r.run text
      .ok (some a, rest)
  shorter {text _ _} h := by
    have := length_skipBlanks_le text
    have := @r.shorter
    grind

def map (f : α → β) (r : Reader α) : Reader β where
  run text := do
    let (a, rest) ← r.run text
    .ok (f a, rest)
  shorter h := by
    have := @r.shorter
    grind

def accept (f : α → Except Reason β) (fail : Reason → List Char → Failure) (r : Reader α) :
    Reader β where
  run text := do
    let (a, rest) ← r.run text
    match f a with
    | .ok b => .ok (b, rest)
    | .error reason => .error (fail reason rest)
  shorter h := by
    have := @r.shorter
    grind

def readAll (r : Reader α) (text : String) : Except ReadError α :=
  let text := text.toList
  let result : Attempt α := do
    let (a, rest) ← r.run text
    match skipBlanks rest with
    | [] => .ok a
    | rest => .error (.behind .trailingCharacters rest)
  result.mapError (·.toError text)

end Reader
end GrammarLoader.Json
