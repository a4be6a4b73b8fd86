import GrammarLoader.Json.Reader

/-!
Values that nobody asked for are skipped. They may nest to any depth, and their numbers and
escapes are looked at only as far as it takes to find their ends.
-/

namespace GrammarLoader.Json.Ignored

def skipEscape : List Char → Attempt (List Char)
  | [] => .error (.before .endInString [])
  | c :: rest =>
    if c = 'u' then do
      let (_, rest) ← readHex4 rest
      .ok rest
    else if (simpleEscape? c).isSome then .ok rest
    else .error (.behind .invalidEscape (c :: rest))

@[grind →] theorem length_skipEscape_lt {text rest : List Char} (h : skipEscape text = .ok rest) :
    rest.length < text.length := by
  cases text <;> grind [skipEscape]

def skipString : List Char → Attempt (List Char)
  | [] => .error (.before .endInString [])
  | '"' :: rest => .ok rest
  | '\\' :: rest =>
    match _ : skipEscape rest with
    | .ok rest' => skipString rest'
    | .error f => .error f
  | c :: rest => if c < ' ' then .error (.before .controlCharacter (c :: rest)) else skipString rest
termination_by text => text.length
decreasing_by all_goals grind

@[grind →] theorem length_skipString_lt {text rest : List Char} (h : skipString text = .ok rest) :
    rest.length < text.length := by
  fun_induction skipString text <;> grind

/-- Skips at least one digit; without one, the failure is in the first character. -/
def skipDigits (text : List Char) : Attempt (List Char) :=
  if startsWithDigit text then .ok (text.dropWhile Char.isDigit)
  else .error (.behind .invalidNumber text)

def skipExponent : List Char → Attempt (List Char)
  | 'e' :: rest | 'E' :: rest => skipDigits (takeSign rest).2
  | rest => .ok rest

def skipFraction : List Char → Attempt (List Char)
  | '.' :: rest => do skipExponent (← skipDigits rest)
  | rest => skipExponent rest

def skipMagnitude : List Char → Attempt (List Char)
  | '0' :: rest =>
    if startsWithDigit rest then .error (.behind .invalidNumber rest) else skipFraction rest
  | text => do skipFraction (← skipDigits text)

@[grind →] theorem length_skipDigits_lt {text rest : List Char} (h : skipDigits text = .ok rest) :
    rest.length < text.length := by
  cases text with
  | nil => simp [skipDigits, startsWithDigit] at h
  | cons c text =>
    have := (List.dropWhile_suffix (l := text) Char.isDigit).length_le
    unfold skipDigits at h
    grind [startsWithDigit, List.dropWhile_cons]

@[grind →] theorem length_skipExponent_le {text rest : List Char}
    (h : skipExponent text = .ok rest) : rest.length ≤ text.length := by
  have := length_takeSign_le
  unfold skipExponent at h
  grind

@[grind →] theorem length_skipFraction_le {text rest : List Char}
    (h : skipFraction text = .ok rest) : rest.length ≤ text.length := by
  unfold skipFraction at h
  grind

@[grind →] theorem length_skipMagnitude_lt {text rest : List Char}
    (h : skipMagnitude text = .ok rest) : rest.length < text.length := by
  unfold skipMagnitude at h
  grind

def skipScalar : List Char → Attempt (List Char)
  | [] => .error (.before .endInValue [])
  | '"' :: rest => skipString rest
  | 'n' :: rest => readWord ['u', 'l', 'l'] rest
  | 't' :: rest => readWord ['r', 'u', 'e'] rest
  | 'f' :: rest => readWord ['a', 'l', 's', 'e'] rest
  | '-' :: rest => skipMagnitude rest
  | c :: rest =>
    if c.isDigit then skipMagnitude (c :: rest) else .error (.behind .expectedValue (c :: rest))

@[grind →] theorem length_skipScalar_lt {text rest : List Char} (h : skipScalar text = .ok rest) :
    rest.length < text.length := by
  fun_cases skipScalar text <;> grind [skipScalar]

def closer : Bracket → Char
  | .list => ']'
  | .map => '\x7d'

/--
Skips the ends of containers, of which `opened` are still open, the innermost first, and a comma
behind them. A comma may come first only behind a value (`afterValue`). What is left open expects
a value.
-/
def skipEnds (afterValue : Bool) : (opened : List Bracket) → List Char →
    Attempt (List Bracket × List Char)
  | [], text => .ok ([], text)
  | b :: opened, text =>
    match skipBlanks text with
    | [] => .error (.before (.endIn b) [])
    | c :: rest =>
      if c = closer b then skipEnds true opened rest
      else if ¬ afterValue then .ok (b :: opened, c :: rest)
      else if c = ',' then .ok (b :: opened, rest)
      else .error (.behind (.expectedComma b) (c :: rest))

theorem length_skipEnds_le {afterValue : Bool} {opened left : List Bracket} {text rest : List Char}
    (h : skipEnds afterValue opened text = .ok (left, rest)) : rest.length ≤ text.length := by
  have := length_skipBlanks_le
  fun_induction skipEnds afterValue opened text <;> grind

def skipKey (text : List Char) : Attempt (List Char) :=
  match skipBlanks text with
  | [] => .error (.before (.endIn .map) [])
  | '"' :: rest => do readColon (← skipString rest)
  | text => .error (.behind .expectedKey text)

@[grind →] theorem length_skipKey_lt {text rest : List Char} (h : skipKey text = .ok rest) :
    rest.length < text.length := by
  have := length_skipBlanks_le text
  unfold skipKey at h
  grind

def skipKeyIn : List Bracket → List Char → Attempt (List Char)
  | .map :: _, text => skipKey text
  | _, text => .ok text

@[grind →] theorem length_skipKeyIn_le {opened : List Bracket} {text rest : List Char}
    (h : skipKeyIn opened text = .ok rest) : rest.length ≤ text.length := by
  unfold skipKeyIn at h
  grind

/-- Skips a bracket that opens a container, or a scalar. Gives the containers that are then open. -/
def skipStart (opened : List Bracket) (text : List Char) :
    Attempt (Bool × List Bracket × List Char) :=
  match skipBlanks text with
  | '[' :: rest => .ok (false, .list :: opened, rest)
  | '\x7b' :: rest => .ok (false, .map :: opened, rest)
  | text => do .ok (true, opened, ← skipScalar text)

@[grind →] theorem length_skipStart_lt {opened left : List Bracket} {text rest : List Char}
    {b : Bool} (h : skipStart opened text = .ok (b, left, rest)) : rest.length < text.length := by
  have := length_skipBlanks_le text
  unfold skipStart at h
  grind

/-- Skips a value inside the containers `opened`, and everything up to the last of their ends. -/
def skipFrom (opened : List Bracket) (text : List Char) : Attempt (List Char) :=
  match _ : skipStart opened text with
  | .error f => .error f
  | .ok (afterValue, opened, rest) =>
    match _ : skipEnds afterValue opened rest with
    | .error f => .error f
    | .ok ([], rest) => .ok rest
    | .ok (opened, rest) =>
      match _ : skipKeyIn opened rest with
      | .error f => .error f
      | .ok rest => skipFrom opened rest
termination_by text.length
decreasing_by
  have := @length_skipEnds_le
  grind

theorem length_skipFrom_lt {opened : List Bracket} {text rest : List Char}
    (h : skipFrom opened text = .ok rest) : rest.length < text.length := by
  have := @length_skipEnds_le
  fun_induction skipFrom opened text <;> grind

end Ignored

def Reader.ignored : Reader Unit where
  run text := do .ok ((), ← Ignored.skipFrom [] text)
  shorter h := by
    have := @Ignored.length_skipFrom_lt
    grind

end GrammarLoader.Json
