import GrammarLoader.Json.Lexeme

/-!
Numbers. The digits of a number form a significand of 64 bits and a power of ten. Without a point
and an exponent the number is an integer if 64 bits hold it, and otherwise a float.
-/

namespace GrammarLoader.Json

/-- The largest significand; further digits are not kept. -/
def maxSignificand : Nat := 18446744073709551615

def maxExponent : Nat := 2147483647

def digitValue (c : Char) : Nat := c.toNat - '0'.toNat

structure Significand where
  digits : Nat
  kept : Nat
  dropped : Nat

/-- One more digit. Once a digit does not fit, neither it nor any later one is kept. -/
def Significand.push (s : Significand) (c : Char) : Significand :=
  if s.dropped = 0 ∧ s.digits * 10 + digitValue c ≤ maxSignificand then
    { s with digits := s.digits * 10 + digitValue c, kept := s.kept + 1 }
  else { s with dropped := s.dropped + 1 }

def readDigits (s : Significand) : List Char → Significand × List Char
  | [] => (s, [])
  | c :: rest => if c.isDigit then readDigits (s.push c) rest else (s, c :: rest)

/--
Reads the digits of an exponent. Gives none behind a digit that makes it larger than
`maxExponent`.
-/
def readExponentDigits (exponent : Nat) : List Char → Option Nat × List Char
  | [] => (some exponent, [])
  | c :: rest =>
    if c.isDigit then
      if exponent * 10 + digitValue c ≤ maxExponent then
        readExponentDigits (exponent * 10 + digitValue c) rest
      else (none, rest)
    else (some exponent, c :: rest)

def takeSign : List Char → Bool × List Char
  | '+' :: rest => (false, rest)
  | '-' :: rest => (true, rest)
  | rest => (false, rest)

theorem length_readDigits_le (s : Significand) (text : List Char) :
    (readDigits s text).2.length ≤ text.length := by
  fun_induction readDigits s text <;> grind

theorem length_readExponentDigits_le (exponent : Nat) (text : List Char) :
    (readExponentDigits exponent text).2.length ≤ text.length := by
  fun_induction readExponentDigits exponent text <;> grind

theorem length_takeSign_le (text : List Char) : (takeSign text).2.length ≤ text.length := by
  unfold takeSign
  grind

def powerOfTen (n : Nat) : Float := Float.ofScientific 1 false n

def maxPower : Nat := 308

def divPower (f : Float) (n : Nat) : Float :=
  if f == 0 then f
  else if n ≤ maxPower then f / powerOfTen n
  else divPower (f / powerOfTen maxPower) (n - maxPower)
termination_by n
decreasing_by grind [maxPower]

def scale? (digits : Nat) (exponent : Int) : Option Float :=
  let f := Float.ofNat digits
  if exponent < 0 then some (divPower f exponent.natAbs)
  else if f == 0 then some f
  else if exponent ≤ maxPower then
    let f := f * powerOfTen exponent.natAbs
    if f.isInf then none else some f
  else none

def signed (negative : Bool) (f : Float) : Float := if negative then -f else f

def finishFloat (negative : Bool) (digits : Nat) (exponent : Int) (rest : List Char) :
    Attempt (Scalar × List Char) :=
  match scale? digits exponent with
  | some f => .ok (.float (signed negative f), rest)
  | none => .error (.before .numberOutOfRange rest)

/-- The integer that ends in front of `rest`; a float if it is no integer of 64 bits. -/
def finishInteger (negative : Bool) (s : Significand) (rest : List Char) :
    Attempt (Scalar × List Char) :=
  if s.dropped ≠ 0 then finishFloat negative s.digits s.dropped rest
  else if ¬ negative then .ok (.int s.digits, rest)
  else if s.digits = 0 ∨ 9223372036854775808 < s.digits then finishFloat negative s.digits 0 rest
  else .ok (.int (-s.digits), rest)

def startsWithDigit (text : List Char) : Bool := text.head?.any Char.isDigit

def readExponent (negative : Bool) (digits : Nat) (exponent : Int) (text : List Char) :
    Attempt (Scalar × List Char) :=
  let (down, text) := takeSign text
  match text with
  | [] => .error (.before .endInValue [])
  | c :: rest =>
    if ¬ c.isDigit then .error (.behind .invalidNumber (c :: rest))
    else
      match readExponentDigits (digitValue c) rest with
      | (some e, rest) =>
        finishFloat negative digits (if down then exponent - e else exponent + e) rest
      | (none, rest) =>
        if digits ≠ 0 ∧ ¬ down then .error (.before .numberOutOfRange rest)
        else .ok (.float (signed negative 0), rest.dropWhile Char.isDigit)

def missingDigit (rest : List Char) : Failure :=
  .behind (if rest.isEmpty then .endInValue else .invalidNumber) rest

def readFraction (negative : Bool) (s : Significand) (text : List Char) :
    Attempt (Scalar × List Char) :=
  if ¬ startsWithDigit text then .error (missingDigit text)
  else
    let (fraction, rest) := readDigits ⟨s.digits, 0, 0⟩ text
    let exponent : Int := s.dropped - fraction.kept
    match rest with
    | 'e' :: rest | 'E' :: rest => readExponent negative fraction.digits exponent rest
    | rest => finishFloat negative fraction.digits exponent rest

def readNumberTail (negative : Bool) (s : Significand) (text : List Char) :
    Attempt (Scalar × List Char) :=
  match text with
  | '.' :: rest => readFraction negative s rest
  | 'e' :: rest | 'E' :: rest => readExponent negative s.digits s.dropped rest
  | rest => finishInteger negative s rest

def readMagnitude (negative : Bool) : List Char → Attempt (Scalar × List Char)
  | [] => .error (.before .endInValue [])
  | c :: rest =>
    if ¬ c.isDigit then .error (.behind .invalidNumber (c :: rest))
    else if c = '0' then
      if startsWithDigit rest then .error (.behind .invalidNumber rest)
      else readNumberTail negative ⟨0, 1, 0⟩ rest
    else
      let (s, rest) := readDigits ⟨digitValue c, 1, 0⟩ rest
      readNumberTail negative s rest

def readNumber : List Char → Attempt (Scalar × List Char)
  | '-' :: rest => readMagnitude true rest
  | text => readMagnitude false text

@[grind →] theorem rest_eq_of_finishFloat {negative : Bool} {digits : Nat} {exponent : Int}
    {text rest : List Char} {v : Scalar}
    (h : finishFloat negative digits exponent text = .ok (v, rest)) : rest = text := by
  unfold finishFloat at h
  grind

@[grind →] theorem rest_eq_of_finishInteger {negative : Bool} {s : Significand}
    {text rest : List Char} {v : Scalar} (h : finishInteger negative s text = .ok (v, rest)) :
    rest = text := by
  unfold finishInteger at h
  grind

@[grind →] theorem length_readExponent_le {negative : Bool} {digits : Nat} {exponent : Int}
    {text rest : List Char} {v : Scalar}
    (h : readExponent negative digits exponent text = .ok (v, rest)) :
    rest.length ≤ text.length := by
  have := length_takeSign_le text
  have := length_readExponentDigits_le
  have (text : List Char) : (text.dropWhile Char.isDigit).length ≤ text.length :=
    (List.dropWhile_suffix _).length_le
  unfold readExponent at h
  grind

@[grind →] theorem length_readFraction_le {negative : Bool} {s : Significand}
    {text rest : List Char} {v : Scalar} (h : readFraction negative s text = .ok (v, rest)) :
    rest.length ≤ text.length := by
  have := length_readDigits_le ⟨s.digits, 0, 0⟩ text
  unfold readFraction at h
  grind

@[grind →] theorem length_readNumberTail_le {negative : Bool} {s : Significand}
    {text rest : List Char} {v : Scalar} (h : readNumberTail negative s text = .ok (v, rest)) :
    rest.length ≤ text.length := by
  unfold readNumberTail at h
  grind

@[grind →] theorem length_readMagnitude_lt {negative : Bool} {text rest : List Char} {v : Scalar}
    (h : readMagnitude negative text = .ok (v, rest)) : rest.length < text.length := by
  have := length_readDigits_le
  cases text <;> grind [readMagnitude]

@[grind →] theorem length_readNumber_lt {text rest : List Char} {v : Scalar}
    (h : readNumber text = .ok (v, rest)) : rest.length < text.length := by
  unfold readNumber at h
  grind

end GrammarLoader.Json
