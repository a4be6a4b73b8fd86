import GrammarLoader.Text.SnakeCase

/-!
The arguments of the checker. Every argument is a flag; most take a value, behind `=` or as the
next argument.
-/

namespace GrammarLoader.Checker

inductive Flag
  | grammar
  | name
  | start
  | abi
  | strict
  | symbols
  | tokens
  deriving DecidableEq, Repr

namespace Flag

def all : List Flag := [grammar, name, start, abi, strict, symbols, tokens]

def text : Flag → String
  | grammar => "grammar"
  | name => "name"
  | start => "start"
  | abi => "abi"
  | strict => "strict"
  | symbols => "symbols"
  | tokens => "tokens"

/-- The flag of a name, which may be written in any way that has the same words. -/
def ofName? (name : String) : Option Flag := all.find? (·.text = Text.snakeCase name)

end Flag

structure Arguments where
  grammar : Option String
  name : Option String
  start : Option String
  abi : Option UInt32
  strict : Bool
  symbols : Bool
  tokens : Option String
  deriving DecidableEq, Repr

namespace Arguments

def empty : Arguments := ⟨none, none, none, none, false, false, none⟩

def paths (a : Arguments) : List String := a.grammar.toList ++ a.tokens.toList

def number? (text : String) : Option Nat :=
  let digits := match text.toList with
    | '+' :: digits => digits
    | digits => digits
  if digits.isEmpty ∨ ¬ digits.all Char.isDigit then none
  else some (digits.foldl (fun n c => n * 10 + (c.toNat - '0'.toNat)) 0)

def version? (text : String) : Option UInt32 := do
  let n ← number? text
  if n < UInt32.size then some (UInt32.ofNat n) else none

def turnOn? (a : Arguments) : Flag → Option Arguments
  | .strict => some { a with strict := true }
  | .symbols => some { a with symbols := true }
  | _ => none

def set? (a : Arguments) (value : String) : Flag → Option Arguments
  | .grammar => some { a with grammar := some value }
  | .name => some { a with name := some value }
  | .start => some { a with start := some value }
  | .abi => do some { a with abi := some (← version? value) }
  | .tokens => some { a with tokens := some value }
  | .strict | .symbols => none

/-- The flag of an argument, and the value behind its first `=`. -/
def splitFlag? (arg : String) : Option (Flag × Option String) :=
  match arg.toList with
  | '-' :: '-' :: body => do
    let flag ← Flag.ofName? (String.ofList (body.takeWhile (· ≠ '=')))
    let value := match body.dropWhile (· ≠ '=') with
      | _ :: value => some (String.ofList value)
      | [] => none
    some (flag, value)
  | _ => none

/-- Reads arguments; a later flag overrides an earlier one. Behind `--` no flag may follow. -/
def parseFrom (a : Arguments) : List String → Option Arguments
  | [] => some a
  | arg :: rest =>
    if arg = "--" then (if rest.isEmpty then some a else none)
    else
      match splitFlag? arg with
      | none => none
      | some (flag, value) =>
        match a.turnOn? flag with
        | some a => parseFrom a rest
        | none =>
          match value, rest with
          | some value, rest => do parseFrom (← a.set? value flag) rest
          | none, value :: rest => do parseFrom (← a.set? value flag) rest
          | none, [] => none

def parse (args : List String) : Option Arguments := parseFrom empty args

end Arguments
end GrammarLoader.Checker
