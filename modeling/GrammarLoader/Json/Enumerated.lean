import GrammarLoader.Json.Container

/-!
Enumerated values. One is written as its name, or as a map whose only key is the name and whose only
value is `null`.
-/

namespace GrammarLoader.Json

def chooseName (names : List String) (ofName? : String → Option α) (name : String) :
    Except Reason α :=
  match ofName? name with
  | some a => .ok a
  | none => .error (.unknownVariant name names)

def readName (names : List String) (ofName? : String → Option α) (text : List Char) :
    Attempt (α × List Char) := do
  let (name, rest) ← readString text
  match chooseName names ofName? name with
  | .ok a => .ok (a, rest)
  | .error reason => .error (.before reason rest)

@[grind →] theorem length_readName_lt {names : List String} {ofName? : String → Option α}
    {text rest : List Char} {a : α} (h : readName names ofName? text = .ok (a, rest)) :
    rest.length < text.length := by
  unfold readName at h
  grind

def readNameMap (names : List String) (ofName? : String → Option α) (text : List Char) :
    Attempt (α × List Char) :=
  match skipBlanks text with
  | [] => .error (.before (.endIn .map) [])
  | '\x7d' :: rest => .error (.behind .expectedValue ('\x7d' :: rest))
  | '"' :: rest => do
    let (a, rest) ← readName names ofName? rest
    let ((), rest) ← Reader.unit.run (← readColon rest)
    match skipBlanks rest with
    | [] => .error (.before (.endIn .map) [])
    | '\x7d' :: rest => .ok (a, rest)
    | rest => .error (.before .expectedValue rest)
  | rest => .error (.behind .expectedKey rest)

@[grind →] theorem length_readNameMap_lt {names : List String} {ofName? : String → Option α}
    {text rest : List Char} {a : α} (h : readNameMap names ofName? text = .ok (a, rest)) :
    rest.length < text.length := by
  have := length_skipBlanks_le
  have := @Reader.unit.shorter
  unfold readNameMap at h
  grind

def Reader.enumerated (names : List String) (ofName? : String → Option α) (deeper : Bool) :
    Reader α where
  run text :=
    match skipBlanks text with
    | [] => .error (.before .endInValue [])
    | '"' :: rest => readName names ofName? rest
    | '\x7b' :: rest =>
      if deeper then readNameMap names ofName? rest
      else .error (.behind .recursionLimit ('\x7b' :: rest))
    | rest => .error (.behind .expectedValue rest)
  shorter {text _ _} h := by
    have := length_skipBlanks_le text
    grind

end GrammarLoader.Json
