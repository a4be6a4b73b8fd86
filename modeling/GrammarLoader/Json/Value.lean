import GrammarLoader.Json.Container

/-!
Whole JSON values: reading them, and printing them with one entry to a line.
-/

namespace GrammarLoader.Json

/-- A JSON value. A map keeps its entries in the order of the text, also those with the same key. -/
inductive Value
  | scalar (value : Scalar)
  | list (elements : List Value)
  | map (entries : List (String × Value))

namespace Value

def found : Value → Found
  | scalar value => .scalar value
  | list _ => .list
  | map _ => .map

def entriesBody (value : Reader Value) : Body (List (String × Value)) :=
  let entries : Body (List (String × Value)) :=
    .entries (fun found key => .ok (value.map fun v => (key, v) :: found)) []
  entries.accept (.ok ·.reverse)

/-- Reads a value of any kind, which may open `levels` containers inside one another. -/
def reader (levels : Nat) : Reader Value :=
  let inner : Option (Reader Value) :=
    match levels with
    | 0 => none
    | n + 1 => some (reader n)
  .container
    (.ofOption (inner.map fun r => (Body.list r).accept (.ok ∘ list)))
    (.ofOption (inner.map fun r => (entriesBody r).accept (.ok ∘ map)))
    (Reader.scalar.map scalar)

def escape (c : Char) : List Char :=
  match c with
  | '"' => ['\\', '"']
  | '\\' => ['\\', '\\']
  | '\n' => ['\\', 'n']
  | '\r' => ['\\', 'r']
  | '\t' => ['\\', 't']
  | c =>
    if c < ' ' then
      ['\\', 'u', '0', '0', Nat.digitChar (c.toNat / 16), Nat.digitChar (c.toNat % 16)]
    else [c]

def quote (s : String) : String := String.ofList ('"' :: s.toList.flatMap escape ++ ['"'])

def scalarText : Scalar → String
  | .null => "null"
  | .bool value => if value then "true" else "false"
  | .int value => toString value
  | .float value => Decimal.text value
  | .string value => quote value

def block (left right : String) (margin : Nat) (lines : List String) : String :=
  if lines.isEmpty then left ++ right
  else
    let indent := fun n => "\n" ++ "".pushn ' ' n
    left ++ ",".intercalate (lines.map (indent (margin + 2) ++ ·)) ++ indent margin ++ right

mutual

def pretty (margin : Nat) : Value → String
  | scalar value => scalarText value
  | list elements => block "[" "]" margin (prettyElements (margin + 2) elements)
  | map entries => block "\x7b" "\x7d" margin (prettyEntries (margin + 2) entries)

def prettyElements (margin : Nat) : List Value → List String
  | [] => []
  | v :: rest => pretty margin v :: prettyElements margin rest

def prettyEntries (margin : Nat) : List (String × Value) → List String
  | [] => []
  | (key, v) :: rest => (quote key ++ ": " ++ pretty margin v) :: prettyEntries margin rest

end

def document (v : Value) : String := pretty 0 v ++ "\n"

end Value
end GrammarLoader.Json
