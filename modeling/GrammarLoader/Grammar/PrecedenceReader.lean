import GrammarLoader.Grammar.Basic
import GrammarLoader.Json.Enumerated
import GrammarLoader.Json.Value

/-!
Reading an entry of an order of precedences. Its kind is the field `type` of a map, or the first
element of a list. The rest is read whole, and looked at only when the container is closed.
-/

namespace GrammarLoader.Precedence

open Json

inductive Kind
  | string
  | symbol
  deriving DecidableEq, Repr

namespace Kind

def name : Kind → String
  | string => "STRING"
  | symbol => "SYMBOL"

def all : List Kind := [string, symbol]

def ofName? (name : String) : Option Kind := all.find? (·.name = name)

def field : Kind → String
  | string => "value"
  | symbol => "name"

def typeName : Kind → String
  | string => "struct variant Precedence::String"
  | symbol => "struct variant Precedence::Symbol"

def make : Kind → String → Precedence
  | string, text => .string text
  | symbol, text => .symbol text

def reader : Reader Kind :=
  (Reader.stringAs "variant identifier").accept (chooseName (all.map name) ofName?) .before

end Kind

inductive Rest
  | list (elements : List Value)
  | map (entries : List (String × Value))

def textOf : Value → Except Reason String
  | .scalar (.string s) => .ok s
  | v => .error (.invalidType v.found "a string")

/-- The text of the only field among the entries of a map; `found` is the text so far. -/
def fieldOf (field : String) (found : Option String) : List (String × Value) → Except Reason String
  | [] =>
    match found with
    | some text => .ok text
    | none => .error (.missingField field)
  | (key, v) :: rest =>
    if key ≠ field then fieldOf field found rest
    else if found.isSome then .error (.duplicateField field)
    else do fieldOf field (some (← textOf v)) rest

def elementOf (type : String) : List Value → Except Reason String
  | [] => .error (.invalidLength 0 (type ++ " with 1 element"))
  | v :: rest => do
    let text ← textOf v
    if rest.isEmpty then .ok text
    else .error (.invalidLength (rest.length + 1) "1 element in sequence")

def ofRest (kind : Kind) : Rest → Except Reason Precedence
  | .list elements => kind.make <$> elementOf kind.typeName elements
  | .map entries => kind.make <$> fieldOf kind.field none entries

def withKind (rest : α → Rest) : Option Kind × α → Except Reason (Kind × Rest)
  | (some kind, found) => .ok (kind, rest found)
  | (none, _) => .error (.missingField "type")

def listBody (value : Reader Value) : Body (Kind × Rest) :=
  let step : Option Kind × List Value → Option (Reader (Option Kind × List Value))
    | (none, found) => some (Kind.reader.map fun kind => (some kind, found))
    | (some kind, found) => some (value.map fun v => (some kind, v :: found))
  (Body.elements step (none, [])).accept (withKind (.list ·.reverse))

def mapBody (value : Reader Value) : Body (Kind × Rest) :=
  let entry : Option Kind × List (String × Value) → String →
      Except Reason (Reader (Option Kind × List (String × Value)))
    | (kind, found), key =>
      if key ≠ "type" then .ok (value.map fun v => (kind, (key, v) :: found))
      else if kind.isSome then .error (.duplicateField "type")
      else .ok (Kind.reader.map fun kind => (some kind, found))
  (Body.entries entry (none, [])).accept (withKind (.map ·.reverse))

/-- Reads an entry, unless no level is left for it and so no reader for the values in it. -/
def reader (value : Option (Reader Value)) : Reader Precedence :=
  let entry : Reader (Kind × Rest) :=
    .container (.ofOption (value.map listBody)) (.ofOption (value.map mapBody))
      (.refuse "internally tagged enum Precedence")
  entry.accept (fun (kind, rest) => ofRest kind rest) .unplaced

end GrammarLoader.Precedence
