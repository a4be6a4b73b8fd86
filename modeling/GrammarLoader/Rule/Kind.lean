/-!
The kinds of nodes that a rule of a grammar is built from, and their names in a definition.
-/

namespace GrammarLoader.Rule

inductive Kind
  | blank
  | string
  | pattern
  | symbol
  | choice
  | seq
  | repeat0
  | repeat1
  | prec
  | precLeft
  | precRight
  | precDynamic
  | field
  | aliased
  | token
  | immediateToken
  | reserved
  deriving DecidableEq, Repr

namespace Kind

/-- Every kind, in the order in which messages list them. -/
def all : List Kind :=
  [blank, string, pattern, symbol, choice, seq, repeat0, repeat1, prec, precLeft, precRight,
    precDynamic, field, aliased, token, immediateToken, reserved]

def name : Kind → String
  | blank => "BLANK"
  | string => "STRING"
  | pattern => "PATTERN"
  | symbol => "SYMBOL"
  | choice => "CHOICE"
  | seq => "SEQ"
  | repeat0 => "REPEAT"
  | repeat1 => "REPEAT1"
  | prec => "PREC"
  | precLeft => "PREC_LEFT"
  | precRight => "PREC_RIGHT"
  | precDynamic => "PREC_DYNAMIC"
  | field => "FIELD"
  | aliased => "ALIAS"
  | token => "TOKEN"
  | immediateToken => "IMMEDIATE_TOKEN"
  | reserved => "RESERVED"

def ofName? (name : String) : Option Kind := all.find? (·.name = name)

/-- Whether a node of this kind sets a precedence. -/
def isPrecedence : Kind → Bool
  | prec | precLeft | precRight | precDynamic => true
  | _ => false

def isTerminal : Kind → Bool
  | string | pattern => true
  | _ => false

theorem ofName?_name (k : Kind) : ofName? k.name = some k := by cases k <;> rfl

end Kind
end GrammarLoader.Rule
