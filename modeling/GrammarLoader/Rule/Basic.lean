import GrammarLoader.Rule.Kind

/-!
Rules of a grammar as trees. Which of its entries a node needs depends on its kind; any node may
carry any of them.
-/

namespace GrammarLoader

inductive Rule.Value
  | text (value : String)
  | number (value : Int)
  deriving DecidableEq, Repr

structure Rule.Label where
  kind : Rule.Kind
  /-- The text of a literal or a pattern, the name that an alias gives, or a precedence. -/
  value : Option Rule.Value
  name : Option String
  named : Option Bool
  flags : Option String
  contextName : Option String
  deriving DecidableEq, Repr

inductive Rule
  | node (label : Rule.Label) (members : Option (List Rule)) (content : Option Rule)

namespace Rule

def Label.ofKind (kind : Kind) : Label := ⟨kind, none, none, none, none, none⟩

def label : Rule → Label
  | node label _ _ => label

def members : Rule → Option (List Rule)
  | node _ members _ => members

def content : Rule → Option Rule
  | node _ _ content => content

def kind (r : Rule) : Kind := r.label.kind

/-- All children: the members, and then the content. -/
def children : Rule → List Rule
  | node _ members content => members.getD [] ++ content.toList

def symbolName (r : Rule) : Option String :=
  if r.kind = .symbol then r.label.name else none

/-- The text attached to the topmost node, whatever its kind. -/
def textValue (r : Rule) : Option String :=
  match r.label.value with
  | some (.text value) => some value
  | _ => none

def stringValue (r : Rule) : Option String :=
  if r.kind = .string then r.textValue else none

def patternValue (r : Rule) : Option String :=
  if r.kind = .pattern then r.textValue else none

/-- The number of a precedence. A precedence with a name has none. -/
def precedence (r : Rule) : Option Int :=
  if r.kind.isPrecedence then
    match r.label.value with
    | some (.number value) => some value
    | _ => none
  else none

end Rule
end GrammarLoader
