import GrammarLoader.Rule.Basic

/-!
What a node must carry, by its kind.
-/

namespace GrammarLoader.Rule

inductive Part
  | stringValue
  | name
  | members
  | content
  | precedenceValue
  | integerPrecedenceValue
  | aliasValue
  | contextName
  deriving DecidableEq, Repr

namespace Part

def describe : Part → String
  | stringValue => "string value"
  | name => "name"
  | members => "members"
  | content => "content"
  | precedenceValue => "precedence value"
  | integerPrecedenceValue => "integer precedence value"
  | aliasValue => "alias value"
  | contextName => "context name"

/-- Whether a node carries the part. Names and lists of members count only if they are not empty. -/
def presentIn (r : Rule) : Part → Bool
  | stringValue | aliasValue => r.textValue.isSome
  | name => r.label.name.any (!·.isEmpty)
  | members => r.members.any (!·.isEmpty)
  | content => r.content.isSome
  | precedenceValue => r.label.value.isSome
  | integerPrecedenceValue =>
    match r.label.value with
    | some (.number _) => true
    | _ => false
  | contextName => r.label.contextName.isSome

end Part

/-- The parts that a node of the kind must carry, in the order in which they are looked for. -/
def Kind.parts : Kind → List Part
  | blank => []
  | string | pattern => [.stringValue]
  | symbol => [.name]
  | choice | seq => [.members]
  | repeat0 | repeat1 | token | immediateToken => [.content]
  | prec | precLeft | precRight => [.content, .precedenceValue]
  | precDynamic => [.content, .integerPrecedenceValue]
  | field => [.name, .content]
  | aliased => [.aliasValue, .content]
  | reserved => [.contextName, .content]

def missingPart? (r : Rule) : Option Part := r.kind.parts.find? fun part => !part.presentIn r

end GrammarLoader.Rule
