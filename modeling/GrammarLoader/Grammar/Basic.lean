import GrammarLoader.Dictionary
import GrammarLoader.Rule.Basic

/-!
Grammars: named rules, and the sections that go with them.
-/

namespace GrammarLoader

inductive Precedence
  | string (value : String)
  | symbol (name : String)
  deriving DecidableEq, Repr

structure Grammar where
  schema : Option String
  name : String
  inherits : Option String
  rules : Dictionary Rule
  extras : Option (List Rule)
  externals : Option (List Rule)
  inlined : Option (List String)
  precedences : Option (List (List Precedence))
  conflicts : Option (List (List String))
  reservedWords : Option (Dictionary (List Rule))
  word : Option String
  supertypes : Option (List String)

namespace Grammar

def rule? (g : Grammar) (name : String) : Option Rule := g.rules[name]?

def ruleNames (g : Grammar) : List String := g.rules.keys

def externalNames (g : Grammar) : List String := (g.externals.getD []).filterMap Rule.symbolName

def isInlined (g : Grammar) (name : String) : Bool := (g.inlined.getD []).contains name

theorem mem_ruleNames {g : Grammar} {name : String} : name ∈ g.ruleNames ↔ name ∈ g.rules :=
  Std.ExtTreeMap.mem_keys

end Grammar
end GrammarLoader
