import GrammarLoader.Grammar.Basic
import GrammarLoader.Rule.Nodes
import GrammarLoader.Rule.Shape

/-!
Structural violations: a grammar without rules or without its start rule, nodes that lack a part,
and names that nothing defines. Violations are looked for in a fixed order, and the first one is
reported.
-/

namespace GrammarLoader

inductive Section
  | inline
  | supertypes
  | word
  | conflicts
  deriving DecidableEq, Repr

def Section.name : Section → String
  | inline => "inline"
  | supertypes => "supertypes"
  | word => "word"
  | conflicts => "conflicts"

inductive Violation
  | noRules
  | undefinedStart (name : String)
  | incomplete (kind : Rule.Kind) (context : String) (part : Rule.Part)
  | undefinedSymbol (name context : String)
  | undefinedName (name : String) (listedIn : Section)
  deriving DecidableEq, Repr

def Violation.message : Violation → String
  | noRules => "grammar has no rules"
  | undefinedStart name => "start rule '" ++ name ++ "' is not defined"
  | incomplete kind context part =>
    kind.name ++ " node in rule '" ++ context ++ "' has no " ++ part.describe
  | undefinedSymbol name context =>
    "undefined symbol '" ++ name ++ "' referenced in rule '" ++ context ++ "'"
  | undefinedName name listedIn =>
    "undefined symbol '" ++ name ++ "' listed in " ++ listedIn.name

namespace Grammar

def namedRules (g : Grammar) : List (String × Rule) := g.rules.toList

def extraRules (g : Grammar) : List (String × Rule) := (g.extras.getD []).map ("extras", ·)

def externalRules (g : Grammar) : List (String × Rule) := (g.externals.getD []).map ("externals", ·)

/-- The names that sections list, in the order in which they are looked up. -/
def listedNames (g : Grammar) : List (Section × String) :=
  (g.inlined.getD []).map (.inline, ·) ++ (g.supertypes.getD []).map (.supertypes, ·) ++
    g.word.toList.map (.word, ·) ++ (g.conflicts.getD []).flatten.map (.conflicts, ·)

def entryViolation? (g : Grammar) (start : String) : Option Violation :=
  if g.rules.isEmpty then some .noRules
  else if g.rules.contains start then none
  else some (.undefinedStart start)

def shapeViolation? (g : Grammar) : Option Violation :=
  (g.namedRules ++ g.extraRules ++ g.externalRules).findSome? fun (context, r) =>
    r.nodes.findSome? fun n => n.missingPart?.map (.incomplete n.kind context)

/-- The names that symbols may refer to: those of rules and of external tokens. -/
def definedNames (g : Grammar) : Names := .ofList (g.ruleNames ++ g.externalNames)

def symbolViolation? (g : Grammar) (defined : Names) : Option Violation :=
  (g.namedRules ++ g.extraRules).findSome? fun (context, r) =>
    (r.nodes.filterMap Rule.symbolName).findSome? fun name =>
      if defined.contains name then none else some (.undefinedSymbol name context)

def listViolation? (g : Grammar) (defined : Names) : Option Violation :=
  g.listedNames.findSome? fun (listedIn, name) =>
    if defined.contains name then none else some (.undefinedName name listedIn)

def violation? (g : Grammar) (start : String) : Option Violation :=
  let defined := g.definedNames
  g.entryViolation? start <|> g.shapeViolation? <|> g.symbolViolation? defined <|>
    g.listViolation? defined

end Grammar
end GrammarLoader
