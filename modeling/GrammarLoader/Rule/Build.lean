import GrammarLoader.Rule.Basic

/-!
Short names for the nodes that grammars are written with.
-/

namespace GrammarLoader.Rule

def blank : Rule := node (.ofKind .blank) none none

def literal (text : String) : Rule :=
  node { Label.ofKind .string with value := some (.text text) } none none

def pattern (regex : String) : Rule :=
  node { Label.ofKind .pattern with value := some (.text regex) } none none

def symbol (name : String) : Rule :=
  node { Label.ofKind .symbol with name := some name } none none

def seq (parts : List Rule) : Rule := node (.ofKind .seq) (some parts) none

def choice (alternatives : List Rule) : Rule := node (.ofKind .choice) (some alternatives) none

def maybe (r : Rule) : Rule := choice [r, blank]

def many (r : Rule) : Rule := node (.ofKind .repeat0) none (some r)

def many1 (r : Rule) : Rule := node (.ofKind .repeat1) none (some r)

def prec (level : Int) (r : Rule) : Rule :=
  node { Label.ofKind .prec with value := some (.number level) } none (some r)

def precLeft (level : Int) (r : Rule) : Rule :=
  node { Label.ofKind .precLeft with value := some (.number level) } none (some r)

def immediate (r : Rule) : Rule := node (.ofKind .immediateToken) none (some r)

end GrammarLoader.Rule
