import GrammarLoader.Grammar.Basic

/-!
Immediate left recursion: a rule that may begin with itself. A sequence begins with its first
member, a choice with any of them; precedences, fields and aliases begin with their content.
-/

namespace GrammarLoader

namespace Rule

mutual

/-- Whether a rule may begin with the symbol `name`. -/
def beginsWith (name : String) : Rule → Bool
  | node label members content =>
    match label.kind with
    | .symbol => label.name = some name
    | .seq => firstBeginsWith name members
    | .choice => someBeginsWith name members
    | .prec | .precLeft | .precRight | .precDynamic | .field | .aliased =>
      contentBeginsWith name content
    | _ => false

def firstBeginsWith (name : String) : Option (List Rule) → Bool
  | some (r :: _) => beginsWith name r
  | _ => false

def someBeginsWith (name : String) : Option (List Rule) → Bool
  | some rules => anyBeginsWith name rules
  | none => false

def anyBeginsWith (name : String) : List Rule → Bool
  | [] => false
  | r :: rules => beginsWith name r || anyBeginsWith name rules

def contentBeginsWith (name : String) : Option Rule → Bool
  | some r => beginsWith name r
  | none => false

end

end Rule

def Grammar.leftRecursiveRules (g : Grammar) : List String :=
  g.rules.toList.filterMap fun (name, r) => if r.beginsWith name then some name else none

end GrammarLoader
