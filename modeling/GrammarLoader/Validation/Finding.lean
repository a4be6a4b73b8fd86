import GrammarLoader.Grammar.Basic
import GrammarLoader.Rule.Nodes

/-!
Findings: what a grammar can be used with, but is likely a mistake. A rule that cannot be reached
from the start rule, and a rule with precedences of several levels.
-/

namespace GrammarLoader

inductive Finding
  | unreachable (rule : String)
  /-- The rule sets precedences of these levels, in ascending order. -/
  | mixed (rule : String) (levels : List Int)
  deriving DecidableEq, Repr

def Finding.message : Finding → String
  | unreachable rule => "unreachable rule '" ++ rule ++ "'"
  | mixed rule levels =>
    "rule '" ++ rule ++ "' has multiple precedence levels: [" ++
      ", ".intercalate (levels.map toString) ++ "]"

namespace Rule

def references (r : Rule) : List String := r.nodes.filterMap symbolName

/-- The levels of precedence in a rule, in ascending order. -/
def precedenceLevels (r : Rule) : List Int :=
  (Std.ExtTreeSet.ofList (r.nodes.filterMap precedence)).toList

end Rule

namespace Grammar

/--
Takes the rules that can be reached from the names in `pending` out of `unvisited`. Each rule is
visited once, so the search ends although rules may refer to each other.
-/
def withoutReachable (unvisited : Dictionary Rule) (pending : List String) : Dictionary Rule :=
  match pending with
  | [] => unvisited
  | name :: pending =>
    match _ : unvisited[name]? with
    | none => withoutReachable unvisited pending
    | some r => withoutReachable (unvisited.erase name) (r.references ++ pending)
termination_by (unvisited.size, pending.length)
decreasing_by
  · exact Prod.Lex.right _ (Nat.lt_succ_self _)
  · exact Prod.Lex.left _ _ (Dictionary.size_erase_lt ‹_›)

/-- The names from which rules can be reached: the start rule and those that extras refer to. -/
def roots (g : Grammar) (start : String) : List String :=
  start :: (g.extras.getD []).flatMap Rule.references

/--
The rules that can neither be reached nor are expanded where they are used, in ascending order.
-/
def unreachableRules (g : Grammar) (start : String) : List String :=
  (withoutReachable g.rules (g.roots start)).keys.filter (!g.isInlined ·)

def mixedRules (g : Grammar) : List (String × List Int) :=
  g.rules.toList.filterMap fun (name, r) =>
    let levels := r.precedenceLevels
    if 1 < levels.length then some (name, levels) else none

def findings (g : Grammar) (start : String) : List Finding :=
  (g.unreachableRules start).map .unreachable ++
    g.mixedRules.map fun (name, levels) => .mixed name levels

end Grammar
end GrammarLoader
