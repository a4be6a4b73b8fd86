import GrammarLoader.Validation.Event
import GrammarLoader.Validation.LeftRecursion
import GrammarLoader.Validation.Violation

/-!
Validation of a grammar. A violation always fails. Findings fail only if validation is strict;
otherwise they are logged and handed on.
-/

namespace GrammarLoader

inductive Rejection
  | violation (v : Violation)
  | finding (f : Finding)
  deriving DecidableEq, Repr

def Rejection.message : Rejection → String
  | violation v => v.message
  | finding f => f.message

namespace Grammar

def recursionLog (g : Grammar) : List Event := g.leftRecursiveRules.map (.leftRecursive g.name)

/-- Validates a grammar that is entered at `start`. Gives its findings. -/
def validate (g : Grammar) (start : String) (strict : Bool) :
    Logged (Except Rejection (List Finding)) :=
  match g.violation? start with
  | some v => ⟨.error (.violation v), []⟩
  | none =>
    let findings := g.findings start
    if strict then
      match findings with
      | f :: _ => ⟨.error (.finding f), g.recursionLog⟩
      | [] => ⟨.ok [], g.recursionLog⟩
    else ⟨.ok findings, g.recursionLog ++ findings.map (.finding g.name)⟩

end Grammar
end GrammarLoader
