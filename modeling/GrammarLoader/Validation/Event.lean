import GrammarLoader.Validation.Finding

/-!
The log: what happened while a grammar was validated and loaded, in order.
-/

namespace GrammarLoader

inductive Event.Level
  | debug
  | warn
  deriving DecidableEq, Repr

inductive Event
  /-- A rule of the grammar may begin with itself. -/
  | leftRecursive (grammar rule : String)
  | finding (grammar : String) (finding : Finding)
  | loaded (grammar : String) (version : UInt32) (symbols fields : Nat)
  deriving DecidableEq, Repr

namespace Event

def level : Event → Level
  | finding _ _ => .warn
  | _ => .debug

def message : Event → String
  | leftRecursive _ _ => "rule is left-recursive"
  | finding _ f => f.message
  | loaded _ _ _ _ => "loaded grammar"

def grammar : Event → String
  | leftRecursive grammar _ => grammar
  | finding grammar _ => grammar
  | loaded grammar _ _ _ => grammar

end Event

/-- What came of some work, and the events of the log on the way. -/
structure Logged (α : Type) where
  result : α
  log : List Event

end GrammarLoader
