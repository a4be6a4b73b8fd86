import GrammarLoader.Grammar.Basic
import GrammarLoader.Rule.Nodes

/-!
The tables of a language: its symbols and its fields, each numbered by its place.

Symbols come in segments: the end of the text, literals, external tokens and rules. The names of
aliases are added behind them, unless a rule or an earlier entry provides the name already.
-/

namespace GrammarLoader

inductive Symbol.Kind
  | builtin
  | anonymous
  | external
  | regular
  /-- A rule whose nodes are folded into the node around them. -/
  | hidden
  deriving DecidableEq, Repr

def Symbol.Kind.text : Symbol.Kind → String
  | builtin => "builtin"
  | anonymous => "anonymous"
  | external => "external"
  | regular => "regular"
  | hidden => "hidden"

structure Symbol where
  /-- The kind of node as trees show it. -/
  name : String
  kind : Symbol.Kind
  deriving DecidableEq, Repr

namespace Symbol

def isNamed (s : Symbol) : Bool :=
  match s.kind with
  | .external | .regular | .hidden => true
  | .builtin | .anonymous => false

def startsHidden (name : String) : Bool := name.toList.head? = some '_'

def isVisible (s : Symbol) : Bool :=
  match s.kind with
  | .builtin | .hidden => false
  | .anonymous | .regular => true
  | .external => !startsHidden s.name

def endOfText : Symbol := ⟨"end", .builtin⟩

def ofRule (name : String) : Symbol := ⟨name, if startsHidden name then .hidden else .regular⟩

end Symbol

namespace Rule

/-- Whether literals below a node stand for themselves. Those in a token are part of it. -/
def showsLiterals (r : Rule) : Bool :=
  match r.kind with
  | .string | .token | .immediateToken => false
  | _ => true

/--
The literals in a rule that are symbols of their own. A rule that is a literal gives it its own
name.
-/
def literals (r : Rule) : List String :=
  if r.kind = .string then [] else (r.nodesIn showsLiterals).filterMap stringValue

def fieldNames (r : Rule) : List String :=
  r.nodes.filterMap fun n => if n.kind = .field then n.label.name else none

/-- The names that aliases in a rule give, to named nodes or to others. -/
def aliasNames (r : Rule) (named : Bool) : List String :=
  r.nodes.filterMap fun n =>
    if n.kind = .aliased ∧ n.label.named.getD false = named then n.textValue else none

end Rule

namespace Grammar

def collect (g : Grammar) (names : Rule → List String) : Names :=
  .ofList (g.rules.toList.flatMap fun (_, r) => names r)

def literals (g : Grammar) : Names := g.collect Rule.literals

def fieldNames (g : Grammar) : Names := g.collect Rule.fieldNames

/-- The names that aliases give, those for named nodes last. Each kind is in ascending order. -/
def aliases (g : Grammar) : List (Bool × String) :=
  [false, true].flatMap fun named => (g.collect (Rule.aliasNames · named)).toList.map (named, ·)

/-- Whether there already is what an alias asks for: a rule, or an entry for nodes without a name. -/
def provides (g : Grammar) (table : Array Symbol) : Bool × String → Bool
  | (true, name) => g.rules.contains name
  | (false, name) => table.any fun s => s.kind = .anonymous ∧ s.name = name

def aliasSymbol : Bool × String → Symbol
  | (true, name) => ⟨name, .regular⟩
  | (false, name) => ⟨name, .anonymous⟩

def addAlias (g : Grammar) (table : Array Symbol) (given : Bool × String) : Array Symbol :=
  if g.provides table given then table else table.push (aliasSymbol given)

def leadingSymbols (g : Grammar) : List Symbol :=
  .endOfText :: (g.literals.toList.map (⟨·, .anonymous⟩) ++ g.externalNames.map (⟨·, .external⟩))

def plainSymbols (g : Grammar) : List Symbol := g.leadingSymbols ++ g.ruleNames.map .ofRule

def symbols (g : Grammar) : List Symbol :=
  (g.aliases.foldl g.addAlias g.plainSymbols.toArray).toList

end Grammar

def maxEntries : Nat := 65535

structure Tables where
  symbols : List Symbol
  /-- The names of the fields; an id is one more than the place. -/
  fields : List String
  externalCount : Nat
  startSymbol : UInt16
  deriving DecidableEq, Repr

inductive Tables.Defect
  | tooManyEntries (count : Nat)
  | undefinedStart (name : String)
  deriving DecidableEq, Repr

def Tables.Defect.message : Tables.Defect → String
  | tooManyEntries count =>
    toString count ++ " entries exceed the " ++ toString maxEntries ++ " table limit"
  | undefinedStart name => "start rule '" ++ name ++ "' is not defined"

def idOfNat? (n : Nat) : Option UInt16 := if n ≤ maxEntries then some (UInt16.ofNat n) else none

def Grammar.tables (g : Grammar) (start : String) : Except Tables.Defect Tables :=
  let symbols := g.symbols
  let fields := g.fieldNames.toList
  if maxEntries < symbols.length then .error (.tooManyEntries symbols.length)
  else if maxEntries < fields.length then .error (.tooManyEntries fields.length)
  else
    let skipped := g.leadingSymbols.length
    match (symbols.drop skipped).findIdx? (·.name = start) >>= fun i => idOfNat? (skipped + i) with
    | some startSymbol => .ok ⟨symbols, fields, g.externalNames.length, startSymbol⟩
    | none => .error (.undefinedStart start)

end GrammarLoader
