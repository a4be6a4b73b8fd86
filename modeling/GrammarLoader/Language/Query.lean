import GrammarLoader.Language.Load

/-!
What can be asked of a language: its symbols and fields by id or by name, and its scanner.
-/

namespace GrammarLoader.Language

def symbolCount (l : Language) : Nat := l.tables.symbols.length

def symbol? (l : Language) (id : UInt16) : Option Symbol := l.tables.symbols[id.toNat]?

def symbolName? (l : Language) (id : UInt16) : Option String := (l.symbol? id).map (·.name)

def isNamed (l : Language) (id : UInt16) : Bool := (l.symbol? id).any (·.isNamed)

def isVisible (l : Language) (id : UInt16) : Bool := (l.symbol? id).any (·.isVisible)

/-- The id of the first symbol of a name, among those that are named or among those that are not. -/
def symbolId? (l : Language) (name : String) (named : Bool) : Option UInt16 :=
  l.tables.symbols.findIdx? (fun s => s.name = name ∧ s.isNamed = named) >>= idOfNat?

def fieldCount (l : Language) : Nat := l.tables.fields.length

/-- The name of the field of an id; the first id is 1. -/
def fieldName? (l : Language) (id : UInt16) : Option String :=
  if id = 0 then none else l.tables.fields[id.toNat - 1]?

def fieldId? (l : Language) (name : String) : Option UInt16 :=
  l.tables.fields.findIdx? (· = name) >>= fun i => idOfNat? (i + 1)

def scanner? (l : Language) : Option Layout.Scanner :=
  if 0 < l.tables.externalCount then some .initial else none

end GrammarLoader.Language
