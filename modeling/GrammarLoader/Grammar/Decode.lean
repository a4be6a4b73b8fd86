import GrammarLoader.Grammar.PrecedenceReader
import GrammarLoader.Rule.Decode

/-!
Reading grammars.
-/

namespace GrammarLoader.Grammar

open Json

def start : Grammar :=
  ⟨none, "", none, ∅, none, none, none, none, none, none, none, none⟩

def levels : Nat := Rule.maxLevels - 1

def ruleList : Reader (List Rule) := .list (some (Rule.reader (levels - 1)))

def nameList : Reader (List String) := .list (some .string)

def fields : List (RecordField Grammar) := [
  .optional "$schema" .string fun g schema => { g with schema },
  .needed "name" .string fun g name => { g with name },
  .optional "inherits" .string fun g inherits => { g with inherits },
  .needed "rules" (.dictionary (some (Rule.reader (levels - 1)))) fun g rules => { g with rules },
  .optional "extras" ruleList fun g extras => { g with extras },
  .optional "externals" ruleList fun g externals => { g with externals },
  .optional "inline" nameList fun g inlined => { g with inlined },
  .optional "precedences"
    (.list (some (.list (some (Precedence.reader (some (Value.reader (levels - 3))))))))
    fun g precedences => { g with precedences },
  .optional "conflicts" (.list (some nameList)) fun g conflicts => { g with conflicts },
  .optional "reserved" (.dictionary (some (.list (some (Rule.reader (levels - 2))))))
    fun g reservedWords => { g with reservedWords },
  .optional "word" .string fun g word => { g with word },
  .optional "supertypes" nameList fun g supertypes => { g with supertypes }]

def reader : Reader Grammar := .record "struct Grammar" (some fields) start

def ofText (text : String) : Except ReadError Grammar := reader.readAll text

end GrammarLoader.Grammar
