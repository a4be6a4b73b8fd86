import GrammarLoader.Json.Value
import GrammarLoader.Rule.Basic

/-!
Writing rules: a node becomes a map of the entries that it has.
-/

namespace GrammarLoader.Rule

def jsonString (s : String) : Json.Value := .scalar (.string s)

def Value.toJson : Rule.Value → Json.Value
  | .text s => jsonString s
  | .number n => .scalar (.int n)

def entry (key : String) (value : Option Json.Value) : List (String × Json.Value) :=
  (value.map (key, ·)).toList

mutual

def toJson : Rule → Json.Value
  | node label members content =>
    .map <| ("type", jsonString label.kind.name) ::
      (entry "value" (label.value.map Value.toJson) ++
      entry "name" (label.name.map jsonString) ++
      entry "members" (membersToJson members) ++
      entry "content" (contentToJson content) ++
      entry "named" (label.named.map (.scalar <| .bool ·)) ++
      entry "flags" (label.flags.map jsonString) ++
      entry "context_name" (label.contextName.map jsonString))

def membersToJson : Option (List Rule) → Option Json.Value
  | some rules => some (.list (listToJson rules))
  | none => none

def listToJson : List Rule → List Json.Value
  | [] => []
  | r :: rules => toJson r :: listToJson rules

def contentToJson : Option Rule → Option Json.Value
  | some r => some (toJson r)
  | none => none

end

end GrammarLoader.Rule
