import GrammarLoader.Json.Enumerated
import GrammarLoader.Json.Record
import GrammarLoader.Json.Value
import GrammarLoader.Rule.Basic

/-!
Reading rules. A node is a record whose `content` and `members` are nodes again, one and two
containers further in.
-/

namespace GrammarLoader.Rule

open Json

/-- The kind of a node, where `deeper` says whether a level is left for a container. -/
def Kind.reader (deeper : Bool) : Reader Kind :=
  .enumerated (Kind.all.map Kind.name) Kind.ofName? deeper

/-- A value is a text or an integer of 32 bits. -/
def Value.ofJson : Json.Value → Except Reason Rule.Value
  | .scalar (.string s) => .ok (.text s)
  | .scalar (.int n) =>
    if -2147483648 ≤ n ∧ n ≤ 2147483647 then .ok (.number n) else .error (.noVariant "RuleValue")
  | _ => .error (.noVariant "RuleValue")

def Value.reader (levels : Nat) : Reader Rule.Value :=
  (Json.Value.reader levels).accept Value.ofJson .unplaced

def withLabel (f : Label → Label) : Rule → Rule
  | node label members content => node (f label) members content

def withMembers (members : Option (List Rule)) : Rule → Rule
  | node label _ content => node label members content

def withContent (content : Option Rule) : Rule → Rule
  | node label members _ => node label members content

/--
The entries of a node. Containers in them may nest to `levels`; the readers of its children are
given.
-/
def fields (levels : Nat) (content : Reader Rule) (member : Option (Reader Rule)) :
    List (RecordField Rule) := [
  .needed "type" (Kind.reader (levels ≠ 0)) fun r kind => r.withLabel ({ · with kind }),
  .optional "value" (Value.reader levels) fun r value => r.withLabel ({ · with value }),
  .optional "name" .string fun r name => r.withLabel ({ · with name }),
  .optional "content" content fun r content => r.withContent content,
  .optional "members" (.list member) fun r members => r.withMembers members,
  .optional "named" .bool fun r named => r.withLabel ({ · with named }),
  .optional "flags" .string fun r flags => r.withLabel ({ · with flags }),
  .optional "context_name" .string fun r contextName => r.withLabel ({ · with contextName })]

def start : Rule := node (.ofKind .blank) none none

/--
Reads a rule, which may open `levels` containers inside one another. With it comes the reader for
one level less, if there is one: the members of a node lie one container further in than its
content.
-/
def readers : (levels : Nat) → Reader Rule × Option (Reader Rule)
  | 0 => (.record "struct Rule" none start, none)
  | n + 1 =>
    let (content, member) := readers n
    (.record "struct Rule" (some (fields n content member)) start, some content)

def reader (levels : Nat) : Reader Rule := (readers levels).1

/-- The most containers that a text may open inside one another. -/
def maxLevels : Nat := 127

def ofText (text : String) : Except ReadError Rule := (reader maxLevels).readAll text

end GrammarLoader.Rule
