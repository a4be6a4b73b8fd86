import GrammarLoader.Decimal.Shortest
import GrammarLoader.Text.Quoted

/-!
The scalars of JSON, and how messages name a value that was found.
-/

namespace GrammarLoader.Json

/-- A value without parts. A number is an integer if it is written as one and 64 bits hold it. -/
inductive Scalar
  | null
  | bool (value : Bool)
  | int (value : Int)
  | float (value : Float)
  | string (value : String)

inductive Found
  | scalar (value : Scalar)
  | list
  | map

def Scalar.describe : Scalar → String
  | .null => "null"
  | .bool value => "boolean `" ++ (if value then "true" else "false") ++ "`"
  | .int value => "integer `" ++ toString value ++ "`"
  | .float value => "floating point `" ++ Decimal.text value ++ "`"
  | .string value => "string " ++ Text.quote value

def Found.describe : Found → String
  | .scalar value => value.describe
  | .list => "sequence"
  | .map => "map"

end GrammarLoader.Json
