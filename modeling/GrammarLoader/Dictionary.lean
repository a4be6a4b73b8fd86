import GrammarLoader.Json.Container
import Std.Data.ExtTreeMap
import Std.Data.ExtTreeSet

/-!
Values by name, and sets of names. Both forget the order in which their entries were made; they list
them in ascending order of the names. A dictionary is read from a map, and of several entries with
the same name the last one counts.
-/

namespace GrammarLoader

abbrev Dictionary (α : Type) := Std.ExtTreeMap String α compare

abbrev Names := Std.ExtTreeSet String compare

theorem Dictionary.size_erase_lt {d : Dictionary α} {name : String} {a : α}
    (h : d[name]? = some a) : (d.erase name).size < d.size := by
  have hm : name ∈ d := Std.ExtTreeMap.mem_iff_isSome_getElem?.2 (by simp [h])
  have hs : d.size ≠ 0 := fun h0 =>
    Std.ExtTreeMap.ne_empty_of_mem hm (Std.ExtTreeMap.eq_empty_iff_size_eq_zero.2 h0)
  rw [Std.ExtTreeMap.size_erase, if_pos (Std.ExtTreeMap.mem_iff_contains.1 hm)]
  omega

namespace Json

def Body.dictionary (value : Reader α) : Body (Dictionary α) :=
  .entries (fun found name => .ok (value.map (found.insert name ·))) ∅

/-- Reads a dictionary, unless no level is left for it and so no reader for its values. -/
def Reader.dictionary (value : Option (Reader α)) : Reader (Dictionary α) :=
  .container .refused (.ofOption (value.map .dictionary)) (.refuse "a map")

end Json
end GrammarLoader
