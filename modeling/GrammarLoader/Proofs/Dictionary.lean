import GrammarLoader.Dictionary
import Mathlib.Data.List.Sort
import Mathlib.Data.String.Basic

/-! Names are listed in strictly ascending order, so a list of names is known once its members are. -/

namespace GrammarLoader

theorem ascending_of_compare {names : List String}
    (h : names.Pairwise fun a b => compare a b = .lt) : names.Pairwise (· < ·) :=
  h.imp compare_lt_iff_lt.1

theorem Names.ascending_toList (names : Names) : names.toList.Pairwise (· < ·) :=
  ascending_of_compare Std.ExtTreeSet.ordered_toList

theorem Dictionary.ascending_keys {α : Type} (d : Dictionary α) : d.keys.Pairwise (· < ·) :=
  ascending_of_compare Std.ExtTreeMap.ordered_keys

theorem Names.mem_ofList {names : List String} {name : String} :
    name ∈ (Std.ExtTreeSet.ofList names compare : Names) ↔ name ∈ names := by
  rw [Std.ExtTreeSet.mem_ofList, List.contains_iff_mem]

/-- One name more in a set is one name less outside it. -/
theorem Names.filter_insert (visited : Names) (name : String) (names : List String) :
    names.filter (!(visited.insert name).contains ·) =
      (names.filter (!visited.contains ·)).filter (name ≠ ·) := by
  rw [List.filter_filter]
  refine List.filter_congr fun other _ => ?_
  rw [Std.ExtTreeSet.contains_insert, Bool.not_or]
  congr 1
  rw [Bool.eq_iff_iff]
  simp [Std.LawfulEqCmp.compare_eq_iff_eq]

theorem Names.mem_insert {visited : Names} {name other : String} :
    other ∈ visited.insert name ↔ other = name ∨ other ∈ visited := by
  rw [Std.ExtTreeSet.mem_insert, Std.LawfulEqCmp.compare_eq_iff_eq, eq_comm]

theorem Dictionary.mem_toList {α : Type} {d : Dictionary α} {name : String} {a : α} :
    (name, a) ∈ d.toList ↔ d[name]? = some a :=
  Std.ExtTreeMap.mem_toList_iff_getElem?_eq_some

theorem Dictionary.mem_iff {α : Type} {d : Dictionary α} {name : String} :
    name ∈ d ↔ ∃ a, d[name]? = some a := by
  rw [Std.ExtTreeMap.mem_iff_isSome_getElem?, Option.isSome_iff_exists]

/-- The names with a property, each once and in ascending order. -/
structure Enumerates (names : List String) (p : String → Prop) : Prop where
  ascending : names.Pairwise (· < ·)
  mem_iff : ∀ name, name ∈ names ↔ p name

variable {names : List String} {p q : String → Prop}

theorem Enumerates.unique {others : List String} (h : Enumerates names p)
    (h' : Enumerates others p) : names = others :=
  h.ascending.eq_of_mem_iff h'.ascending fun name => (h.mem_iff name).trans (h'.mem_iff name).symm

theorem Enumerates.nodup (h : Enumerates names p) : names.Nodup :=
  h.ascending.imp fun hlt => ne_of_lt hlt

theorem Enumerates.filter (h : Enumerates names p) {keep : String → Bool}
    (hk : ∀ name, keep name = true ↔ q name) :
    Enumerates (names.filter keep) fun name => p name ∧ q name := by
  refine ⟨h.ascending.filter _, fun name => ?_⟩
  rw [List.mem_filter, h.mem_iff, hk]

end GrammarLoader
