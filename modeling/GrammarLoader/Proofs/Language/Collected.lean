import GrammarLoader.Language.Tables
import GrammarLoader.Proofs.Dictionary
import GrammarLoader.Proofs.Rule.Nodes

/-!
Which names are collected from the rules of a grammar: those that its literals, its aliases and its
fields carry, told by which nodes are reached and not by how they are listed.
-/

namespace GrammarLoader.Grammar

/-- The literals that are symbols of their own: those that are reached without passing through a
literal or a token, in a rule that is not itself one literal. -/
def IsLiteral (g : Grammar) (value : String) : Prop :=
  ∃ name r n, g.rule? name = some r ∧ r.kind ≠ .string ∧
    Rule.Reaches (fun m => m.kind ∉ [.string, .token, .immediateToken]) r n ∧
      n.kind = .string ∧ n.textValue = some value

/-- The names that aliases give, to named nodes or to others. -/
def IsAlias (g : Grammar) (named : Bool) (value : String) : Prop :=
  ∃ name r n, g.rule? name = some r ∧ r.Contains n ∧
    n.kind = .aliased ∧ n.label.named.getD false = named ∧ n.textValue = some value

def IsField (g : Grammar) (value : String) : Prop :=
  ∃ name r n, g.rule? name = some r ∧ r.Contains n ∧
    n.kind = .field ∧ n.label.name = some value

variable {g : Grammar}

theorem mem_collect {names : Rule → List String} {value : String} :
    value ∈ g.collect names ↔ ∃ name r, g.rule? name = some r ∧ value ∈ names r := by
  unfold collect
  rw [Names.mem_ofList, List.mem_flatMap]
  constructor
  · rintro ⟨⟨name, r⟩, hr, hv⟩
    exact ⟨name, r, Dictionary.mem_toList.1 hr, hv⟩
  · rintro ⟨name, r, hr, hv⟩
    exact ⟨(name, r), Dictionary.mem_toList.2 hr, hv⟩

/-- What is collected is known once it is known which nodes of a rule the names come from. -/
theorem enumerates_collect {names : Rule → List String} {p : Rule → Rule → String → Prop}
    (h : ∀ r value, value ∈ names r ↔ ∃ n, p r n value) :
    Enumerates (g.collect names).toList fun value =>
      ∃ name r n, g.rule? name = some r ∧ p r n value := by
  refine ⟨Names.ascending_toList _, fun value => ?_⟩
  rw [Std.ExtTreeSet.mem_toList, mem_collect]
  constructor
  · rintro ⟨name, r, hr, hv⟩
    obtain ⟨n, hn⟩ := (h r value).1 hv
    exact ⟨name, r, n, hr, hn⟩
  · rintro ⟨name, r, n, hr, hn⟩
    exact ⟨name, r, hr, (h r value).2 ⟨n, hn⟩⟩

theorem showsLiterals_iff {r : Rule} :
    r.showsLiterals = true ↔ r.kind ∉ [.string, .token, .immediateToken] := by
  unfold Rule.showsLiterals
  cases r.kind <;> decide

theorem mem_literals {r : Rule} {value : String} :
    value ∈ r.literals ↔ ∃ n, r.kind ≠ .string ∧
      Rule.Reaches (fun m => m.kind ∉ [.string, .token, .immediateToken]) r n ∧
        n.kind = .string ∧ n.textValue = some value := by
  unfold Rule.literals
  split
  · next hk => simp [hk]
  · next hk =>
    simp only [List.mem_filterMap, Rule.mem_nodesIn, showsLiterals_iff, Rule.stringValue,
      ne_eq, hk, not_false_eq_true, true_and, Option.ite_none_right_eq_some]

theorem mem_aliasNames {r : Rule} {named : Bool} {value : String} :
    value ∈ r.aliasNames named ↔ ∃ n, r.Contains n ∧
      n.kind = .aliased ∧ n.label.named.getD false = named ∧ n.textValue = some value := by
  unfold Rule.aliasNames
  simp only [List.mem_filterMap, Rule.mem_nodes, Option.ite_none_right_eq_some, and_assoc]

theorem mem_fieldNames {r : Rule} {value : String} :
    value ∈ r.fieldNames ↔ ∃ n, r.Contains n ∧ n.kind = .field ∧ n.label.name = some value := by
  unfold Rule.fieldNames
  simp only [List.mem_filterMap, Rule.mem_nodes, Option.ite_none_right_eq_some]

theorem enumerates_literals : Enumerates g.literals.toList g.IsLiteral :=
  enumerates_collect fun _ _ => mem_literals

theorem enumerates_aliasNames (named : Bool) :
    Enumerates (g.collect (Rule.aliasNames · named)).toList (g.IsAlias named) :=
  enumerates_collect fun _ _ => mem_aliasNames

theorem enumerates_fieldNames : Enumerates g.fieldNames.toList g.IsField :=
  enumerates_collect fun _ _ => mem_fieldNames

theorem enumerates_ruleNames : Enumerates g.ruleNames (· ∈ g.rules) :=
  ⟨Dictionary.ascending_keys g.rules, fun _ => mem_ruleNames⟩

end GrammarLoader.Grammar
