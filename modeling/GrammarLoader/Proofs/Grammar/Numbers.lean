import GrammarLoader.Grammar.Decode
import GrammarLoader.Proofs.Json.Yield
import GrammarLoader.Proofs.Rule.Nodes

/-! The numbers in a grammar that was read from a text. A number that 32 bits do not hold is not
accepted as a value, so none is in any node, however deep. -/

namespace GrammarLoader

def Is32Bit (n : Int) : Prop := -2147483648 ≤ n ∧ n ≤ 2147483647

namespace Rule

open Json

def Value.Fits (value : Value) : Prop := ∀ n, value = .number n → Is32Bit n

def Fits (r : Rule) : Prop := ∀ n, r.Contains n → ∀ value ∈ n.label.value, value.Fits

theorem contains_iff {r n : Rule} : r.Contains n ↔ n = r ∨ ∃ c ∈ r.children, c.Contains n := by
  constructor
  · rintro (_ | ⟨-, hc, h⟩)
    · exact .inl rfl
    · exact .inr ⟨_, hc, h⟩
  · rintro (rfl | ⟨c, hc, h⟩)
    · exact .top n
    · exact .child trivial hc h

theorem fits_iff {r : Rule} :
    r.Fits ↔ (∀ value ∈ r.label.value, value.Fits) ∧ ∀ c ∈ r.children, c.Fits := by
  constructor
  · exact fun h => ⟨h r (.top r), fun c hc n hn => h n (.child trivial hc hn)⟩
  · rintro ⟨hr, hchildren⟩ n hn
    rcases contains_iff.1 hn with rfl | ⟨c, hc, hn⟩
    · exact hr
    · exact hchildren c hc n hn

theorem fits_node {label : Label} {members : Option (List Rule)} {content : Option Rule} :
    (node label members content).Fits ↔ (∀ value ∈ label.value, value.Fits) ∧
      (∀ rules ∈ members, ∀ r ∈ rules, r.Fits) ∧ ∀ c ∈ content, c.Fits := by
  have hmembers : (∀ r ∈ members.getD [], r.Fits) ↔ ∀ rules ∈ members, ∀ r ∈ rules, r.Fits := by
    cases members <;> simp
  rw [fits_iff, children, List.forall_mem_append, hmembers]
  simp only [Option.mem_toList]
  exact Iff.rfl

theorem Value.yields_reader (levels : Nat) : (Value.reader levels).Yields Value.Fits := by
  refine .accept (.any _) ?_
  rintro json value - hvalue n rfl
  unfold ofJson at hvalue
  split at hvalue
  · cases hvalue
  · split at hvalue
    · next hfits =>
      cases hvalue
      exact hfits
    · cases hvalue
  · cases hvalue

theorem fits_keeps_fields {n : Nat} {content : Reader Rule} {member : Option (Reader Rule)}
    (hcontent : content.Yields Fits) (hmember : ∀ r ∈ member, r.Yields Fits) :
    ∀ f ∈ fields n content member, f.Keeps Fits := by
  have hlabel (r : Rule) (f : Label → Label) (h : r.Fits)
      (hf : ∀ value ∈ (f r.label).value, value.Fits) : (r.withLabel f).Fits := by
    cases r with
    | node label members content => exact fits_node.2 ⟨hf, (fits_node.1 h).2⟩
  have hself (r : Rule) (h : r.Fits) : ∀ value ∈ r.label.value, value.Fits := (fits_iff.1 h).1
  simp only [fields, List.forall_mem_cons]
  refine ⟨.needed _ (.any _) fun r _ h _ => hlabel r _ h (hself r h),
    .optional _ (Value.yields_reader n) fun r _ h hfound => hlabel r _ h hfound,
    .aside _ fun r _ h => hlabel r _ h (hself r h),
    .optional _ hcontent fun r found h hfound => ?_,
    .optional _ (.list hmember) fun r found h hfound => ?_,
    .aside _ fun r _ h => hlabel r _ h (hself r h), .aside _ fun r _ h => hlabel r _ h (hself r h),
    .aside _ fun r _ h => hlabel r _ h (hself r h), nofun⟩
  · cases r with
    | node label members content =>
      obtain ⟨hvalue, hmembers, -⟩ := fits_node.1 h
      exact fits_node.2 ⟨hvalue, hmembers, hfound⟩
  · cases r with
    | node label members content =>
      obtain ⟨hvalue, -, hcontent⟩ := fits_node.1 h
      exact fits_node.2 ⟨hvalue, hfound, hcontent⟩

theorem fits_readers (n : Nat) :
    (readers n).1.Yields Fits ∧ ∀ member ∈ (readers n).2, member.Yields Fits := by
  induction n with
  | zero => exact ⟨.container nofun nofun (.refuse _), nofun⟩
  | succ n ih =>
    constructor
    · refine .record _ ?_ (fits_node.2 ⟨nofun, nofun, nofun⟩)
      rintro _ ⟨⟩
      exact fits_keeps_fields ih.1 ih.2
    · rintro _ ⟨⟩
      exact ih.1

end Rule

namespace Grammar

open Json

def RulesFit (g : Grammar) : Prop := ∀ name r, g.rule? name = some r → r.Fits

theorem rulesFit_keeps_fields : ∀ f ∈ fields, f.Keeps RulesFit := by
  simp only [fields, List.forall_mem_cons]
  refine ⟨.aside _ fun _ _ h => h, .needed _ (.any _) fun _ _ h _ => h, .aside _ fun _ _ h => h,
    .needed _ (.dictionary ?_) fun _ _ _ hrules => hrules,
    .aside _ fun _ _ h => h, .aside _ fun _ _ h => h, .aside _ fun _ _ h => h,
    .aside _ fun _ _ h => h, .aside _ fun _ _ h => h, .aside _ fun _ _ h => h,
    .aside _ fun _ _ h => h, .aside _ fun _ _ h => h, nofun⟩
  rintro _ ⟨⟩
  exact (Rule.fits_readers (levels - 1)).1

/-- No rule that is read from a text has a number that 32 bits do not hold. -/
theorem rulesFit_of_ofText {text : String} {g : Grammar} (h : ofText text = .ok g) : g.RulesFit := by
  have hstart : start.RulesFit := by
    intro name r hr
    rw [rule?, start, Std.ExtTreeMap.getElem?_empty] at hr
    cases hr
  have hreader : reader.Yields RulesFit := by
    refine .record _ ?_ hstart
    rintro _ ⟨⟩
    exact rulesFit_keeps_fields
  exact hreader.readAll h

end Grammar
end GrammarLoader
