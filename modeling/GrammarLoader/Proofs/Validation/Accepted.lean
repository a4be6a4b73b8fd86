import GrammarLoader.Proofs.Dictionary
import GrammarLoader.Proofs.Rule.Nodes
import GrammarLoader.Validation.Validate

/-! What is known of a grammar that validation accepts. -/

namespace GrammarLoader.Grammar

variable {g : Grammar} {start : String}

theorem violation?_eq_none_of_ok {strict : Bool} {findings : List Finding}
    (h : (g.validate start strict).result = .ok findings) : g.violation? start = none := by
  unfold validate at h
  split at h
  · cases h
  · next hv => exact hv

theorem result_validate (h : g.violation? start = none) :
    (g.validate start false).result = .ok (g.findings start) := by
  unfold validate
  rw [h]
  rfl

theorem violation?_eq_none_iff :
    g.violation? start = none ↔ g.entryViolation? start = none ∧ g.shapeViolation? = none ∧
      g.symbolViolation? g.definedNames = none ∧ g.listViolation? g.definedNames = none := by
  simp only [violation?, Option.orElse_eq_orElse, Option.orElse_eq_or, Option.or_eq_none_iff]

theorem start_mem_rules (h : g.violation? start = none) : start ∈ g.rules := by
  have he := (violation?_eq_none_iff.1 h).1
  unfold entryViolation? at he
  split at he
  · cases he
  · split at he
    · next hc => exact Std.ExtTreeMap.mem_iff_contains.2 hc
    · cases he

theorem missingPart?_external (h : g.violation? start = none) {r n : Rule}
    (hr : r ∈ g.externals.getD []) (hn : r.Contains n) : n.missingPart? = none := by
  have hs := List.findSome?_eq_none_iff.1 (violation?_eq_none_iff.1 h).2.1 ("externals", r)
    (List.mem_append_right _ (List.mem_map.2 ⟨r, hr, rfl⟩))
  simpa using List.findSome?_eq_none_iff.1 hs n (Rule.mem_nodes.2 hn)

theorem name_of_external (h : g.violation? start = none) {r : Rule}
    (hr : r ∈ g.externals.getD []) (hk : r.kind = .symbol) : ∃ name, r.label.name = some name := by
  have hm := missingPart?_external h hr (.top r)
  rw [Rule.missingPart?, hk, Rule.Kind.parts, List.find?_eq_none] at hm
  have hp := hm .name List.mem_cons_self
  cases hname : r.label.name with
  | none => simp [Rule.Part.presentIn, hname] at hp
  | some name => exact ⟨name, rfl⟩

theorem validate_lenient (h : g.violation? start = none) :
    g.validate start false =
      ⟨.ok (g.findings start), g.recursionLog ++ (g.findings start).map (.finding g.name)⟩ := by
  rw [validate, h]
  rfl

theorem validate_strict_of_nil (h : g.violation? start = none) (hf : g.findings start = []) :
    g.validate start true = ⟨.ok [], g.recursionLog⟩ := by
  rw [validate, h]
  simp only [hf, if_true]

theorem validate_strict_of_cons (h : g.violation? start = none) {f : Finding} {more : List Finding}
    (hf : g.findings start = f :: more) :
    g.validate start true = ⟨.error (.finding f), g.recursionLog⟩ := by
  rw [validate, h]
  simp only [hf, if_true]

theorem ascending_namedRules (g : Grammar) : (g.namedRules.map Prod.fst).Pairwise (· < ·) := by
  rw [namedRules, Std.ExtTreeMap.map_fst_toList_eq_keys]
  exact Dictionary.ascending_keys g.rules

/-- What is kept of ascending entries stands in ascending order. -/
theorem ascending_filterMap {α β : Type} {entries : List α} {key : α → String} {name : β → String}
    {f : α → Option β} (h : (entries.map key).Pairwise (· < ·))
    (hf : ∀ a b, f a = some b → name b = key a) :
    ((entries.filterMap f).map name).Pairwise (· < ·) := by
  rw [List.pairwise_map] at h ⊢
  refine List.Pairwise.filterMap f (fun a a' hlt b hb b' hb' => ?_) h
  rw [hf a b hb, hf a' b' hb']
  exact hlt

end GrammarLoader.Grammar
