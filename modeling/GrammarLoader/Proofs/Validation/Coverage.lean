import GrammarLoader.Proofs.Validation.Violations
import GrammarLoader.Rule.Build

/-! What validation looks at. A grammar is accepted exactly if the nodes of its rules, extras and
external tokens are complete and the names in its rules, extras and lists are defined. The reserved
words, the orders of precedence and the symbols inside of external tokens are not looked at: names
may dangle there, and nodes of reserved words may be incomplete. -/

namespace GrammarLoader

theorem Rule.missingPart?_eq_none_iff {n : Rule} :
    n.missingPart? = none ↔ ∀ part ∈ n.kind.parts, part.presentIn n = true := by
  simp [missingPart?]

namespace Grammar

inductive RuleSection
  | rules
  | extras
  | externals
  | reservedWords

def rulesIn (g : Grammar) : RuleSection → List Rule
  | .rules => g.rules.toList.map Prod.snd
  | .extras => g.extras.getD []
  | .externals => g.externals.getD []
  | .reservedWords => (g.reservedWords.getD ∅).toList.flatMap Prod.snd

def CompleteIn (g : Grammar) (s : RuleSection) : Prop :=
  ∀ r ∈ g.rulesIn s, ∀ n, r.Contains n → ∀ part ∈ n.kind.parts, part.presentIn n = true

/-- Every symbol in the section is a rule or an external token. -/
def ResolvedIn (g : Grammar) (s : RuleSection) : Prop :=
  ∀ r ∈ g.rulesIn s, ∀ n, r.Contains n → ∀ name, n.symbolName = some name → g.Defines name

/-- Every symbol in an order of precedences is a rule or an external token. -/
def OrdersResolved (g : Grammar) : Prop :=
  ∀ order ∈ g.precedences.getD [], ∀ name, .symbol name ∈ order → g.Defines name

def Lists (g : Grammar) (name : String) : Prop :=
  name ∈ g.inlined.getD [] ∨ name ∈ g.supertypes.getD [] ∨ g.word = some name ∨
    ∃ group ∈ g.conflicts.getD [], name ∈ group

/-- Nothing in the grammar is incomplete, and nothing in it dangles. -/
structure Intact (g : Grammar) : Prop where
  complete : ∀ s, g.CompleteIn s
  resolved : ∀ s, g.ResolvedIn s
  orders : g.OrdersResolved

/-- As much of that as validation asks for, and the names that it asks for besides. -/
structure Covered (g : Grammar) (start : String) : Prop where
  start : start ∈ g.rules
  rules : g.CompleteIn .rules ∧ g.ResolvedIn .rules
  extras : g.CompleteIn .extras ∧ g.ResolvedIn .extras
  externals : g.CompleteIn .externals
  listed : ∀ name, g.Lists name → g.Defines name

variable {g : Grammar} {start : String}

theorem entryViolation?_eq_none_iff : g.entryViolation? start = none ↔ start ∈ g.rules := by
  rw [← Option.map_eq_none_iff, ← head?_entryViolations, List.head?_eq_none_iff, entryViolations]
  by_cases hs : start ∈ g.rules
  · have he : g.rules.isEmpty = false :=
      Std.ExtTreeMap.isEmpty_eq_false_iff.2 (Std.ExtTreeMap.ne_empty_of_mem hs)
    simp [hs, he]
  · simp [hs]

theorem findSome?_nodes_eq_none_iff {rules : List (String × Rule)}
    {find : String → Rule → Option String} :
    (rules.findSome? fun (context, r) => r.nodes.findSome? (find context)) = none ↔
      ∀ entry ∈ rules, ∀ n, entry.2.Contains n → find entry.1 n = none := by
  simp only [List.findSome?_eq_none_iff, Rule.mem_nodes]

theorem incompleteNode_eq_none_iff {context : String} {n : Rule} :
    incompleteNode context n = none ↔ ∀ part ∈ n.kind.parts, part.presentIn n = true := by
  rw [incompleteNode, Option.map_eq_none_iff, ← Rule.missingPart?_eq_firstLack,
    Option.map_eq_none_iff, Rule.missingPart?_eq_none_iff]

theorem danglingSymbol_eq_none_iff {context : String} {n : Rule} :
    g.danglingSymbol context n = none ↔ ∀ name, n.symbolName = some name → g.Defines name := by
  unfold danglingSymbol Rule.symbolName
  split
  · cases n.label.name <;> simp
  · simp

theorem shapeViolation?_eq_none_iff :
    g.shapeViolation? = none ↔
      g.CompleteIn .rules ∧ g.CompleteIn .extras ∧ g.CompleteIn .externals := by
  rw [← Option.map_eq_none_iff, ← head?_incompleteNodes, head?_nodeViolations,
    findSome?_nodes_eq_none_iff]
  simp only [incompleteNode_eq_none_iff, CompleteIn, rulesIn, namedRules, extraRules, externalRules,
    List.forall_mem_append, List.forall_mem_map, and_assoc]

theorem symbolViolation?_eq_none_iff :
    g.symbolViolation? g.definedNames = none ↔ g.ResolvedIn .rules ∧ g.ResolvedIn .extras := by
  rw [← Option.map_eq_none_iff, ← head?_danglingSymbols, head?_nodeViolations,
    findSome?_nodes_eq_none_iff]
  simp only [danglingSymbol_eq_none_iff, ResolvedIn, rulesIn, namedRules, extraRules,
    List.forall_mem_append, List.forall_mem_map]

theorem danglingNames_eq_nil_iff {listedIn : String} {names : List String} :
    g.danglingNames listedIn names = [] ↔ ∀ name ∈ names, g.Defines name := by
  simp [danglingNames, List.filterMap_eq_nil_iff]

theorem listViolation?_eq_none_iff :
    g.listViolation? g.definedNames = none ↔ ∀ name, g.Lists name → g.Defines name := by
  rw [← Option.map_eq_none_iff, ← head?_listViolations, List.head?_eq_none_iff, listViolations]
  simp only [List.append_eq_nil_iff, danglingNames_eq_nil_iff, Lists, or_imp, forall_and,
    Option.mem_toList, List.mem_flatten, and_assoc]

theorem violation?_eq_none_iff_covered : g.violation? start = none ↔ g.Covered start := by
  rw [violation?_eq_none_iff, entryViolation?_eq_none_iff, shapeViolation?_eq_none_iff,
    symbolViolation?_eq_none_iff, listViolation?_eq_none_iff]
  constructor
  · rintro ⟨hs, ⟨hr, hx, ht⟩, ⟨hr', hx'⟩, hl⟩
    exact ⟨hs, ⟨hr, hr'⟩, ⟨hx, hx'⟩, ht, hl⟩
  · rintro ⟨hs, ⟨hr, hr'⟩, ⟨hx, hx'⟩, ht, hl⟩
    exact ⟨hs, ⟨hr, hx, ht⟩, ⟨hr', hx'⟩, hl⟩

/-- Validation accepts a grammar exactly if it is covered, and not even its answer and its log
depend on the reserved words and the orders of precedence. -/
theorem validate_coverage (g : Grammar) (start : String) :
    ((∃ strict findings, (g.validate start strict).result = .ok findings) ↔ g.Covered start) ∧
    ∀ words orders strict,
      ({ g with reservedWords := words, precedences := orders } : Grammar).validate start strict =
        g.validate start strict := by
  refine ⟨?_, fun _ _ _ => rfl⟩
  rw [← violation?_eq_none_iff_covered]
  constructor
  · rintro ⟨strict, findings, h⟩
    exact violation?_eq_none_of_ok h
  · intro h
    exact ⟨false, g.findings start, result_validate h⟩

/-- A grammar with a name that nothing defines among its reserved words, among its precedences and
inside of an external token, and with an incomplete node among its reserved words. -/
def loose : Grammar :=
  { schema := none, name := "list", inherits := none, extras := none, inlined := none,
    conflicts := none, word := none, supertypes := none, rules := .ofList [("list", Rule.blank)],
    externals := some [.seq [.symbol "item"]], precedences := some [[.symbol "item"]],
    reservedWords := some (.ofList [("words", [Rule.symbol "item", Rule.seq []])]) }

theorem withoutReachable_cons {unvisited : Dictionary Rule} {name : String} {r : Rule}
    (h : unvisited[name]? = some r) (pending : List String) :
    withoutReachable unvisited (name :: pending) =
      withoutReachable (unvisited.erase name) (r.references ++ pending) := by
  rw [withoutReachable]
  split
  · next hnone => rw [h] at hnone; cases hnone
  · next hsome => rw [h] at hsome; cases hsome; rfl

theorem findings_loose : loose.findings "list" = [] := by
  have hroots : loose.roots "list" = ["list"] := rfl
  have hrule : loose.rules["list"]? = some .blank := rfl
  have hnone : Rule.blank.references = [] := by decide +kernel
  have hreach : withoutReachable loose.rules ["list"] = loose.rules.erase "list" := by
    rw [withoutReachable_cons hrule, hnone, List.append_nil, withoutReachable]
  rw [findings, unreachableRules, hroots, hreach]
  decide +kernel

/-- Not even strict validation finds anything in it. -/
theorem validate_loose :
    (loose.validate "list" true).result = .ok [] ∧
      ¬loose.CompleteIn .reservedWords ∧ ¬loose.ResolvedIn .reservedWords ∧
      ¬loose.ResolvedIn .externals ∧ ¬loose.OrdersResolved ∧
      ¬∀ (g : Grammar) start strict findings,
        (g.validate start strict).result = .ok findings → g.Intact := by
  have hok : (loose.validate "list" true).result = .ok [] := by
    have hv : loose.violation? "list" = none := by decide +kernel
    rw [validate, hv, findings_loose]
    rfl
  have hitem : ¬loose.Defines "item" := by decide +kernel
  have hwords : loose.rulesIn .reservedWords = [.symbol "item", .seq []] := rfl
  have hdangling : ¬loose.ResolvedIn .reservedWords := fun h =>
    hitem (h (.symbol "item") (by rw [hwords]; exact List.mem_cons_self) _ (.top _) _ rfl)
  refine ⟨hok, fun h => ?_, hdangling, fun h => ?_, fun h => ?_, fun h => ?_⟩
  · have := h (.seq []) (by rw [hwords]; simp) _ (.top _) .members List.mem_cons_self
    cases this
  · exact hitem (h (.seq [.symbol "item"]) List.mem_cons_self _
      (.child trivial (List.mem_cons_self) (.top _)) _ rfl)
  · exact hitem (h _ List.mem_cons_self "item" List.mem_cons_self)
  · exact hdangling ((h loose "list" true [] hok).resolved _)

end Grammar
end GrammarLoader
