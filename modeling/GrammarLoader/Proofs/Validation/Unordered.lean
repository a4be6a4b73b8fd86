import GrammarLoader.Proofs.Grammar.Listing
import GrammarLoader.Proofs.Validation.Reachability
import GrammarLoader.Validation.Validate

/-! Validation of rules in a table that keeps them in no particular order. The passes sort the names
before they walk over the rules, and look a rule up by its name; the search for rules that are not
reached goes over a stack of names. All that they find is what is found in the dictionary. -/

namespace GrammarLoader

theorem Dictionary.toList_eq {α : Type} (d : Dictionary α) :
    d.toList = d.keys.filterMap fun name => d[name]?.map (name, ·) := by
  rw [← Std.ExtTreeMap.map_fst_toList_eq_keys, List.filterMap_map]
  have hself : ∀ entry ∈ d.toList, d[entry.1]?.map (entry.1, ·) = some entry := by
    rintro ⟨name, a⟩ hmem
    rw [Dictionary.mem_toList.1 hmem]
    rfl
  exact (List.filterMap_some.symm.trans (List.filterMap_congr fun e he => (hself e he).symm))

namespace Listing

variable (l : Listing)

def rule? (name : String) : Option Rule := l.entries.lookup name

def names : List String := l.entries.map Prod.fst

def ruleNames : List String := l.names.mergeSort fun a b => decide (a ≤ b)

/-- The rules by name, each looked up when its name comes. -/
def namedRules : List (String × Rule) :=
  l.ruleNames.filterMap fun name => (l.rule? name).map (name, ·)

def entryViolation? (start : String) : Option Violation :=
  if l.entries.isEmpty then some .noRules
  else if l.names.contains start then none
  else some (.undefinedStart start)

def shapeViolation? : Option Violation :=
  (l.namedRules ++ l.sections.extraRules ++ l.sections.externalRules).findSome? fun (context, r) =>
    r.nodes.findSome? fun n => n.missingPart?.map (.incomplete n.kind context)

def definedNames : Names := .ofList (l.names ++ l.sections.externalNames)

def symbolViolation? (defined : Names) : Option Violation :=
  (l.namedRules ++ l.sections.extraRules).findSome? fun (context, r) =>
    (r.nodes.filterMap Rule.symbolName).findSome? fun name =>
      if defined.contains name then none else some (.undefinedSymbol name context)

def violation? (start : String) : Option Violation :=
  let defined := l.definedNames
  l.entryViolation? start <|> l.shapeViolation? <|> l.symbolViolation? defined <|>
    l.sections.listViolation? defined

/-- The number of rules that are not visited. -/
def unvisited (visited : Names) : Nat := (l.names.filter (!visited.contains ·)).length

theorem unvisited_insert_le (visited : Names) (name : String) :
    l.unvisited (visited.insert name) ≤ l.unvisited visited := by
  rw [unvisited, Names.filter_insert]
  exact List.length_filter_le _ _

theorem unvisited_insert_lt {visited : Names} {name : String} {r : Rule}
    (hname : visited.contains name = false) (hr : l.rule? name = some r) :
    l.unvisited (visited.insert name) < l.unvisited visited := by
  have hmem : name ∈ l.names := List.mem_map.2 ⟨(name, r), mem_of_lookup hr, rfl⟩
  rw [unvisited, Names.filter_insert]
  refine List.length_filter_lt_length_iff_exists.2 ⟨name, List.mem_filter.2 ⟨hmem, ?_⟩, ?_⟩
  · rw [hname]
    rfl
  · simp

/-- The names that are visited once the stack of those to visit is empty. -/
def visit (visited : Names) (stack : List String) : Names :=
  match stack with
  | [] => visited
  | name :: stack =>
    if _ : visited.contains name then visit visited stack
    else
      match _ : l.rule? name with
      | none => visit (visited.insert name) stack
      | some r => visit (visited.insert name) (r.references.reverse ++ stack)
termination_by (l.unvisited visited, stack.length)
decreasing_by
  · exact Prod.Lex.right _ (Nat.lt_succ_self _)
  · rcases Nat.lt_or_eq_of_le (l.unvisited_insert_le visited name) with hlt | heq
    · exact Prod.Lex.left _ _ hlt
    · rw [heq]
      exact Prod.Lex.right _ (Nat.lt_succ_self _)
  · exact Prod.Lex.left _ _ (l.unvisited_insert_lt (Bool.eq_false_iff.2 ‹_›) ‹_›)

def unreachableRules (start : String) : List String :=
  -- The roots are pushed in their order, so the last one is visited first.
  let visited := l.visit ∅ (l.sections.roots start).reverse
  l.ruleNames.filter fun name => !visited.contains name && !l.sections.isInlined name

def mixedRules : List (String × List Int) :=
  l.namedRules.filterMap fun (name, r) =>
    let levels := r.precedenceLevels
    if 1 < levels.length then some (name, levels) else none

def findings (start : String) : List Finding :=
  (l.unreachableRules start).map .unreachable ++
    l.mixedRules.map fun (name, levels) => .mixed name levels

def leftRecursiveRules : List String :=
  l.namedRules.filterMap fun (name, r) => if r.beginsWith name then some name else none

def recursionLog : List Event := l.leftRecursiveRules.map (.leftRecursive l.sections.name)

/-- Validates the grammar by walks over the table of its rules. -/
def validate (start : String) (strict : Bool) : Logged (Except Rejection (List Finding)) :=
  match l.violation? start with
  | some v => ⟨.error (.violation v), []⟩
  | none =>
    let findings := l.findings start
    if strict then
      match findings with
      | f :: _ => ⟨.error (.finding f), l.recursionLog⟩
      | [] => ⟨.ok [], l.recursionLog⟩
    else ⟨.ok findings, l.recursionLog ++ findings.map (.finding l.sections.name)⟩

def fresh? (visited : Names) (name : String) : Option Rule :=
  if name ∈ visited then none else l.rule? name

variable {l}

theorem fresh?_insert (visited : Names) (name : String) :
    l.fresh? (visited.insert name) = Function.update (l.fresh? visited) name none := by
  funext other
  unfold fresh?
  by_cases h : other = name
  · subst h
    rw [Function.update_self, if_pos (Std.ExtTreeSet.mem_insert.2 (.inl Std.ReflCmp.compare_self))]
  · rw [Function.update_of_ne h]
    have hiff : other ∈ visited.insert name ↔ other ∈ visited := by
      rw [Std.ExtTreeSet.mem_insert, or_iff_right]
      exact fun heq => h (Std.LawfulEqCmp.eq_of_compare heq).symm
    simp only [hiff]

/-- What is visited is what has been visited and what is reached from the stack over other rules. -/
theorem mem_visit {visited : Names} {stack : List String} {target : String} :
    target ∈ l.visit visited stack ↔
      target ∈ visited ∨ ReachedFrom (l.fresh? visited) stack target := by
  -- Induction on the turns: a name that is visited loses its rule for those that come after.
  fun_induction visit l visited stack with
  | case1 visited => simp [ReachedFrom.not_nil]
  | case2 visited name stack hname ih =>
    have hmem : name ∈ visited := hname
    have hnone : l.fresh? visited name = none := if_pos hmem
    refine ih.trans ?_
    rw [ReachedFrom.cons_of_none hnone]
    have hseen : target = name → target ∈ visited := fun heq => heq ▸ hmem
    tauto
  | case3 visited name stack hname hr ih =>
    have hmem : name ∉ visited := hname
    have hnone : l.fresh? visited name = none := by
      rw [fresh?, if_neg hmem, hr]
    have hsame : l.fresh? (visited.insert name) = l.fresh? visited := by
      rw [fresh?_insert, ← hnone, Function.update_eq_self]
    refine ih.trans ?_
    rw [hsame, Names.mem_insert, ReachedFrom.cons_of_none hnone]
    tauto
  | case4 visited name stack hname r hr ih =>
    have hmem : name ∉ visited := hname
    have hsome : l.fresh? visited name = some r := by
      rw [fresh?, if_neg hmem, hr]
    have hcongr {find : String → Option Rule} :
        ReachedFrom find (r.references.reverse ++ stack) target ↔
          ReachedFrom find (r.references ++ stack) target :=
      ReachedFrom.congr fun other => by simp
    refine ih.trans ?_
    rw [hcongr, fresh?_insert, Names.mem_insert, ReachedFrom.cons_of_some hsome]
    tauto

section
variable (h : DistinctNames l.entries)
include h

theorem rule?_eq (name : String) : l.grammar.rules[name]? = l.rule? name :=
  h.getElem?_ofEntries name

theorem mem_rules {name : String} : name ∈ l.grammar.rules ↔ name ∈ l.names := by
  rw [Std.ExtTreeMap.mem_iff_isSome_getElem?, rule?_eq h, ← not_iff_not, Bool.not_eq_true,
    Option.isSome_eq_false_iff, Option.isNone_iff_eq_none]
  exact lookup_eq_none_iff_names

theorem contains_rules (name : String) : l.grammar.rules.contains name = l.names.contains name := by
  rw [Bool.eq_iff_iff, Std.ExtTreeMap.contains_iff_mem, mem_rules h, List.contains_iff_mem]

theorem ruleNames_eq : l.ruleNames = l.grammar.ruleNames := by
  have hperm : l.ruleNames.Perm l.names := List.mergeSort_perm _ _
  have hsorted : l.ruleNames.Pairwise fun a b => decide (a ≤ b) = true := by
    refine List.pairwise_mergeSort ?_ ?_ l.names
    · intro a b c hab hbc
      exact decide_eq_true (le_trans (of_decide_eq_true hab) (of_decide_eq_true hbc))
    · intro a b
      simpa using le_total a b
  have hnodup : l.ruleNames.Nodup := hperm.nodup_iff.2 h
  have hascending : l.ruleNames.Pairwise (· < ·) :=
    hsorted.imp₂ (fun _ _ hle hne => lt_of_le_of_ne (of_decide_eq_true hle) hne) hnodup
  refine hascending.eq_of_mem_iff (Dictionary.ascending_keys _) fun name => ?_
  rw [hperm.mem_iff, ← mem_rules h]
  exact Grammar.mem_ruleNames.symm

theorem isEmpty_rules : l.grammar.rules.isEmpty = l.entries.isEmpty := by
  have hkeys : l.grammar.rules.keys = l.ruleNames := (ruleNames_eq h).symm
  have hperm : l.ruleNames.Perm l.names := List.mergeSort_perm _ _
  rw [← Std.ExtTreeMap.isEmpty_keys, hkeys, hperm.isEmpty_eq, names, List.isEmpty_map]

theorem namedRules_eq : l.namedRules = l.grammar.rules.toList := by
  rw [namedRules, ruleNames_eq h, Dictionary.toList_eq]
  simp only [rule?_eq h]
  rfl

theorem violation?_eq (start : String) : l.violation? start = l.grammar.violation? start := by
  have hentry : l.entryViolation? start = l.grammar.entryViolation? start := by
    rw [entryViolation?, Grammar.entryViolation?, isEmpty_rules h, contains_rules h]
  have hshape : l.shapeViolation? = l.grammar.shapeViolation? := by
    rw [shapeViolation?, namedRules_eq h]
    rfl
  have hdefined : l.definedNames = l.grammar.definedNames := by
    refine Std.ExtTreeSet.ext_mem fun name => ?_
    rw [definedNames, Grammar.definedNames, Names.mem_ofList, Names.mem_ofList, List.mem_append,
      List.mem_append, Grammar.mem_ruleNames, mem_rules h]
    rfl
  have hsymbol : l.symbolViolation? l.definedNames =
      l.grammar.symbolViolation? l.grammar.definedNames := by
    rw [symbolViolation?, namedRules_eq h, hdefined]
    rfl
  rw [violation?, Grammar.violation?, hentry, hshape, hsymbol, hdefined]
  rfl

theorem unreachableRules_eq (start : String) :
    l.unreachableRules start = l.grammar.unreachableRules start := by
  have hfresh : l.fresh? ∅ = fun name => l.grammar.rules[name]? := by
    funext name
    rw [fresh?, if_neg Std.ExtTreeSet.not_mem_empty, rule?_eq h]
  have hascending : l.ruleNames.Pairwise (· < ·) := by
    rw [ruleNames_eq h]
    exact Dictionary.ascending_keys _
  refine (hascending.filter _).eq_of_mem_iff ((Dictionary.ascending_keys _).filter _) fun name => ?_
  rw [Grammar.unreachableRules, List.mem_filter, List.mem_filter, Bool.and_eq_true, ← and_assoc]
  refine and_congr_left fun _ => ?_
  rw [ruleNames_eq h, Grammar.mem_ruleNames, Std.ExtTreeMap.mem_keys, Dictionary.mem_iff,
    Dictionary.mem_iff]
  simp only [Grammar.getElem?_withoutReachable, exists_and_right]
  refine and_congr_right fun _ => ?_
  rw [Bool.not_eq_true', ← Bool.not_eq_true, Std.ExtTreeSet.contains_iff_mem, mem_visit, hfresh,
    or_iff_right Std.ExtTreeSet.not_mem_empty, ReachedFrom.congr fun _ => List.mem_reverse]
  rfl

theorem findings_eq (start : String) : l.findings start = l.grammar.findings start := by
  rw [findings, unreachableRules_eq h, mixedRules, namedRules_eq h]
  rfl

theorem recursionLog_eq : l.recursionLog = l.grammar.recursionLog := by
  rw [recursionLog, leftRecursiveRules, namedRules_eq h]
  rfl

/-- A table in which no name comes twice is validated like the dictionary of its rules. -/
theorem validate_eq (start : String) (strict : Bool) :
    l.validate start strict = l.grammar.validate start strict := by
  rw [validate, Grammar.validate, violation?_eq h, findings_eq h, recursionLog_eq h]
  rfl

end
end Listing
end GrammarLoader
