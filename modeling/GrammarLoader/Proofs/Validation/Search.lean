import GrammarLoader.Proofs.Rule.Nodes
import GrammarLoader.Proofs.Validation.Reachability

/-! The search for the rules that can be reached, turn by turn. Each turn takes one name off a stack
and puts the names there that its rule refers to, unless it has been visited. The stack may grow, but
every rule puts its references there once, so the search ends; what it has visited then is what
references lead to. -/

namespace GrammarLoader

def Rule.Mentions (r : Rule) (name : String) : Prop :=
  ∃ n, r.Contains n ∧ n.kind = .symbol ∧ n.label.name = some name

theorem Rule.mem_references {r : Rule} {name : String} : name ∈ r.references ↔ r.Mentions name := by
  unfold Rule.references Rule.Mentions
  simp only [List.mem_filterMap, Rule.mem_nodes, Rule.symbolName, Option.ite_none_right_eq_some]

namespace Grammar

def Refers (g : Grammar) (name other : String) : Prop :=
  ∃ r, g.rule? name = some r ∧ r.Mentions other

/-- The start rule, and what extras mention. -/
def IsRoot (g : Grammar) (start name : String) : Prop :=
  name = start ∨ ∃ r ∈ g.extras.getD [], r.Mentions name

/-- The name is a root, or references lead there from one. -/
def Reachable (g : Grammar) (start name : String) : Prop :=
  ∃ root, g.IsRoot start root ∧ Relation.ReflTransGen g.Refers root name

variable {g : Grammar} {start name other : String}

theorem mem_roots : name ∈ g.roots start ↔ g.IsRoot start name := by
  unfold roots IsRoot
  simp only [List.mem_cons, List.mem_flatMap, Rule.mem_references]

theorem Reachable.root (h : g.IsRoot start name) : g.Reachable start name := ⟨name, h, .refl⟩

theorem Reachable.step (h : g.Reachable start name) (hr : g.Refers name other) :
    g.Reachable start other := by
  obtain ⟨root, hroot, hpath⟩ := h
  exact ⟨root, hroot, hpath.tail hr⟩

theorem reachedFrom_roots : ReachedFrom g.rule? (g.roots start) name ↔ g.Reachable start name := by
  have hrefers : RefersTo g.rule? = g.Refers := by
    funext name other
    simp only [RefersTo, Refers, Rule.mem_references]
  unfold ReachedFrom Reachable
  rw [hrefers]
  simp only [mem_roots]

def referencesOf (g : Grammar) (name : String) : List String :=
  (g.rule? name).elim [] Rule.references

theorem referencesOf_of_not_mem (h : name ∉ g.ruleNames) : g.referencesOf name = [] := by
  have hnone : g.rule? name = none := Std.ExtTreeMap.getElem?_eq_none fun hm => h (mem_ruleNames.2 hm)
  rw [referencesOf, hnone]
  rfl

theorem mem_referencesOf : other ∈ g.referencesOf name ↔ g.Refers name other := by
  unfold referencesOf Refers
  cases g.rule? name with
  | none => simp
  | some r => simp [Rule.mem_references]

end Grammar

/-- Where the search for rules stands. -/
structure Search where
  visited : Names
  stack : List String

namespace Search

variable (g : Grammar) (start : String)

/-- The roots are put on the stack in their order, so the last one is visited first. -/
def begin : Search := ⟨∅, (g.roots start).reverse⟩

def next? (q : Search) : Option Search :=
  match q.stack with
  | [] => none
  | name :: stack =>
    if q.visited.contains name then some ⟨q.visited, stack⟩
    else some ⟨q.visited.insert name, (g.referencesOf name).reverse ++ stack⟩

def visitedWithin (q : Search) : Nat → Option Names
  | 0 => none
  | turns + 1 =>
    match q.next? g with
    | some q => q.visitedWithin turns
    | none => some q.visited

/-- The names on the stack, and those that rules not yet visited will put there. -/
def cost (q : Search) : Nat :=
  q.stack.length +
    ((g.ruleNames.filter (!q.visited.contains ·)).flatMap g.referencesOf).length

variable {g start} {q q' : Search}

theorem next?_cases (h : q.next? g = some q') :
    (∃ name stack, q.stack = name :: stack ∧ name ∈ q.visited ∧ q' = ⟨q.visited, stack⟩) ∨
    (∃ name stack, q.stack = name :: stack ∧ name ∉ q.visited ∧
      q' = ⟨q.visited.insert name, (g.referencesOf name).reverse ++ stack⟩) := by
  unfold next? at h
  split at h
  · cases h
  · next name stack hstack =>
    split at h
    · next hv => exact .inl ⟨name, stack, hstack, hv, (Option.some.inj h).symm⟩
    · next hv => exact .inr ⟨name, stack, hstack, hv, (Option.some.inj h).symm⟩

theorem next?_eq_none_iff : q.next? g = none ↔ q.stack = [] := by
  unfold next?
  split
  · next hstack => simp [hstack]
  · next hstack => split <;> simp [hstack]

theorem length_flatMap_filter_ne {names : List String} (hn : names.Nodup)
    (f : String → List String) (name : String) (h : name ∉ names → f name = []) :
    (f name).length + ((names.filter (name ≠ ·)).flatMap f).length = (names.flatMap f).length := by
  by_cases hmem : name ∈ names
  · have herase : names.erase name = names.filter (name ≠ ·) := by
      rw [hn.erase_eq_filter]
      refine List.filter_congr fun other _ => ?_
      rw [Bool.eq_iff_iff, bne_iff_ne, decide_eq_true_eq, ne_comm]
    have hlength := ((List.perm_cons_erase hmem).flatMap_right f).length_eq
    rw [hlength, List.flatMap_cons, List.length_append, herase]
  · have hsame : names.filter (name ≠ ·) = names :=
      List.filter_eq_self.2 fun other ho => decide_eq_true fun heq => hmem (heq ▸ ho)
    rw [hsame, h hmem, List.length_nil, Nat.zero_add]

/-- Visiting a name moves its references from the rules to come to the stack. -/
theorem cost_insert {name : String} {stack : List String} (hname : name ∉ q.visited) :
    cost g ⟨q.visited.insert name, (g.referencesOf name).reverse ++ stack⟩ =
      cost g ⟨q.visited, stack⟩ := by
  have hnodup : (g.ruleNames.filter (!q.visited.contains ·)).Nodup :=
    ((Dictionary.ascending_keys g.rules).imp fun hlt => ne_of_lt hlt).filter _
  have hnone : name ∉ g.ruleNames.filter (!q.visited.contains ·) → g.referencesOf name = [] := by
    intro hmem
    refine Grammar.referencesOf_of_not_mem fun hrule => hmem (List.mem_filter.2 ⟨hrule, ?_⟩)
    rw [Bool.not_eq_true', ← Bool.not_eq_true]
    exact hname
  have hlength := length_flatMap_filter_ne hnodup g.referencesOf name hnone
  unfold cost
  dsimp only
  rw [Names.filter_insert, List.length_append, List.length_reverse, ← hlength]
  omega

theorem cost_next? (h : q.next? g = some q') : cost g q' + 1 = cost g q := by
  rcases next?_cases h with ⟨name, stack, hstack, -, rfl⟩ | ⟨name, stack, hstack, hname, rfl⟩
  · simp only [cost, hstack, List.length_cons]
    omega
  · rw [cost_insert hname]
    simp only [cost, hstack, List.length_cons]
    omega

def Knows (q : Search) (name : String) : Prop := name ∈ q.visited ∨ name ∈ q.stack

/-- What every turn keeps: the search knows the roots and what visited rules refer to, and nothing
that is not reachable. -/
structure Sound (g : Grammar) (start : String) (q : Search) : Prop where
  roots : ∀ name, g.IsRoot start name → q.Knows name
  closed : ∀ name other, name ∈ q.visited → g.Refers name other → q.Knows other
  reachable : ∀ name, q.Knows name → g.Reachable start name

theorem sound_begin : Sound g start (begin g start) where
  roots := fun name h => .inr (List.mem_reverse.2 (Grammar.mem_roots.2 h))
  closed := fun name other h => absurd h Std.ExtTreeSet.not_mem_empty
  reachable := by
    rintro name (h | h)
    · exact absurd h Std.ExtTreeSet.not_mem_empty
    · exact .root (Grammar.mem_roots.1 (List.mem_reverse.1 h))

theorem Sound.next? (h : Sound g start q) (hn : q.next? g = some q') : Sound g start q' := by
  rcases next?_cases hn with ⟨name, stack, hstack, hname, rfl⟩ | ⟨name, stack, hstack, hname, rfl⟩
  · have hknows : ∀ other, Knows ⟨q.visited, stack⟩ other ↔ q.Knows other := by
      intro other
      unfold Knows
      rw [hstack, List.mem_cons]
      constructor
      · exact Or.imp_right .inr
      · rintro (h | rfl | h)
        · exact .inl h
        · exact .inl hname
        · exact .inr h
    exact ⟨fun other hr => (hknows other).2 (h.roots other hr),
      fun a b ha hab => (hknows b).2 (h.closed a b ha hab),
      fun other ho => h.reachable other ((hknows other).1 ho)⟩
  · have hknows : ∀ other,
        Knows ⟨q.visited.insert name, (g.referencesOf name).reverse ++ stack⟩ other ↔
          q.Knows other ∨ g.Refers name other := by
      intro other
      unfold Knows
      rw [Names.mem_insert, List.mem_append, List.mem_reverse, Grammar.mem_referencesOf, hstack,
        List.mem_cons]
      tauto
    refine ⟨fun other hr => (hknows other).2 (.inl (h.roots other hr)), fun a b ha hab => ?_,
      fun other ho => ?_⟩
    · rcases Names.mem_insert.1 ha with rfl | ha
      · exact (hknows b).2 (.inr hab)
      · exact (hknows b).2 (.inl (h.closed a b ha hab))
    · rcases (hknows other).1 ho with ho | ho
      · exact h.reachable other ho
      · have hnow : g.Reachable start name :=
          h.reachable name (.inr (hstack ▸ List.mem_cons_self))
        exact hnow.step ho

/-- Once no name is left, what has been visited is what can be reached. -/
theorem Sound.mem_visited_iff (h : Sound g start q) (hn : q.next? g = none) (name : String) :
    name ∈ q.visited ↔ g.Reachable start name := by
  have hknows : ∀ other, q.Knows other ↔ other ∈ q.visited := by
    intro other
    unfold Knows
    rw [next?_eq_none_iff.1 hn]
    simp
  constructor
  · exact fun hv => h.reachable name (.inl hv)
  · rintro ⟨root, hroot, hpath⟩
    induction hpath with
    | refl => exact (hknows root).1 (h.roots root hroot)
    | tail _ hr ih => exact (hknows _).1 (h.closed _ _ ih hr)

/-- Whenever the search ends, it has visited what can be reached. -/
theorem Sound.mem_iff_of_visitedWithin (h : Sound g start q) {turns : Nat} {visited : Names}
    (hv : q.visitedWithin g turns = some visited) (name : String) :
    name ∈ visited ↔ g.Reachable start name := by
  induction turns generalizing q with
  | zero => cases hv
  | succ turns ih =>
    rw [Search.visitedWithin] at hv
    cases hn : q.next? g with
    | none =>
      rw [hn] at hv
      obtain rfl := Option.some.inj hv
      exact h.mem_visited_iff hn name
    | some q' =>
      rw [hn] at hv
      exact ih (h.next? hn) hv

theorem exists_visitedWithin (g : Grammar) (q : Search) :
    ∃ visited, q.visitedWithin g (cost g q + 1) = some visited := by
  induction hc : cost g q generalizing q with
  | zero =>
    have hn : q.next? g = none := by
      cases hn : q.next? g with
      | none => rfl
      | some q' =>
        have := cost_next? hn
        omega
    exact ⟨q.visited, by rw [Search.visitedWithin, hn]⟩
  | succ turns ih =>
    cases hn : q.next? g with
    | none => exact ⟨q.visited, by rw [Search.visitedWithin, hn]⟩
    | some q' =>
      have hcost : cost g q' = turns := by
        have := cost_next? hn
        omega
      obtain ⟨visited, hvisited⟩ := ih q' hcost
      refine ⟨visited, ?_⟩
      rw [Search.visitedWithin, hn]
      exact hvisited

end Search

namespace Grammar

variable {g : Grammar} {start name : String}

theorem mem_unreachableRules : name ∈ g.unreachableRules start ↔
    name ∈ g.rules ∧ ¬g.Reachable start name ∧ name ∉ g.inlined.getD [] := by
  unfold unreachableRules isInlined
  rw [List.mem_filter, Std.ExtTreeMap.mem_keys, Dictionary.mem_iff]
  simp only [getElem?_withoutReachable, exists_and_right]
  rw [← Dictionary.mem_iff, Bool.not_eq_true', ← Bool.not_eq_true, List.contains_iff_mem, and_assoc]
  exact Iff.rfl.and (not_congr reachedFrom_roots |>.and Iff.rfl)

theorem enumerates_unreachableRules : Enumerates (g.unreachableRules start) fun name =>
    name ∈ g.rules ∧ ¬g.Reachable start name ∧ name ∉ g.inlined.getD [] :=
  ⟨(Dictionary.ascending_keys _).filter _, fun _ => mem_unreachableRules⟩

theorem unreachableRules_eq_filter {turns : Nat} {visited : Names}
    (hv : (Search.begin g start).visitedWithin g turns = some visited) :
    g.unreachableRules start =
      g.ruleNames.filter fun name => !visited.contains name && !g.isInlined name := by
  refine enumerates_unreachableRules.unique ⟨(Dictionary.ascending_keys _).filter _, fun name => ?_⟩
  rw [List.mem_filter, mem_ruleNames, Bool.and_eq_true, Bool.not_eq_true', Bool.not_eq_true',
    ← Bool.not_eq_true, ← Bool.not_eq_true, isInlined, List.contains_iff_mem,
    ← Search.sound_begin.mem_iff_of_visitedWithin hv]
  exact Iff.rfl

/-- Nothing but extras and the rules that are reached has a say in what is reached. -/
theorem reachable_congr {g' : Grammar} (hextras : g'.extras = g.extras)
    (hrules : ∀ name, g.Reachable start name → g'.rule? name = g.rule? name) :
    g'.Reachable start name ↔ g.Reachable start name := by
  have hroot : ∀ root, g'.IsRoot start root ↔ g.IsRoot start root := by
    intro root
    unfold IsRoot
    rw [hextras]
  have hrefers : ∀ a b, g.Reachable start a → (g'.Refers a b ↔ g.Refers a b) := by
    intro a b ha
    unfold Refers
    rw [hrules a ha]
  constructor
  · rintro ⟨root, hr, hpath⟩
    induction hpath with
    | refl => exact .root ((hroot root).1 hr)
    | tail _ hab ih => exact ih.step ((hrefers _ _ ih).1 hab)
  · rintro ⟨root, hr, hpath⟩
    -- A reference is the same on both sides only from a name that is reached, so both go along.
    have hboth : g.Reachable start name ∧ g'.Reachable start name := by
      induction hpath with
      | refl => exact ⟨.root hr, .root ((hroot root).2 hr)⟩
      | tail _ hab ih => exact ⟨ih.1.step hab, ih.2.step ((hrefers _ _ ih.1).2 hab)⟩
    exact hboth.2

theorem unreachableRules_congr {g' : Grammar} (hextras : g'.extras = g.extras)
    (hrules : ∀ name, g.Reachable start name → g'.rule? name = g.rule? name)
    (hnames : g'.ruleNames = g.ruleNames) (hinlined : g'.inlined = g.inlined) :
    g'.unreachableRules start = g.unreachableRules start := by
  refine enumerates_unreachableRules.unique ⟨enumerates_unreachableRules.ascending, fun name => ?_⟩
  rw [mem_unreachableRules, reachable_congr hextras hrules, hinlined, ← mem_ruleNames, ← hnames,
    mem_ruleNames]

/-- The search ends within as many turns as there are references, and one for each root; the rules
reported are those, in ascending order, that it has not visited and that are not inlined. What it
visits is what references lead to: neither the rules that are not reached nor the sections other
than extras have a say in that. -/
theorem unreachableRules_exact (g : Grammar) (start : String) :
    (∃ visited, (Search.begin g start).visitedWithin g
        ((g.roots start).length + (g.ruleNames.flatMap g.referencesOf).length + 1) = some visited ∧
      (∀ name, name ∈ visited ↔ g.Reachable start name) ∧
      g.unreachableRules start =
        g.ruleNames.filter fun name => !visited.contains name && !g.isInlined name) ∧
    (Enumerates (g.unreachableRules start) fun name =>
      name ∈ g.rules ∧ ¬g.Reachable start name ∧ name ∉ g.inlined.getD []) ∧
    ∀ g' : Grammar, g'.extras = g.extras →
      (∀ name, g.Reachable start name → g'.rule? name = g.rule? name) →
        (∀ name, g'.Reachable start name ↔ g.Reachable start name) ∧
        (g'.ruleNames = g.ruleNames → g'.inlined = g.inlined →
          g'.unreachableRules start = g.unreachableRules start) := by
  refine ⟨?_, enumerates_unreachableRules, fun g' hextras hrules =>
    ⟨fun name => reachable_congr hextras hrules, unreachableRules_congr hextras hrules⟩⟩
  have hcost : Search.cost g (Search.begin g start) =
      (g.roots start).length + (g.ruleNames.flatMap g.referencesOf).length := by
    have hall : g.ruleNames.filter (!(∅ : Names).contains ·) = g.ruleNames :=
      List.filter_eq_self.2 fun name _ => by simp
    rw [Search.cost, Search.begin, List.length_reverse, hall]
  obtain ⟨visited, hvisited⟩ := Search.exists_visitedWithin g (Search.begin g start)
  rw [hcost] at hvisited
  exact ⟨visited, hvisited, Search.sound_begin.mem_iff_of_visitedWithin hvisited,
    unreachableRules_eq_filter hvisited⟩

end Grammar
end GrammarLoader
