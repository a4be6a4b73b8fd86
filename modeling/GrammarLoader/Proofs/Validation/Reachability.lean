import GrammarLoader.Proofs.Dictionary
import GrammarLoader.Validation.Finding
import Mathlib.Logic.Function.Basic
import Mathlib.Logic.Relation

/-! Which names are reached by references. A search visits a name, forgets its rule and goes on with
the names that the rule refers to: what is reached then is what was reached before, but for that
name. -/

namespace GrammarLoader

variable {rule? : String → Option Rule} {name target : String} {r : Rule}
  {pending others : List String}

def RefersTo (rule? : String → Option Rule) (name other : String) : Prop :=
  ∃ r, rule? name = some r ∧ other ∈ r.references

/-- The name is one of the roots, or rules lead there from one of them. -/
def ReachedFrom (rule? : String → Option Rule) (roots : List String) (name : String) : Prop :=
  ∃ root ∈ roots, Relation.ReflTransGen (RefersTo rule?) root name

namespace ReachedFrom

theorem congr (h : ∀ name, name ∈ pending ↔ name ∈ others) :
    ReachedFrom rule? pending target ↔ ReachedFrom rule? others target := by
  simp only [ReachedFrom, h]

theorem not_nil : ¬ReachedFrom rule? [] target := by
  rintro ⟨_, hroot, _⟩
  cases hroot

theorem cons_iff : ReachedFrom rule? (name :: pending) target ↔
    Relation.ReflTransGen (RefersTo rule?) name target ∨ ReachedFrom rule? pending target := by
  simp only [ReachedFrom, List.exists_mem_cons_iff]

theorem step (h : ReachedFrom rule? pending name) (hr : RefersTo rule? name target) :
    ReachedFrom rule? pending target := by
  obtain ⟨root, hroot, hpath⟩ := h
  exact ⟨root, hroot, hpath.tail hr⟩

theorem cons_of_none (h : rule? name = none) :
    ReachedFrom rule? (name :: pending) target ↔
      target = name ∨ ReachedFrom rule? pending target := by
  rw [cons_iff]
  refine or_congr_left ⟨fun hpath => ?_, fun heq => heq ▸ .refl⟩
  rcases hpath.cases_head with rfl | ⟨other, ⟨r, hr, -⟩, -⟩
  · rfl
  · rw [h] at hr
    cases hr

theorem refersTo_of_update {other : String}
    (h : RefersTo (Function.update rule? name none) target other) :
    RefersTo rule? target other := by
  obtain ⟨r, hr, hmem⟩ := h
  have hne : target ≠ name := by
    rintro rfl
    rw [Function.update_self] at hr
    cases hr
  rw [Function.update_of_ne hne] at hr
  exact ⟨r, hr, hmem⟩

/-- A rule need not be visited again: what is reached through its name is reached from the names
that it refers to. -/
theorem cons_of_some (h : rule? name = some r) :
    ReachedFrom rule? (name :: pending) target ↔ target = name ∨
      ReachedFrom (Function.update rule? name none) (r.references ++ pending) target := by
  constructor
  -- where the path comes back to `name`, it is cut and begins anew with what this rule refers to
  · rintro ⟨root, hroot, hpath⟩
    induction hpath with
    | refl =>
      rcases List.mem_cons.1 hroot with rfl | hroot
      · exact .inl rfl
      · exact .inr ⟨root, List.mem_append_right _ hroot, .refl⟩
    | @tail middle target _ hstep ih =>
      by_cases hmiddle : middle = name
      · subst hmiddle
        obtain ⟨r', hr', hmem⟩ := hstep
        obtain rfl := Option.some.inj (h.symm.trans hr')
        exact .inr ⟨target, List.mem_append_left _ hmem, .refl⟩
      · obtain ⟨r', hr', hmem⟩ := hstep
        have hr' : Function.update rule? name none middle = some r' := by
          rw [Function.update_of_ne hmiddle, hr']
        exact .inr ((ih.resolve_left hmiddle).step ⟨r', hr', hmem⟩)
  · rintro (rfl | ⟨root, hroot, hpath⟩)
    · exact ⟨target, List.mem_cons_self, .refl⟩
    · have hpath := Relation.ReflTransGen.mono (fun _ _ => refersTo_of_update) _ _ hpath
      rcases List.mem_append.1 hroot with hmem | hmem
      · exact ⟨name, List.mem_cons_self, .head ⟨r, h, hmem⟩ hpath⟩
      · exact ⟨root, List.mem_cons_of_mem _ hmem, hpath⟩

end ReachedFrom

theorem getElem?_erase_eq_update (d : Dictionary Rule) (name : String) :
    (fun other => (d.erase name)[other]?) = Function.update (fun other => d[other]?) name none := by
  funext other
  by_cases h : other = name
  · subst h
    rw [Function.update_self, Std.ExtTreeMap.getElem?_erase_self]
  · rw [Function.update_of_ne h, Std.ExtTreeMap.getElem?_erase, if_neg]
    simpa using Ne.symm h

/-- The search takes out the rules that are reached, and no other ones. -/
theorem Grammar.getElem?_withoutReachable {unvisited : Dictionary Rule} {pending : List String} :
    (withoutReachable unvisited pending)[target]? = some r ↔
      unvisited[target]? = some r ∧ ¬ReachedFrom (fun name => unvisited[name]?) pending target := by
  fun_induction withoutReachable unvisited pending with
  | case1 unvisited => simp [ReachedFrom.not_nil]
  | case2 unvisited name pending hnone ih =>
    rw [ih, ReachedFrom.cons_of_none hnone]
    refine and_congr_right fun hr => ?_
    have hne : target ≠ name := by
      rintro rfl
      rw [hnone] at hr
      cases hr
    simp [hne]
  | case3 unvisited name pending r' hsome ih =>
    rw [ih, getElem?_erase_eq_update, ReachedFrom.cons_of_some hsome]
    by_cases h : target = name
    · subst h
      simp
    · rw [Std.ExtTreeMap.getElem?_erase, if_neg (by simpa using Ne.symm h)]
      simp [h]

end GrammarLoader
