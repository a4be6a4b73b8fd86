import GrammarLoader.Proofs.Rule.Nodes
import GrammarLoader.Rule.Shape
import Mathlib.Computability.Language

/-!
The forms of a rule: the words of literals, patterns and symbols that it gives when it is expanded
once. A form may begin with a symbol if looking at the leading children finds it, and the other way
round as long as no part of the rule can vanish or be looked past.
-/

namespace GrammarLoader.Rule

open Computability

mutual

/-- The forms of a rule. The nodes without forms of their own are the letters. -/
def forms : Rule → Language Rule
  | node label members content =>
    match label.kind with
    | .blank => 1
    | .string | .pattern | .symbol => {[node label members content]}
    | .seq => (membersForms members).prod
    | .choice => (membersForms members).sum
    | .repeat0 => (contentForms content)∗
    | .repeat1 => contentForms content * (contentForms content)∗
    | _ => contentForms content

def membersForms : Option (List Rule) → List (Language Rule)
  | none => []
  | some rules => listForms rules

def listForms : List Rule → List (Language Rule)
  | [] => []
  | r :: rules => forms r :: listForms rules

def contentForms : Option Rule → Language Rule
  | none => 0
  | some r => forms r

end

theorem listForms_eq (rules : List Rule) : listForms rules = rules.map forms := by
  induction rules with
  | nil => rw [listForms, List.map_nil]
  | cons r rules ih => rw [listForms, ih, List.map_cons]

theorem forms_eq (r : Rule) :
    r.forms =
      match r.kind with
      | .blank => 1
      | .string | .pattern | .symbol => {[r]}
      | .seq => ((r.members.getD []).map forms).prod
      | .choice => ((r.members.getD []).map forms).sum
      | .repeat0 => (contentForms r.content)∗
      | .repeat1 => contentForms r.content * (contentForms r.content)∗
      | _ => contentForms r.content := by
  cases r with
  | node label members content =>
    have hmembers : membersForms members = (members.getD []).map forms := by
      cases members with
      | none => rw [membersForms, Option.getD_none, List.map_nil]
      | some rules => rw [membersForms, Option.getD_some, listForms_eq]
    rw [forms, hmembers]
    rfl

/-- Some form of the rule begins with the symbol `name`. -/
def MayBegin (r : Rule) (name : String) : Prop :=
  ∃ first rest, first :: rest ∈ r.forms ∧ first.symbolName = some name

/-- Every node of the rule has what its kind needs. -/
def Complete (r : Rule) : Prop :=
  ∀ n, r.Contains n → ∀ part ∈ n.kind.parts, part.presentIn n = true

/-- The kinds of nodes that may have an empty form, and those that nothing looks into for the symbol
that a rule begins with. -/
def Kind.hides : Kind → Bool
  | .blank | .repeat0 | .repeat1 | .token | .immediateToken | .reserved => true
  | _ => false

/-- No node of the rule hides how it begins. -/
def Overt (r : Rule) : Prop := ∀ n, r.Contains n → n.kind.hides = false

variable {r c : Rule} {rules : List Rule} {name : String}

theorem Complete.child (h : r.Complete) (hc : c ∈ r.children) : c.Complete :=
  fun n hn => h n (.child trivial hc hn)

theorem Overt.child (h : r.Overt) (hc : c ∈ r.children) : c.Overt :=
  fun n hn => h n (.child trivial hc hn)

theorem Complete.exists_content (h : r.Complete) (hk : .content ∈ r.kind.parts) :
    ∃ c, r.content = some c :=
  Option.isSome_iff_exists.1 (h r (.top r) .content hk)

theorem Complete.exists_members (h : r.Complete) (hk : .members ∈ r.kind.parts) :
    ∃ c rules, r.members = some (c :: rules) := by
  have hpresent := h r (.top r) .members hk
  unfold Part.presentIn at hpresent
  cases hm : r.members with
  | none =>
    rw [hm] at hpresent
    cases hpresent
  | some members =>
    cases members with
    | nil =>
      rw [hm] at hpresent
      cases hpresent
    | cons c rules => exact ⟨c, rules, rfl⟩

theorem mem_sum_forms {form : List Rule} :
    form ∈ (rules.map forms).sum ↔ ∃ c ∈ rules, form ∈ c.forms := by
  induction rules with
  | nil => simp [Language.notMem_zero]
  | cons c rules ih =>
    rw [List.map_cons, List.sum_cons, Language.mem_add, ih, List.exists_mem_cons_iff]

theorem exists_mem_prod_forms (h : ∀ c ∈ rules, ∃ form, form ∈ c.forms) :
    ∃ form, form ∈ (rules.map forms).prod := by
  induction rules with
  | nil => exact ⟨[], Language.nil_mem_one⟩
  | cons c rules ih =>
    obtain ⟨⟨first, hfirst⟩, hrest⟩ := List.forall_mem_cons.1 h
    obtain ⟨rest, hrest⟩ := ih hrest
    exact ⟨first ++ rest, Language.append_mem_mul hfirst hrest⟩

/-- A rule that is complete has a form. -/
theorem Complete.exists_form (h : r.Complete) : ∃ form, form ∈ r.forms := by
  induction r using induction with
  | step r ih =>
    have hchild : ∀ c ∈ r.children, ∃ form, form ∈ c.forms := fun c hc => ih c hc (h.child hc)
    have hcontent (hk : .content ∈ r.kind.parts) : ∃ form, form ∈ contentForms r.content := by
      obtain ⟨c, hc⟩ := h.exists_content hk
      rw [hc, contentForms]
      exact hchild c (mem_children_of_content hc)
    rw [forms_eq]
    cases hk : r.kind with
    | blank => exact ⟨[], Language.nil_mem_one⟩
    | string | pattern | symbol => exact ⟨[r], rfl⟩
    | seq =>
      obtain ⟨c, rules, hm⟩ := h.exists_members (by rw [hk]; decide)
      rw [hm]
      exact exists_mem_prod_forms fun d hd => hchild d (mem_children_of_members hm hd)
    | choice =>
      obtain ⟨c, rules, hm⟩ := h.exists_members (by rw [hk]; decide)
      obtain ⟨form, hform⟩ := hchild c (mem_children_of_members hm List.mem_cons_self)
      rw [hm]
      exact ⟨form, mem_sum_forms.2 ⟨c, List.mem_cons_self, hform⟩⟩
    | repeat0 => exact ⟨[], Language.nil_mem_kstar _⟩
    | repeat1 =>
      obtain ⟨form, hform⟩ := hcontent (by rw [hk]; decide)
      exact ⟨form ++ [], Language.append_mem_mul hform (Language.nil_mem_kstar _)⟩
    | _ => exact hcontent (by rw [hk]; decide)

/-! ### From the leading children to the forms -/

theorem mayBegin_of_symbolName (h : r.symbolName = some name) : r.MayBegin name := by
  have hk : r.kind = .symbol := by
    by_contra hk
    rw [symbolName, if_neg hk] at h
    cases h
  refine ⟨r, [], ?_, h⟩
  rw [forms_eq, hk]
  rfl

/-- A rule may begin in the way that a leading child may: what comes behind it has a form. -/
theorem Complete.mayBegin_of_leading (h : r.Complete) (hc : c ∈ r.leading)
    (hbegin : c.MayBegin name) : r.MayBegin name := by
  obtain ⟨first, rest, hform, hfirst⟩ := hbegin
  unfold leading at hc
  unfold MayBegin
  rw [forms_eq]
  cases hk : r.kind with
  | seq =>
    obtain ⟨d, rules, hm⟩ := h.exists_members (by rw [hk]; decide)
    rw [hk, hm] at hc
    obtain rfl : c = d := List.mem_singleton.1 hc
    obtain ⟨more, hmore⟩ : ∃ form, form ∈ (rules.map forms).prod :=
      exists_mem_prod_forms fun d hd =>
        (h.child (mem_children_of_members hm (List.mem_cons_of_mem c hd))).exists_form
    rw [hm]
    exact ⟨first, rest ++ more, Language.append_mem_mul hform hmore, hfirst⟩
  | choice =>
    rw [hk] at hc
    exact ⟨first, rest, mem_sum_forms.2 ⟨c, hc, hform⟩, hfirst⟩
  | prec | precLeft | precRight | precDynamic | field | aliased =>
    rw [hk] at hc
    rw [Option.mem_toList.1 hc]
    exact ⟨first, rest, hform, hfirst⟩
  | _ =>
    rw [hk] at hc
    cases hc

theorem Complete.mayBegin_of_beginsWith (h : r.Complete) (hbegins : r.beginsWith name = true) :
    r.MayBegin name := by
  induction r using induction with
  | step r ih =>
    rw [beginsWith_eq, Bool.or_eq_true, List.any_eq_true, decide_eq_true_iff] at hbegins
    rcases hbegins with hsymbol | ⟨c, hc, hbegins⟩
    · exact mayBegin_of_symbolName hsymbol
    · have hchild := mem_children_of_mem_leading hc
      exact h.mayBegin_of_leading hc (ih c hchild (h.child hchild) hbegins)

/-! ### From the forms to the leading children -/

theorem Complete.nil_notMem_forms (h : r.Complete) (hovert : r.Overt) : [] ∉ r.forms := by
  induction r using induction with
  | step r ih =>
    have hchild : ∀ c ∈ r.children, [] ∉ c.forms :=
      fun c hc => ih c hc (h.child hc) (hovert.child hc)
    have hshown := hovert r (.top r)
    intro hform
    rw [forms_eq] at hform
    cases hk : r.kind with
    | string | pattern | symbol =>
      rw [hk] at hform
      exact List.cons_ne_nil r [] (Eq.symm hform)
    | seq =>
      obtain ⟨c, rules, hm⟩ := h.exists_members (by rw [hk]; decide)
      rw [hk, hm] at hform
      obtain ⟨first, hfirst, rest, -, hnil⟩ := Language.mem_mul.1 hform
      obtain rfl := (List.append_eq_nil_iff.1 hnil).1
      exact hchild c (mem_children_of_members hm List.mem_cons_self) hfirst
    | choice =>
      obtain ⟨c, rules, hm⟩ := h.exists_members (by rw [hk]; decide)
      rw [hk, hm] at hform
      obtain ⟨d, hd, hform⟩ := mem_sum_forms.1 hform
      exact hchild d (mem_children_of_members hm hd) hform
    | prec | precLeft | precRight | precDynamic | field | aliased =>
      obtain ⟨c, hc⟩ := h.exists_content (by rw [hk]; decide)
      rw [hk, hc] at hform
      exact hchild c (mem_children_of_content hc) hform
    | _ =>
      rw [hk] at hshown
      cases hshown

theorem Complete.leading_of_mayBegin (h : r.Complete) (hovert : r.Overt)
    (hbegin : r.MayBegin name) : r.symbolName = some name ∨ ∃ c ∈ r.leading, c.MayBegin name := by
  obtain ⟨first, rest, hform, hfirst⟩ := hbegin
  have hshown := hovert r (.top r)
  rw [forms_eq] at hform
  unfold leading
  cases hk : r.kind with
  | string | pattern | symbol =>
    rw [hk] at hform
    obtain ⟨rfl, -⟩ := List.cons.inj (show first :: rest = [r] from hform)
    exact .inl hfirst
  | seq =>
    obtain ⟨c, rules, hm⟩ := h.exists_members (by rw [hk]; decide)
    have hc := mem_children_of_members hm List.mem_cons_self
    rw [hk, hm] at hform
    obtain ⟨front, hfront, more, -, hsplit⟩ := Language.mem_mul.1 hform
    rw [hm]
    -- an overt member has no empty form, so `first` is a letter of it
    cases front with
    | nil => exact absurd hfront ((h.child hc).nil_notMem_forms (hovert.child hc))
    | cons d front =>
      obtain ⟨rfl, -⟩ := List.cons.inj hsplit
      exact .inr ⟨c, List.mem_singleton_self c, d, front, hfront, hfirst⟩
  | choice =>
    rw [hk] at hform
    obtain ⟨c, hc, hform⟩ := mem_sum_forms.1 hform
    exact .inr ⟨c, hc, first, rest, hform, hfirst⟩
  | prec | precLeft | precRight | precDynamic | field | aliased =>
    obtain ⟨c, hc⟩ := h.exists_content (by rw [hk]; decide)
    rw [hk, hc] at hform
    exact .inr ⟨c, Option.mem_toList.2 hc, first, rest, hform, hfirst⟩
  | _ =>
    rw [hk] at hshown
    cases hshown

theorem Complete.beginsWith_iff (h : r.Complete) (hovert : r.Overt) :
    r.beginsWith name = true ↔ r.MayBegin name := by
  refine ⟨h.mayBegin_of_beginsWith, fun hbegin => ?_⟩
  induction r using induction with
  | step r ih =>
    rw [beginsWith_eq, Bool.or_eq_true, List.any_eq_true, decide_eq_true_iff]
    rcases h.leading_of_mayBegin hovert hbegin with hsymbol | ⟨c, hc, hbegin⟩
    · exact .inl hsymbol
    · have hchild := mem_children_of_mem_leading hc
      exact .inr ⟨c, hc, ih c hchild (h.child hchild) (hovert.child hchild) hbegin⟩

end GrammarLoader.Rule
