import GrammarLoader.Rule.Nodes
import GrammarLoader.Validation.LeftRecursion

/-! Which nodes are listed for a rule: those that are reached from its topmost node. With which of
them a rule may begin: with those that are reached through the leading children. -/

namespace GrammarLoader.Rule

/-- A node that is reached from the topmost one, where only nodes with `through` are left for their
children. -/
inductive Reaches (through : Rule → Prop) : Rule → Rule → Prop
  | top (r : Rule) : Reaches through r r
  | child {r c n : Rule} (hr : through r) (hc : c ∈ r.children) (h : Reaches through c n) :
      Reaches through r n

def Contains (r n : Rule) : Prop := Reaches (fun _ => True) r n

theorem mem_nodesIn {enter : Rule → Bool} {r n : Rule} :
    n ∈ r.nodesIn enter ↔ Reaches (fun m => enter m = true) r n := by
  constructor
  · intro h
    induction r using induction with
    | step r ih =>
      rw [nodesIn_eq, List.mem_cons] at h
      rcases h with rfl | h
      · exact .top n
      · split at h
        · next hr =>
          obtain ⟨c, hc, hn⟩ := List.mem_flatMap.1 h
          exact .child hr hc (ih c hc hn)
        · cases h
  · intro h
    induction h with
    | top r =>
      rw [nodesIn_eq]
      exact List.mem_cons_self
    | child hr hc _ ih =>
      rw [nodesIn_eq, if_pos hr]
      exact List.mem_cons_of_mem _ (List.mem_flatMap.2 ⟨_, hc, ih⟩)

theorem mem_nodes {r n : Rule} : n ∈ r.nodes ↔ r.Contains n := by
  unfold nodes Contains
  rw [mem_nodesIn]
  simp only

theorem mem_children_of_content {r c : Rule} (h : c ∈ r.content) : c ∈ r.children := by
  cases r with
  | node label members content => exact List.mem_append_right _ (Option.mem_toList.2 h)

theorem mem_children_of_members {r c : Rule} {rules : List Rule} (h : rules ∈ r.members)
    (hc : c ∈ rules) : c ∈ r.children := by
  cases r with
  | node label members content =>
    obtain rfl : members = some rules := h
    exact List.mem_append_left _ hc

/-- The children with which a node may begin. -/
def leading (r : Rule) : List Rule :=
  match r.kind with
  | .seq => (r.members.getD []).take 1
  | .choice => r.members.getD []
  | .prec | .precLeft | .precRight | .precDynamic | .field | .aliased => r.content.toList
  | _ => []

theorem mem_children_of_mem_leading {r c : Rule} (h : c ∈ r.leading) : c ∈ r.children := by
  cases r with
  | node label members content =>
    unfold leading at h
    split at h
    · exact List.mem_append_left _ (List.mem_of_mem_take h)
    · exact List.mem_append_left _ h
    iterate 6 exact List.mem_append_right _ h
    · cases h

theorem anyBeginsWith_eq (name : String) (rules : List Rule) :
    anyBeginsWith name rules = rules.any (beginsWith name) := by
  induction rules with
  | nil => rfl
  | cons r rules ih => rw [anyBeginsWith, ih, List.any_cons]

/-- A rule begins with a symbol if it is the symbol or one of its leading children begins with it. -/
theorem beginsWith_eq (name : String) (r : Rule) :
    r.beginsWith name = (decide (r.symbolName = some name) || r.leading.any (beginsWith name)) := by
  cases r with
  | node label members content =>
    have hcontent : contentBeginsWith name content = content.toList.any (beginsWith name) := by
      cases content with
      | none => rfl
      | some c => rw [contentBeginsWith, Option.toList_some, List.any_cons, List.any_nil,
          Bool.or_false]
    rw [beginsWith]
    obtain ⟨kind, value, symbol, named, flags, contextName⟩ := label
    cases kind with
    | symbol => simp [symbolName, leading, kind, Rule.label]
    | seq =>
      rcases members with _ | _ | ⟨r, rules⟩ <;>
        simp [symbolName, leading, kind, Rule.label, Rule.members, firstBeginsWith]
    | choice =>
      cases members <;>
        simp [symbolName, leading, kind, Rule.label, Rule.members, someBeginsWith, anyBeginsWith_eq]
    | prec | precLeft | precRight | precDynamic | field | aliased =>
      simp [symbolName, leading, kind, Rule.label, Rule.content, hcontent]
    | _ => rfl

end GrammarLoader.Rule
