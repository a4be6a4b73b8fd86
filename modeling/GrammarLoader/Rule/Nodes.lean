import GrammarLoader.Rule.Basic

/-!
The nodes of a rule: the topmost node, then the nodes of its members, then those of its content.
`nodesIn_eq` is the rule by which they are listed.
-/

namespace GrammarLoader.Rule

mutual

/-- Puts the nodes of a rule in front of `found`, the last one first. -/
def pushNodes (enter : Rule → Bool) (found : List Rule) : Rule → List Rule
  | node label members content =>
    let r := node label members content
    if enter r then pushContent enter (pushMembers enter (r :: found) members) content
    else r :: found

def pushMembers (enter : Rule → Bool) (found : List Rule) : Option (List Rule) → List Rule
  | none => found
  | some rules => pushAll enter found rules

def pushContent (enter : Rule → Bool) (found : List Rule) : Option Rule → List Rule
  | none => found
  | some r => pushNodes enter found r

def pushAll (enter : Rule → Bool) (found : List Rule) : List Rule → List Rule
  | [] => found
  | r :: rules => pushAll enter (pushNodes enter found r) rules

end

/-- The nodes of a rule, without those below a node that `enter` refuses. -/
def nodesIn (enter : Rule → Bool) (r : Rule) : List Rule := (pushNodes enter [] r).reverse

def nodes (r : Rule) : List Rule := r.nodesIn fun _ => true

theorem induction {motive : Rule → Prop} (step : ∀ r, (∀ c ∈ r.children, motive c) → motive r)
    (r : Rule) : motive r := by
  induction h : sizeOf r using Nat.strongRecOn generalizing r with
  | ind n ih =>
    refine step r fun c hc => ih (sizeOf c) ?_ c rfl
    subst h
    cases r with
    | node label members content =>
      rcases List.mem_append.1 hc with hm | hm
      · cases members with
        | none => simp at hm
        | some rules =>
          have := List.sizeOf_lt_of_mem (show c ∈ rules from hm)
          simp
          omega
      · obtain rfl : content = some c := by simpa using hm
        simp
        omega

theorem pushAll_eq (enter : Rule → Bool) (found rules : List Rule) :
    pushAll enter found rules = rules.foldl (pushNodes enter) found := by
  induction rules generalizing found with
  | nil => simp [pushAll]
  | cons r rules ih => simp [pushAll, ih]

theorem pushNodes_eq (enter : Rule → Bool) (found : List Rule) (r : Rule) :
    pushNodes enter found r =
      if enter r then r.children.foldl (pushNodes enter) (r :: found) else r :: found := by
  cases r with
  | node label members content =>
    cases members <;> cases content <;>
      simp [pushNodes, pushMembers, pushContent, pushAll_eq, children]

theorem pushNodes_append (enter : Rule → Bool) (r : Rule) (found : List Rule) :
    pushNodes enter found r = pushNodes enter [] r ++ found := by
  induction r using induction generalizing found with
  | step r ih =>
    have fold (rules : List Rule) (h : ∀ c ∈ rules, c ∈ r.children) (found more : List Rule) :
        rules.foldl (pushNodes enter) (found ++ more) =
          rules.foldl (pushNodes enter) found ++ more := by
      induction rules generalizing found with
      | nil => rfl
      | cons c rules ihr =>
        have hc := ih c (h c List.mem_cons_self)
        rw [List.foldl_cons, List.foldl_cons, hc, ← List.append_assoc, ← hc]
        exact ihr (fun d hd => h d (List.mem_cons_of_mem _ hd)) _
    rw [pushNodes_eq, pushNodes_eq enter []]
    split
    · exact fold r.children (fun _ h => h) [r] found
    · rfl

/-- The nodes below a node are the nodes of its children, in their order. -/
theorem nodesIn_eq (enter : Rule → Bool) (r : Rule) :
    r.nodesIn enter = r :: if enter r then r.children.flatMap (nodesIn enter) else [] := by
  have fold (rules found : List Rule) :
      (rules.foldl (pushNodes enter) found).reverse =
        found.reverse ++ rules.flatMap (nodesIn enter) := by
    induction rules generalizing found with
    | nil => simp
    | cons c rules ih =>
      rw [List.foldl_cons, ih, pushNodes_append]
      simp [nodesIn]
  rw [nodesIn, pushNodes_eq]
  split
  · simp [fold]
  · rfl

theorem nodes_eq (r : Rule) : r.nodes = r :: r.children.flatMap nodes := by
  rw [nodes, nodesIn_eq]
  rfl

end GrammarLoader.Rule
