import GrammarLoader.Proofs.Json.Yield
import GrammarLoader.Proofs.Rule.Nodes
import GrammarLoader.Proofs.Rule.Spelling

/-!
How deep rules are. No path down a rule has more nodes than containers of its text lie inside one
another, whichever way the nodes are written, and a reader opens only so many. A function that calls
itself on children of a node therefore has no more than that many calls open at a time.
-/

namespace GrammarLoader.Rule

open Json

/-- A path down a rule: its topmost node, and then each time a child of the node before. -/
inductive Path : Rule → List Rule → Prop
  | stop (r : Rule) : Path r [r]
  | down {r c : Rule} {path : List Rule} (hc : c ∈ r.children) (h : Path c path) :
      Path r (r :: path)

theorem levels_children {r c : Rule} (h : c ∈ r.children) : c.levels + 1 ≤ r.levels := by
  cases r with
  | node label members content =>
    rcases List.mem_append.1 h with hm | hm
    · cases members with
      | none => cases hm
      | some rules =>
        change c ∈ rules at hm
        have hc := levels_le_listLevels hm
        have hr := levels_members (r := node label (some rules) content) rfl
        omega
    · have hr := levels_content (r := node label members content) (Option.mem_toList.1 hm)
      omega

theorem Path.length_le {r : Rule} {path : List Rule} (h : r.Path path) :
    path.length ≤ r.levels := by
  induction h with
  | stop r => exact one_le_levels r
  | down hc _ ih => exact Nat.le_trans (Nat.succ_le_succ ih) (levels_children hc)

/-! ### What is read -/

theorem levels_le_succ_iff {r : Rule} {n : Nat} :
    r.levels ≤ n + 1 ↔ membersLevels r.members ≤ n ∧ contentLevels r.content ≤ n := by
  cases r with
  | node label members content =>
    rw [levels, Nat.add_comm, Nat.succ_le_succ_iff, Nat.max_le]
    rfl

theorem yields_members {n : Nat}
    (h : ∀ member ∈ (readers n).2, member.Yields fun r => r.levels + 1 ≤ n) :
    (Reader.list (readers n).2).Yields fun rules => membersLevels (some rules) ≤ n := by
  cases n with
  | zero => exact .container nofun nofun (.refuse _)
  | succ n =>
    refine (Reader.Yields.list h).mono fun rules hrules => ?_
    rw [membersLevels, Nat.add_comm]
    refine Nat.succ_le_succ ?_
    induction rules with
    | nil => exact Nat.zero_le n
    | cons r rules ih =>
      obtain ⟨hr, hrules⟩ := List.forall_mem_cons.1 hrules
      rw [listLevels]
      exact Nat.max_le.2 ⟨Nat.le_of_succ_le_succ hr, ih hrules⟩

theorem keeps_fields {n : Nat} {content : Reader Rule} {member : Option (Reader Rule)}
    (hcontent : content.Yields fun r => r.levels ≤ n)
    (hmembers : (Reader.list member).Yields fun rules => membersLevels (some rules) ≤ n) :
    ∀ f ∈ fields n content member, f.Keeps fun r => r.levels ≤ n + 1 := by
  -- the other fields are entries of the node, and add nothing to its depth
  have hlabel (r : Rule) (f : Label → Label) (h : r.levels ≤ n + 1) :
      (r.withLabel f).levels ≤ n + 1 := by
    cases r with
    | node label members content => exact levels_le_succ_iff.2 (levels_le_succ_iff.1 h)
  simp only [fields, List.forall_mem_cons]
  refine ⟨.needed _ (.any _) fun r _ h _ => hlabel r _ h, .aside _ fun r _ h => hlabel r _ h,
    .aside _ fun r _ h => hlabel r _ h, .optional _ hcontent fun r found h hfound => ?_,
    .optional _ hmembers fun r found h hfound => ?_, .aside _ fun r _ h => hlabel r _ h,
    .aside _ fun r _ h => hlabel r _ h, .aside _ fun r _ h => hlabel r _ h, nofun⟩
  · cases r with
    | node label members content =>
      refine levels_le_succ_iff.2 ⟨(levels_le_succ_iff.1 h).1, ?_⟩
      cases found with
      | none => exact Nat.zero_le n
      | some c => exact hfound c rfl
  · cases r with
    | node label members content =>
      refine levels_le_succ_iff.2 ⟨?_, (levels_le_succ_iff.1 h).2⟩
      cases found with
      | none => exact Nat.zero_le n
      | some rules => exact hfound rules rfl

/-- A member lies one container further in than its node, besides the one that it is. -/
theorem yields_readers (n : Nat) :
    (readers n).1.Yields (fun r => r.levels ≤ n) ∧
      ∀ member ∈ (readers n).2, member.Yields fun r => r.levels + 1 ≤ n := by
  induction n with
  | zero => exact ⟨.container nofun nofun (.refuse _), nofun⟩
  | succ n ih =>
    constructor
    · refine .record _ ?_ (levels_le_succ_iff.2 ⟨Nat.zero_le n, Nat.zero_le n⟩)
      rintro _ ⟨⟩
      exact keeps_fields ih.1 (yields_members ih.2)
    · rintro _ ⟨⟩
      exact ih.1.mono fun r h => Nat.succ_le_succ h

theorem yields_reader (n : Nat) : (reader n).Yields fun r => r.levels ≤ n := (yields_readers n).1

/-! ### Functions that call themselves -/

section
variable {α β : Type}

/--
The answer of a function on rules that calls itself on the `next` rules and makes its own answer
from theirs. There is none if more than the given number of calls would have to be open at a time.
-/
def callWithin (next : Rule → List Rule) (answer : Rule → List α → α) : Nat → Rule → Option α
  | 0, _ => none
  | n + 1, r => ((next r).mapM (callWithin next answer n)).map (answer r)

theorem mapM_eq_some {f : Rule → Option α} {g : Rule → α} {rules : List Rule}
    (h : ∀ r ∈ rules, f r = some (g r)) : rules.mapM f = some (rules.map g) := by
  induction rules with
  | nil => rfl
  | cons r rules ih =>
    obtain ⟨hr, hrules⟩ := List.forall_mem_cons.1 h
    rw [List.mapM_cons, hr, ih hrules]
    rfl

/-- The number of containers is enough for any function on rules that calls itself on children. -/
theorem callWithin_eq {next : Rule → List Rule} {answer : Rule → List α → α} (f : Rule → α)
    (hnext : ∀ r, ∀ c ∈ next r, c ∈ r.children) (hf : ∀ r, f r = answer r ((next r).map f))
    {n : Nat} {r : Rule} (h : r.levels ≤ n) : callWithin next answer n r = some (f r) := by
  induction n generalizing r with
  | zero => exact absurd (Nat.le_trans (one_le_levels r) h) (Nat.not_succ_le_zero 0)
  | succ n ih =>
    have hcalls : (next r).mapM (callWithin next answer n) = some ((next r).map f) := by
      refine mapM_eq_some fun c hc => ih ?_
      exact Nat.le_of_succ_le_succ (Nat.le_trans (levels_children (hnext r c hc)) h)
    rw [callWithin, hcalls, Option.map_some, hf r]

def childrenIn (enter : Rule → Bool) (r : Rule) : List Rule := if enter r then r.children else []

theorem filterMap_nodesIn (enter : Rule → Bool) (own : Rule → Option β) (r : Rule) :
    (r.nodesIn enter).filterMap own =
      (own r).toList ++
        ((childrenIn enter r).map fun c => (c.nodesIn enter).filterMap own).flatten := by
  have hbelow : (if enter r then r.children.flatMap (nodesIn enter) else []) =
      (childrenIn enter r).flatMap (nodesIn enter) := by
    unfold childrenIn
    split <;> rfl
  rw [nodesIn_eq, hbelow, List.filterMap_cons, List.filterMap_flatMap, List.flatMap_def]
  cases own r <;> rfl

theorem findSome?_nodes (find : Rule → Option β) (r : Rule) :
    r.nodes.findSome? find =
      (find r).or ((r.children.map fun c => c.nodes.findSome? find).findSome? id) := by
  have hbelow : (r.children.flatMap nodes).findSome? find =
      (r.children.map fun c => c.nodes.findSome? find).findSome? id := by
    rw [← List.head?_filterMap, List.filterMap_flatMap, List.head?_flatMap, List.findSome?_map]
    simp only [List.head?_filterMap]
    rfl
  rw [nodes_eq, List.findSome?_cons, hbelow]
  cases find r <;> rfl

end

/-- A rule of at most `n` nodes on a path down, and what this means for the functions that go
through it: with `n` calls open at a time they come to their answer. -/
structure BoundedBy (n : Nat) (r : Rule) : Prop where
  path : ∀ path, r.Path path → path.length ≤ n
  /-- Looking for the first node that shows something, as for one that lacks a part. -/
  search : ∀ {β : Type} (find : Rule → Option β),
    callWithin children (fun r found => (find r).or (found.findSome? id)) n r =
      some (r.nodes.findSome? find)
  /-- Collecting what nodes have, such as symbols, levels of precedence and the names for the tables,
  where some nodes are not left for their children. -/
  collect : ∀ {β : Type} (enter : Rule → Bool) (own : Rule → Option β),
    callWithin (childrenIn enter) (fun r found => (own r).toList ++ found.flatten) n r =
      some ((r.nodesIn enter).filterMap own)
  /-- Looking whether the rule may begin with a symbol, through the leading children alone. -/
  begins : ∀ name,
    callWithin leading (fun r found => decide (r.symbolName = some name) || found.any id) n r =
      some (r.beginsWith name)

theorem boundedBy {r : Rule} {n : Nat} (h : r.levels ≤ n) : r.BoundedBy n where
  path path hpath := Nat.le_trans hpath.length_le h
  search find :=
    callWithin_eq (fun r => r.nodes.findSome? find) (fun _ _ hc => hc) (findSome?_nodes find) h
  collect enter own := by
    refine callWithin_eq (fun r => (r.nodesIn enter).filterMap own) (fun r c hc => ?_)
      (filterMap_nodesIn enter own) h
    unfold childrenIn at hc
    split at hc
    · exact hc
    · cases hc
  begins name := by
    refine callWithin_eq (beginsWith name) (fun r c hc => mem_children_of_mem_leading hc)
      (fun r => ?_) h
    rw [beginsWith_eq, List.any_map]
    rfl

end GrammarLoader.Rule
