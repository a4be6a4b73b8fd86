import GrammarLoader.Proofs.Grammar.Depth
import GrammarLoader.Proofs.Grammar.Numbers
import GrammarLoader.Proofs.Validation.Accepted
import GrammarLoader.Proofs.Validation.Search
import Mathlib.Data.Finset.Card

/-! Which rules are found to mix precedences, and at which levels. Only the numbers of precedences
count, wherever they are in a rule, and each counts once. -/

namespace GrammarLoader

namespace Rule

/-- A precedence in the rule, at any depth, has this level. A precedence with a name has none. -/
def Sets (r : Rule) (level : Int) : Prop :=
  ∃ n, r.Contains n ∧ n.kind ∈ [.prec, .precLeft, .precRight, .precDynamic] ∧
    n.label.value = some (.number level)

variable {r : Rule} {level : Int}

theorem precedence_eq_some_iff {n : Rule} :
    n.precedence = some level ↔
      n.kind ∈ [.prec, .precLeft, .precRight, .precDynamic] ∧
        n.label.value = some (.number level) := by
  have hkind : n.kind.isPrecedence = true ↔
      n.kind ∈ [.prec, .precLeft, .precRight, .precDynamic] := by
    cases n.kind <;> decide
  rw [precedence, Option.ite_none_right_eq_some, hkind]
  refine and_congr_right fun _ => ?_
  rcases n.label.value with _ | (text | number) <;> simp

theorem mem_precedenceLevels : level ∈ r.precedenceLevels ↔ r.Sets level := by
  unfold precedenceLevels Sets
  rw [Std.ExtTreeSet.mem_toList, Std.ExtTreeSet.mem_ofList, List.contains_iff_mem]
  simp only [List.mem_filterMap, mem_nodes, precedence_eq_some_iff]

theorem ascending_precedenceLevels (r : Rule) : r.precedenceLevels.Pairwise (· < ·) :=
  Std.ExtTreeSet.ordered_toList.imp compare_lt_iff_lt.1

theorem one_lt_length_precedenceLevels :
    1 < r.precedenceLevels.length ↔ ∃ a b, r.Sets a ∧ r.Sets b ∧ a ≠ b := by
  have hnodup : r.precedenceLevels.Nodup := r.ascending_precedenceLevels.imp fun hlt => ne_of_lt hlt
  rw [← List.toFinset_card_of_nodup hnodup, Finset.one_lt_card_iff]
  simp only [List.mem_toFinset, mem_precedenceLevels]

end Rule

namespace Grammar

def Sets (g : Grammar) (name : String) (level : Int) : Prop :=
  ∃ r, g.rule? name = some r ∧ r.Sets level

/-- The entries are the rules with precedences of different levels, in ascending order, each with its
levels in ascending order. -/
structure ListsMixed (g : Grammar) (entries : List (String × List Int)) : Prop where
  ascending : (entries.map Prod.fst).Pairwise (· < ·)
  mem_iff : ∀ name levels, (name, levels) ∈ entries ↔
    (∃ a b, g.Sets name a ∧ g.Sets name b ∧ a ≠ b) ∧
      levels.Pairwise (· < ·) ∧ ∀ level, level ∈ levels ↔ g.Sets name level

variable {g : Grammar} {start name : String}

theorem mem_mixedRules {levels : List Int} : (name, levels) ∈ g.mixedRules ↔
    ∃ r, g.rule? name = some r ∧ 1 < r.precedenceLevels.length ∧ r.precedenceLevels = levels := by
  unfold mixedRules
  rw [List.mem_filterMap]
  constructor
  · rintro ⟨⟨_, r⟩, hr, hlevels⟩
    obtain ⟨hlong, hentry⟩ := Option.ite_none_right_eq_some.1 hlevels
    obtain ⟨rfl, rfl⟩ := Prod.mk.inj (Option.some.inj hentry)
    exact ⟨r, Dictionary.mem_toList.1 hr, hlong, rfl⟩
  · rintro ⟨r, hr, hlong, rfl⟩
    exact ⟨(name, r), Dictionary.mem_toList.2 hr, if_pos hlong⟩

theorem ascending_mixedRules (g : Grammar) : (g.mixedRules.map Prod.fst).Pairwise (· < ·) := by
  refine ascending_filterMap g.ascending_namedRules ?_
  rintro ⟨name, r⟩ b hb
  dsimp only at hb
  split at hb
  · rw [← Option.some.inj hb]
  · cases hb

theorem sets_iff {r : Rule} (hr : g.rule? name = some r) {level : Int} :
    g.Sets name level ↔ r.Sets level := by
  simp [Sets, hr]

theorem listsMixed_mixedRules (g : Grammar) : g.ListsMixed g.mixedRules where
  ascending := g.ascending_mixedRules
  mem_iff name levels := by
    rw [mem_mixedRules]
    constructor
    · rintro ⟨r, hr, hlong, rfl⟩
      simp only [sets_iff hr]
      exact ⟨Rule.one_lt_length_precedenceLevels.1 hlong, r.ascending_precedenceLevels,
        fun _ => Rule.mem_precedenceLevels⟩
    · rintro ⟨hmixed, hascending, hlevels⟩
      obtain ⟨r, hr⟩ : ∃ r, g.rule? name = some r := by
        obtain ⟨_, _, ⟨r, hr, -⟩, -⟩ := hmixed
        exact ⟨r, hr⟩
      simp only [sets_iff hr] at hmixed hlevels
      refine ⟨r, hr, Rule.one_lt_length_precedenceLevels.2 hmixed, ?_⟩
      exact r.ascending_precedenceLevels.eq_of_mem_iff hascending fun level =>
        Rule.mem_precedenceLevels.trans (hlevels level).symm

theorem ListsMixed.unique {g' : Grammar} {entries entries' : List (String × List Int)}
    (h : g.ListsMixed entries) (h' : g'.ListsMixed entries')
    (hsets : ∀ name level, g'.Sets name level ↔ g.Sets name level) : entries' = entries := by
  have hmem : ∀ entry, entry ∈ entries' ↔ entry ∈ entries := by
    rintro ⟨name, levels⟩
    rw [h.mem_iff, h'.mem_iff]
    simp only [hsets]
  have hpairwise : entries.Pairwise (·.1 < ·.1) := List.pairwise_map.1 h.ascending
  have hpairwise' : entries'.Pairwise (·.1 < ·.1) := List.pairwise_map.1 h'.ascending
  have hnodup {l : List (String × List Int)} (hl : l.Pairwise (·.1 < ·.1)) : l.Nodup :=
    hl.imp fun {a b} hlt heq => ne_of_lt hlt (congrArg Prod.fst heq)
  refine List.Perm.eq_of_pairwise (fun _ _ _ _ hlt hgt => absurd hgt hlt.asymm) hpairwise' hpairwise ?_
  exact (List.perm_ext_iff_of_nodup (hnodup hpairwise') (hnodup hpairwise)).2 hmem

/-- Strict validation of a grammar without violations fails with the first finding, if there is
one. -/
theorem result_validate_strict (h : g.violation? start = none) (f : Finding) :
    (g.validate start true).result = .error (.finding f) ↔ (g.findings start).head? = some f := by
  cases hf : g.findings start with
  | nil => simp [validate_strict_of_nil h hf]
  | cons first more => simp [validate_strict_of_cons h hf]

/-- The findings of a grammar without violations are the rules that are not reached, and then those
that mix precedences, with all levels that they set. The order of the two is seen by strict
validation, which fails with the first. Nothing has a say in the second part but the levels that the
rules set, and in a grammar that was read these are numbers of 32 bits. -/
theorem validate_mixed (h : g.violation? start = none) :
    (g.validate start false).result = .ok (g.findings start) ∧
    (∀ f, (g.validate start true).result = .error (.finding f) ↔
      (g.findings start).head? = some f) ∧
    g.findings start = (g.unreachableRules start).map .unreachable ++
      g.mixedRules.map (fun (name, levels) => .mixed name levels) ∧
    g.ListsMixed g.mixedRules ∧
    (∀ g' : Grammar, (∀ name level, g'.Sets name level ↔ g.Sets name level) →
      g'.mixedRules = g.mixedRules) ∧
    ∀ text, ofText text = .ok g → ∀ entry ∈ g.mixedRules, ∀ level ∈ entry.2, Is32Bit level := by
  refine ⟨result_validate h, result_validate_strict h, rfl, listsMixed_mixedRules g,
    fun g' hsets => (listsMixed_mixedRules g).unique (listsMixed_mixedRules g') hsets, ?_⟩
  rintro text htext ⟨name, levels⟩ hentry level hlevel
  obtain ⟨-, -, hlevels⟩ := ((listsMixed_mixedRules g).mem_iff name levels).1 hentry
  obtain ⟨r, hr, n, hn, -, hvalue⟩ := (hlevels level).1 hlevel
  exact rulesFit_of_ofText htext name r hr n hn _ hvalue level rfl

def wrapText (kind value : String) (content : List Char) : List Char :=
  "[\"".toList ++ kind.toList ++ "\",".toList ++ value.toList ++ ",null,".toList ++ content ++ [']']

/-- The rule "expr" sets the least and the greatest level there is, and "lost", which is not reached,
sets two levels as well. The rule "word" sets one level twice. -/
def tiers : List Char :=
  "\x7b\"name\":\"tiers\",\"rules\":\x7b\"expr\":[\"CHOICE\",null,null,null,[".toList ++
    wrapText "PREC" "-2147483648" "[\"SYMBOL\",null,\"word\"]".toList ++ [','] ++
    wrapText "TOKEN" "7" (wrapText "PREC_RIGHT" "2147483647" blankText) ++
    "]],\"lost\":".toList ++ wrapText "PREC" "2" (wrapText "PREC_LEFT" "1" blankText) ++
    ",\"word\":".toList ++
    wrapText "PREC" "1" (wrapText "PREC_DYNAMIC" "1" (wrapText "PREC" "\"low\"" blankText)) ++
    "\x7d\x7d".toList
where
  blankText : List Char := "[\"BLANK\"]".toList

theorem ofText_tiers : ∃ g, ofText (String.ofList tiers) = .ok g ∧ g.name = "tiers" ∧
    g.externals = none ∧ g.violation? "expr" = none ∧ g.unreachableRules "expr" = ["lost"] ∧
    g.mixedRules = [("expr", [-2147483648, 2147483647]), ("lost", [1, 2])] := by
  have hread : ∃ g, ofText (String.ofList tiers) = .ok g ∧
      (decide (g.name = "tiers" ∧ g.externals.isNone ∧ g.violation? "expr" = none ∧
          g.mixedRules = [("expr", [-2147483648, 2147483647]), ("lost", [1, 2])]),
        ((Search.begin g "expr").visitedWithin g 4).map fun visited =>
          g.ruleNames.filter fun name => !visited.contains name && !g.isInlined name) =
      (true, some ["lost"]) :=
    exists_ofText (by decide +kernel)
  obtain ⟨g, hg, hseen⟩ := hread
  simp only [Prod.mk.injEq, decide_eq_true_eq, Option.isNone_iff_eq_none,
    Option.map_eq_some_iff] at hseen
  obtain ⟨⟨hname, hexternals, hviolation, hmixed⟩, visited, hvisited, hlost⟩ := hseen
  exact ⟨g, hg, hname, hexternals, hviolation,
    (unreachableRules_eq_filter hvisited).trans hlost, hmixed⟩

/-- Neither the value of the token counts nor a precedence with a name. -/
theorem validate_mixed_tiers : ∃ g, ofText (String.ofList tiers) = .ok g ∧
    g.violation? "expr" = none ∧
    (g.validate "expr" false).result = .ok [.unreachable "lost",
      .mixed "expr" [-2147483648, 2147483647], .mixed "lost" [1, 2]] ∧
    (g.validate "expr" true).result = .error (.finding (.unreachable "lost")) ∧
    g.Sets "expr" 2147483647 ∧ ¬g.Sets "expr" 7 ∧ Is32Bit 2147483647 := by
  obtain ⟨g, hg, -, -, hviolation, hlost, hmixed⟩ := ofText_tiers
  obtain ⟨hlenient, hstrict, hfindings, hlists, -, hfit⟩ := validate_mixed hviolation
  rw [hmixed, hlost] at hfindings
  rw [hmixed] at hlists hfit
  obtain ⟨-, -, hlevels⟩ :=
    (hlists.mem_iff "expr" [-2147483648, 2147483647]).1 List.mem_cons_self
  refine ⟨g, hg, hviolation, by rw [hlenient, hfindings]; rfl, (hstrict _).2 ?_, ?_, ?_, ?_⟩
  · rw [hfindings]
    rfl
  · rw [← hlevels]
    decide
  · rw [← hlevels]
    decide
  · exact hfit _ hg _ List.mem_cons_self _ (List.mem_cons_of_mem _ List.mem_cons_self)

end Grammar
end GrammarLoader
