import GrammarLoader.Proofs.Language.Collected
import GrammarLoader.Proofs.Validation.Accepted

/-!
The symbol table in segments. The names of aliases are added one at a time, each looked up in the
table as it stands. No name is given twice, so only what was there before the first one decides.
-/

namespace GrammarLoader

/-- The names in the tables: those of the fields, and those of the symbols behind the end of the
text, segment by segment. -/
structure Segments where
  fields : List String
  literals : List String
  externals : List String
  rules : List String
  /-- The names that only aliases of nodes without a name give. -/
  anonymous : List String
  /-- The names that only aliases of named nodes give. -/
  regular : List String

def Segments.symbols (p : Segments) : List Symbol :=
  ⟨"end", .builtin⟩ :: (p.literals.map (⟨·, .anonymous⟩) ++ p.externals.map (⟨·, .external⟩) ++
    p.rules.map (fun name =>
      ⟨name, if name.toList.head? = some '_' then .hidden else .regular⟩) ++
    p.anonymous.map (⟨·, .anonymous⟩) ++ p.regular.map (⟨·, .regular⟩))

theorem Symbol.ofRule_eq (name : String) :
    Symbol.ofRule name = ⟨name, if name.toList.head? = some '_' then .hidden else .regular⟩ := by
  simp only [Symbol.ofRule, Symbol.startsHidden, decide_eq_true_eq]

/-- A symbol is in the table because its name is in one of the segments. -/
theorem Segments.mem_symbols {p : Segments} {s : Symbol} :
    s ∈ p.symbols ↔ s = ⟨"end", .builtin⟩ ∨ (∃ name ∈ p.literals, s = ⟨name, .anonymous⟩) ∨
      (∃ name ∈ p.externals, s = ⟨name, .external⟩) ∨ (∃ name ∈ p.rules, s = .ofRule name) ∨
      (∃ name ∈ p.anonymous, s = ⟨name, .anonymous⟩) ∨
      ∃ name ∈ p.regular, s = ⟨name, .regular⟩ := by
  simp only [Segments.symbols, Symbol.ofRule_eq, List.mem_cons, List.mem_append, List.mem_map,
    eq_comm, or_assoc]

theorem Segments.length_symbols (p : Segments) :
    p.symbols.length = 1 + p.literals.length + p.externals.length + p.rules.length +
      p.anonymous.length + p.regular.length := by
  simp only [Segments.symbols, List.length_cons, List.length_append, List.length_map]
  omega

theorem Segments.getElem?_external {p : Segments} {k : Nat} {name : String}
    (hk : p.externals[k]? = some name) :
    p.symbols[1 + p.literals.length + k]? = some ⟨name, .external⟩ := by
  obtain ⟨hlt, _⟩ := List.getElem?_eq_some_iff.1 hk
  have hplace : 1 + p.literals.length + k = (p.literals.length + k) + 1 := by omega
  rw [Segments.symbols, hplace, List.getElem?_cons_succ]
  simp only [List.append_assoc]
  rw [List.getElem?_append_right (by simp), List.getElem?_append_left (by simp; omega)]
  simp [hk]

/-- The external tokens that a grammar declares: those entries of the section that are symbols. -/
def Grammar.declaredExternals (g : Grammar) : List Rule :=
  (g.externals.getD []).filter (·.kind = .symbol)

/-- The segments hold the names of a grammar. -/
structure Segments.Of (p : Segments) (g : Grammar) : Prop where
  fields : Enumerates p.fields g.IsField
  literals : Enumerates p.literals g.IsLiteral
  externals : p.externals.map some = g.declaredExternals.map (·.label.name)
  rules : Enumerates p.rules (· ∈ g.rules)
  anonymous : Enumerates p.anonymous fun value => g.IsAlias false value ∧ ¬g.IsLiteral value
  regular : Enumerates p.regular fun value => g.IsAlias true value ∧ value ∉ g.rules

/-- A grammar leaves no choice of the segments. -/
theorem Segments.Of.unique {p q : Segments} {g : Grammar} (hp : p.Of g) (hq : q.Of g) : p = q := by
  have hexternals : p.externals = q.externals :=
    (List.map_inj_right fun _ _ => Option.some.inj).1 (hp.externals.trans hq.externals.symm)
  cases p
  cases q
  rw [Segments.mk.injEq]
  exact ⟨hp.fields.unique hq.fields, hp.literals.unique hq.literals, hexternals,
    hp.rules.unique hq.rules, hp.anonymous.unique hq.anonymous, hp.regular.unique hq.regular⟩

namespace Grammar

variable {g : Grammar} {start : String}

/-- An alias that is added changes what is provided for no other one. -/
theorem provides_addAlias {table : Array Symbol} {a b : Bool × String} (hab : b ≠ a) :
    g.provides (g.addAlias table a) b = g.provides table b := by
  obtain ⟨named, name⟩ := b
  cases named with
  | true => rfl
  | false =>
    unfold addAlias
    split
    · rfl
    · obtain ⟨named', name'⟩ := a
      cases named' with
      | true => simp [provides, aliasSymbol]
      | false =>
        have hne : name' ≠ name := fun h => hab (by rw [h])
        simp [provides, aliasSymbol, hne]

theorem addAlias_toList (table : Array Symbol) (a : Bool × String) :
    (g.addAlias table a).toList =
      table.toList ++ ([a].filter (!g.provides table ·)).map aliasSymbol := by
  unfold addAlias
  split
  · next h => simp [h]
  · next h => simp [h]

/-- Aliases that are added one after the other are all looked up in the first table. -/
theorem foldl_addAlias {given : List (Bool × String)} (hn : given.Nodup) (table : Array Symbol) :
    (given.foldl g.addAlias table).toList =
      table.toList ++ (given.filter (!g.provides table ·)).map aliasSymbol := by
  induction given generalizing table with
  | nil => simp
  | cons a given ih =>
    obtain ⟨ha, hn⟩ := List.nodup_cons.1 hn
    have hsame : given.filter (!g.provides (g.addAlias table a) ·) =
        given.filter (!g.provides table ·) := by
      refine List.filter_congr fun b hb => ?_
      have hba : b ≠ a := fun h => ha (h ▸ hb)
      rw [provides_addAlias hba]
    rw [List.foldl_cons, ih hn, hsame, addAlias_toList, List.append_assoc, ← List.map_append,
      ← List.filter_append, List.singleton_append]

theorem nodup_aliases : g.aliases.Nodup := by
  have hn (named : Bool) :
      ((g.collect (Rule.aliasNames · named)).toList.map (named, ·)).Nodup :=
    (enumerates_aliasNames named).nodup.map fun _ _ h => (Prod.mk.inj h).2
  simp only [aliases, List.flatMap_cons, List.flatMap_nil, List.append_nil]
  refine (hn false).append (hn true) fun a h₁ h₂ => ?_
  obtain ⟨_, _, rfl⟩ := List.mem_map.1 h₁
  simp at h₂

/-- Before any alias is added, the entries for nodes without a name are the literals. -/
theorem provides_plainSymbols {name : String} :
    g.provides g.plainSymbols.toArray (false, name) = true ↔ g.IsLiteral name := by
  have hrule (r : String) : (Symbol.ofRule r).kind ≠ .anonymous := by
    unfold Symbol.ofRule
    split <;> simp
  rw [← enumerates_literals.mem_iff]
  simp [provides, plainSymbols, leadingSymbols, Symbol.endOfText, hrule]

def segments (g : Grammar) : Segments :=
  ⟨g.fieldNames.toList, g.literals.toList, g.externalNames, g.ruleNames,
    (g.collect (Rule.aliasNames · false)).toList.filter fun name =>
      !g.provides g.plainSymbols.toArray (false, name),
    (g.collect (Rule.aliasNames · true)).toList.filter (!g.rules.contains ·)⟩

theorem plainSymbols_eq :
    g.plainSymbols = ⟨"end", .builtin⟩ :: (g.literals.toList.map (⟨·, .anonymous⟩) ++
      g.externalNames.map (⟨·, .external⟩) ++ g.ruleNames.map fun name =>
        ⟨name, if name.toList.head? = some '_' then .hidden else .regular⟩) := by
  rw [plainSymbols, funext Symbol.ofRule_eq]
  rfl

theorem symbols_eq_append :
    g.symbols = g.plainSymbols ++ (g.segments.anonymous.map (⟨·, .anonymous⟩) ++
      g.segments.regular.map (⟨·, .regular⟩)) := by
  unfold symbols
  rw [foldl_addAlias nodup_aliases]
  simp only [aliases, List.flatMap_cons, List.flatMap_nil, List.append_nil, List.filter_append,
    List.filter_map, List.map_append, List.map_map]
  rfl

theorem symbols_eq : g.symbols = g.segments.symbols := by
  rw [symbols_eq_append, plainSymbols_eq, Segments.symbols, segments]
  simp only [List.append_assoc, List.cons_append]

theorem map_some_filterMap {rules : List Rule}
    (h : ∀ r ∈ rules, r.kind = .symbol → ∃ name, r.label.name = some name) :
    (rules.filterMap Rule.symbolName).map some =
      (rules.filter (·.kind = .symbol)).map (·.label.name) := by
  induction rules with
  | nil => rfl
  | cons r rules ih =>
    have ih := ih fun r hr => h r (List.mem_cons_of_mem _ hr)
    by_cases hk : r.kind = .symbol
    · obtain ⟨name, hname⟩ := h r List.mem_cons_self hk
      simp [Rule.symbolName, hk, hname, ih]
    · simp [Rule.symbolName, hk, ih]

theorem map_some_externalNames (h : g.violation? start = none) :
    g.externalNames.map some = g.declaredExternals.map (·.label.name) :=
  map_some_filterMap fun _ hr hk => name_of_external h hr hk

theorem segments_of (h : g.violation? start = none) : g.segments.Of g := by
  refine ⟨enumerates_fieldNames, enumerates_literals, map_some_externalNames h,
    enumerates_ruleNames, ?_, ?_⟩
  · refine (enumerates_aliasNames false).filter fun name => ?_
    rw [Bool.not_eq_true', ← provides_plainSymbols, Bool.not_eq_true]
  · refine (enumerates_aliasNames true).filter fun name => ?_
    rw [Bool.not_eq_true', ← Std.ExtTreeMap.contains_iff_mem, Bool.not_eq_true]

end Grammar
end GrammarLoader
