import GrammarLoader.Language.Query
import GrammarLoader.Proofs.Language.Load

/-!
Kinds of nodes and ids. A kind is a name together with whether it is that of a named symbol, and its
id is the place of the first symbol of that kind. Each id is that of its own kind just if no kind
comes twice, which the names in a grammar decide.
-/

namespace GrammarLoader

def Symbol.nodeKind (s : Symbol) : String × Bool := (s.name, s.isNamed)

/-- The names in a grammar that have to differ for no two symbols to stand for one kind of node. -/
structure Grammar.Unshadowed (g : Grammar) : Prop where
  literal : ¬g.IsLiteral "end"
  unnamedAlias : ¬g.IsAlias false "end"
  externals : g.externalNames.Nodup
  rule : ∀ name ∈ g.externalNames, name ∉ g.rules
  namedAlias : ∀ name ∈ g.externalNames, ¬g.IsAlias true name

namespace Segments

/-- The names of the symbols that are named, or of the others, segment by segment. -/
def names (p : Segments) : Bool → List String
  | false => "end" :: (p.literals ++ p.anonymous)
  | true => p.externals ++ (p.rules ++ p.regular)

/-- Of a segment either all names are kept or none. -/
theorem names_segment (symbol : String → Symbol) {kept : Bool} (hname : ∀ n, (symbol n).name = n)
    (hkept : ∀ n, (symbol n).isNamed = kept) (ns : List String) (named : Bool) :
    ((ns.map symbol).filter (·.isNamed = named)).map (·.name) =
      if kept = named then ns else [] := by
  simp only [List.filter_map, List.map_map, Function.comp_def, hname, hkept]
  split
  · next h => simp [h]
  · next h => simp [h]

theorem names_eq (p : Segments) (named : Bool) :
    (p.symbols.filter (·.isNamed = named)).map (·.name) = p.names named := by
  have hunnamed := names_segment (⟨·, .anonymous⟩) (fun _ => rfl) fun _ => rfl
  have hexternals := names_segment (⟨·, .external⟩) (fun _ => rfl) fun _ => rfl
  have hrules := names_segment .ofRule (fun _ => rfl) isNamed_ofRule
  have hregular := names_segment (⟨·, .regular⟩) (fun _ => rfl) fun _ => rfl
  have hbehind : (p.symbols.tail.filter (·.isNamed = named)).map (·.name) =
      if named then p.externals ++ (p.rules ++ p.regular) else p.literals ++ p.anonymous := by
    simp only [symbols, ← Symbol.ofRule_eq, List.tail_cons, List.filter_append, List.map_append,
      hunnamed, hexternals, hrules, hregular]
    cases named <;> simp
  cases named with
  | false => exact congrArg ("end" :: ·) hbehind
  | true => exact hbehind

variable {p : Segments} {g : Grammar}

theorem nodup_names_false (hp : p.Of g) :
    (p.names false).Nodup ↔ ¬g.IsLiteral "end" ∧ ¬g.IsAlias false "end" := by
  have hdisjoint : p.literals.Disjoint p.anonymous := by
    intro name hl ha
    exact ((hp.anonymous.mem_iff name).1 ha).2 ((hp.literals.mem_iff name).1 hl)
  rw [names, List.nodup_cons, List.mem_append, not_or, hp.literals.mem_iff, hp.anonymous.mem_iff,
    and_iff_left (hp.literals.nodup.append hp.anonymous.nodup hdisjoint)]
  exact and_congr_right fun hl => not_congr (and_iff_left hl)

theorem nodup_names_true (hp : p.Of g) :
    (p.names true).Nodup ↔ p.externals.Nodup ∧
      ∀ name ∈ p.externals, name ∉ g.rules ∧ ¬g.IsAlias true name := by
  have hdisjoint : p.rules.Disjoint p.regular := by
    intro name hr ha
    exact ((hp.regular.mem_iff name).1 ha).2 ((hp.rules.mem_iff name).1 hr)
  have hnodup := hp.rules.nodup.append hp.regular.nodup hdisjoint
  have hmem (name : String) :
      name ∉ p.rules ++ p.regular ↔ name ∉ g.rules ∧ ¬g.IsAlias true name := by
    rw [List.mem_append, not_or, hp.rules.mem_iff, hp.regular.mem_iff]
    exact and_congr_right fun hr => not_congr (and_iff_left hr)
  rw [names, List.nodup_append', and_iff_right hnodup, List.disjoint_left]
  simp only [hmem]

end Segments

theorem nodup_map_nodeKind_iff {symbols : List Symbol} :
    (symbols.map Symbol.nodeKind).Nodup ↔
      ∀ named, ((symbols.filter (·.isNamed = named)).map (·.name)).Nodup := by
  -- A named symbol and another one never clash, so each pair is compared in one of the two lists.
  simp only [List.Nodup, List.pairwise_map, List.pairwise_filter]
  rw [Bool.forall_bool, ← List.pairwise_and_iff]
  refine List.Pairwise.iff fun {a b} => ?_
  cases ha : a.isNamed <;> cases hb : b.isNamed <;> simp [Symbol.nodeKind, ha, hb]

namespace Language

def nodeKinds (l : Language) : List (String × Bool) := l.tables.symbols.map Symbol.nodeKind

variable {l : Language} {name : String} {named : Bool} {id : UInt16}

theorem getElem?_nodeKinds {i : Nat} :
    l.nodeKinds[i]? = (l.tables.symbols[i]?).map Symbol.nodeKind := List.getElem?_map

theorem nodeKind_eq_some_iff :
    l.nodeKinds[id.toNat]? = some (name, named) ↔
      l.symbolName? id = some name ∧ id.toNat < l.symbolCount ∧ l.isNamed id = named := by
  rw [getElem?_nodeKinds]
  unfold symbolName? isNamed symbolCount symbol?
  cases hs : l.tables.symbols[id.toNat]? with
  | none => simp
  | some s =>
    obtain ⟨hlt, _⟩ := List.getElem?_eq_some_iff.1 hs
    simp [Symbol.nodeKind, hlt]

/-- No id is lost in a table that is not too long. -/
theorem symbolId?_eq (hlen : l.symbolCount ≤ maxEntries) :
    l.symbolId? name named = (l.nodeKinds.findIdx? (· = (name, named))).map UInt16.ofNat := by
  have hfind : l.nodeKinds.findIdx? (· = (name, named)) =
      l.tables.symbols.findIdx? fun s => s.name = name ∧ s.isNamed = named := by
    rw [nodeKinds, List.findIdx?_map]
    simp only [Function.comp_def, Symbol.nodeKind, Prod.mk.injEq]
  rw [hfind, symbolId?]
  cases hi : l.tables.symbols.findIdx? fun s => s.name = name ∧ s.isNamed = named with
  | none => rfl
  | some i =>
    obtain ⟨hlt, _⟩ := List.findIdx?_eq_some_iff_getElem.1 hi
    rw [Option.bind_eq_bind, Option.bind_some, idOfNat?, if_pos]
    · rfl
    · exact Nat.le_trans (Nat.le_of_lt hlt) hlen

/-- The id of a kind is its first place. -/
theorem symbolId?_eq_some_iff (hlen : l.symbolCount ≤ maxEntries) :
    l.symbolId? name named = some id ↔ l.nodeKinds[id.toNat]? = some (name, named) ∧
      ∀ i < id.toNat, l.nodeKinds[i]? ≠ some (name, named) := by
  rw [symbolId?_eq hlen, Option.map_eq_some_iff]
  constructor
  · rintro ⟨i, hi, rfl⟩
    obtain ⟨hlt, hkind, hbefore⟩ := List.findIdx?_eq_some_iff_getElem.1 hi
    have hcount : i < l.symbolCount := by rwa [nodeKinds, List.length_map] at hlt
    rw [Grammar.toNat_ofNat_place hcount hlen, List.getElem?_eq_getElem hlt,
      of_decide_eq_true hkind]
    refine ⟨rfl, fun j hj hsome => ?_⟩
    obtain ⟨_, hkind'⟩ := List.getElem?_eq_some_iff.1 hsome
    exact hbefore j hj (decide_eq_true hkind')
  · rintro ⟨hsome, hbefore⟩
    obtain ⟨hlt, hkind⟩ := List.getElem?_eq_some_iff.1 hsome
    refine ⟨id.toNat, List.findIdx?_eq_some_iff_getElem.2 ⟨hlt, decide_eq_true hkind, ?_⟩,
      UInt16.ofNat_toNat⟩
    intro j hj hkind'
    refine hbefore j hj ?_
    rw [List.getElem?_eq_getElem (Nat.lt_trans hj hlt), of_decide_eq_true hkind']

theorem symbolId?_eq_none_iff (hlen : l.symbolCount ≤ maxEntries) :
    l.symbolId? name named = none ↔ (name, named) ∉ l.nodeKinds := by
  rw [symbolId?_eq hlen, Option.map_eq_none_iff, List.findIdx?_eq_none_iff]
  simp only [decide_eq_false_iff_not]
  constructor
  · exact fun h hmem => h _ hmem rfl
  · rintro h kind hmem rfl
    exact h hmem

theorem mem_nodeKinds :
    (name, named) ∈ l.nodeKinds ↔ ∃ s ∈ l.tables.symbols, s.name = name ∧ s.isNamed = named := by
  simp only [nodeKinds, List.mem_map, Symbol.nodeKind, Prod.mk.injEq]

/-- The id that is found for the kind of node which an id stands for. -/
def canonicalId? (l : Language) (id : UInt16) : Option UInt16 :=
  (l.symbolName? id).bind (l.symbolId? · (l.isNamed id))

theorem exists_nodeKind (hid : id.toNat < l.symbolCount) :
    ∃ name named, l.nodeKinds[id.toNat]? = some (name, named) ∧
      l.canonicalId? id = l.symbolId? name named := by
  have hs := List.getElem?_eq_getElem hid
  refine ⟨l.tables.symbols[id.toNat].name, l.tables.symbols[id.toNat].isNamed, ?_, ?_⟩
  · rw [getElem?_nodeKinds, hs]
    rfl
  · unfold canonicalId? symbolName? isNamed symbol?
    rw [hs]
    rfl

theorem canonicalId?_eq_self_iff (hlen : l.symbolCount ≤ maxEntries)
    (hid : id.toNat < l.symbolCount) :
    l.canonicalId? id = some id ↔ ∀ i < id.toNat, l.nodeKinds[i]? ≠ l.nodeKinds[id.toNat]? := by
  obtain ⟨name, named, hkind, hcanonical⟩ := exists_nodeKind hid
  rw [hcanonical, symbolId?_eq_some_iff hlen, hkind, and_iff_right rfl]

theorem length_nodeKinds : l.nodeKinds.length = l.symbolCount := List.length_map _

theorem forall_canonicalId?_iff (hlen : l.symbolCount ≤ maxEntries) :
    (∀ id : UInt16, id.toNat < l.symbolCount → l.canonicalId? id = some id) ↔
      l.nodeKinds.Nodup := by
  rw [List.nodup_iff_getElem?_ne_getElem?, length_nodeKinds]
  constructor
  · intro h i j hij hj
    have hid := Grammar.toNat_ofNat_place hj hlen
    rw [← hid] at hij hj ⊢
    exact (canonicalId?_eq_self_iff hlen hj).1 (h _ hj) i hij
  · intro h id hid
    exact (canonicalId?_eq_self_iff hlen hid).2 fun i hi => h i id.toNat hi hid

/-- An id that is not that of its own kind is behind the one that is, and nothing finds it. -/
theorem shadowed (hlen : l.symbolCount ≤ maxEntries) (hid : id.toNat < l.symbolCount)
    (hne : l.canonicalId? id ≠ some id) :
    (∃ first < id, l.canonicalId? id = some first) ∧
      ∀ name named, l.symbolId? name named ≠ some id := by
  obtain ⟨name, named, hkind, hcanonical⟩ := exists_nodeKind hid
  rw [hcanonical] at hne ⊢
  constructor
  · cases hfirst : l.symbolId? name named with
    | none => exact absurd (List.mem_of_getElem? hkind) ((symbolId?_eq_none_iff hlen).1 hfirst)
    | some first =>
      refine ⟨first, ?_, rfl⟩
      rw [hfirst] at hne
      have hbefore := ((symbolId?_eq_some_iff hlen).1 hfirst).2
      rw [UInt16.lt_iff_toNat_lt]
      rcases Nat.lt_trichotomy first.toNat id.toNat with hlt | heq | hgt
      · exact hlt
      · exact absurd (congrArg some (UInt16.toNat_inj.1 heq)) hne
      · exact absurd hkind (hbefore id.toNat hgt)
  · intro name' named' hfound
    have hkind' := ((symbolId?_eq_some_iff hlen).1 hfound).1
    rw [hkind] at hkind'
    obtain ⟨rfl, rfl⟩ := Prod.mk.inj (Option.some.inj hkind')
    exact hne hfound

theorem nodup_nodeKinds_iff {g : Grammar} (hp : g.segments.Of g)
    (hs : l.tables.symbols = g.segments.symbols) : l.nodeKinds.Nodup ↔ g.Unshadowed := by
  have hexternals : g.segments.externals = g.externalNames := rfl
  rw [nodeKinds, hs, nodup_map_nodeKind_iff]
  simp only [Segments.names_eq, Bool.forall_bool, Segments.nodup_names_false hp,
    Segments.nodup_names_true hp, hexternals]
  constructor
  · rintro ⟨⟨hl, ha⟩, hd, h⟩
    exact ⟨hl, ha, hd, fun n hn => (h n hn).1, fun n hn => (h n hn).2⟩
  · rintro ⟨hl, ha, hd, hr, hn⟩
    exact ⟨⟨hl, ha⟩, hd, fun n h => ⟨hr n h, hn n h⟩⟩

theorem symbols_of_load {h : Handle} {o : LoadOptions} (hl : (load h o).result = .ok l) :
    l.symbolCount ≤ maxEntries ∧ l.grammar.segments.Of l.grammar ∧
      l.tables.symbols = l.grammar.segments.symbols := by
  obtain ⟨_, _, _, hval, ht⟩ := parts_of_load hl
  have hv := Grammar.violation?_eq_none_of_ok hval
  have hs := Grammar.start_mem_rules hv
  have hsymbols := (Grammar.tables_of_ok hs ht).1
  refine ⟨?_, Grammar.segments_of hv, hsymbols⟩
  rw [symbolCount, hsymbols]
  exact ((Grammar.tables_ok_iff hs).1 ⟨_, ht⟩).1

/-- A kind leads to an id of that kind, or to none if no symbol is of that kind. Every id is led to
by its own kind just if the names in the grammar differ as they should. An id that is not stands
behind another one of the same kind. -/
theorem symbolId?_exact {h : Handle} {o : LoadOptions} (hl : (load h o).result = .ok l) :
    (∀ name named id, l.symbolId? name named = some id →
      l.symbolName? id = some name ∧ l.isNamed id = named) ∧
    (∀ name named, l.symbolId? name named = none ↔
      ¬∃ s ∈ l.tables.symbols, s.name = name ∧ s.isNamed = named) ∧
    l.symbolCount ≤ 65535 ∧
    ((∀ id : UInt16, id.toNat < l.symbolCount → l.canonicalId? id = some id) ↔
      l.grammar.Unshadowed) ∧
    ∀ id : UInt16, id.toNat < l.symbolCount → l.canonicalId? id ≠ some id →
      (∃ first < id, l.canonicalId? id = some first) ∧
        ∀ name named, l.symbolId? name named ≠ some id := by
  obtain ⟨hlen, hp, hs⟩ := symbols_of_load hl
  refine ⟨fun name named id hid => ?_, fun name named => ?_, hlen, ?_,
    fun id hid hne => shadowed hlen hid hne⟩
  · obtain ⟨hname, _, hnamed⟩ := nodeKind_eq_some_iff.1 ((symbolId?_eq_some_iff hlen).1 hid).1
    exact ⟨hname, hnamed⟩
  · rw [symbolId?_eq_none_iff hlen, mem_nodeKinds]
  · rw [forall_canonicalId?_iff hlen, nodup_nodeKinds_iff hp hs]

/-- A grammar whose only rule has the name of the only token of its scanner. -/
def sameNames : Handle :=
  ⟨"list", 14, "list", ["list"],
    "\x7b\"name\":\"list\",\"rules\":\x7b\"list\":\x7b\"type\":\"BLANK\"\x7d\x7d," ++
      "\"externals\":[\x7b\"type\":\"SYMBOL\",\"name\":\"list\"\x7d]\x7d"⟩

theorem load_sameNames : ∃ l, (load sameNames .standard).result = .ok l ∧
    l.tables.symbols = [⟨"end", .builtin⟩, ⟨"list", .external⟩, ⟨"list", .regular⟩] := by
  have h : (load sameNames .standard).result.toOption.map (·.tables.symbols) =
      some [⟨"end", .builtin⟩, ⟨"list", .external⟩, ⟨"list", .regular⟩] := by
    decide +kernel
  cases hr : (load sameNames .standard).result with
  | error e =>
    rw [hr] at h
    cases h
  | ok l =>
    rw [hr] at h
    exact ⟨l, rfl, Option.some.inj h⟩

/-- There the name of the rule leads to the token, and nothing leads to the rule. -/
theorem symbolId?_sameNames : ∃ l, (load sameNames .standard).result = .ok l ∧
    l.symbolName? 2 = some "list" ∧ l.canonicalId? 2 = some 1 ∧ ¬l.grammar.Unshadowed ∧
      ∀ name named, l.symbolId? name named ≠ some 2 := by
  obtain ⟨l, hl, hs⟩ := load_sameNames
  obtain ⟨_, _, _, hiff, hshadowed⟩ := symbolId?_exact hl
  have hname : l.symbolName? 2 = some "list" := by
    rw [symbolName?, symbol?, hs]
    rfl
  have hrule : l.canonicalId? 2 = some 1 := by
    unfold canonicalId? symbolName? isNamed symbol? symbolId?
    rw [hs]
    decide
  have hid : (2 : UInt16).toNat < l.symbolCount := by
    rw [symbolCount, hs]
    decide
  have hne : l.canonicalId? 2 ≠ some 2 := by
    rw [hrule]
    decide
  exact ⟨l, hl, hname, hrule, fun h => hne (hiff.2 h 2 hid), (hshadowed 2 hid hne).2⟩

end Language
end GrammarLoader
