import GrammarLoader.Proofs.Language.Symbols
import GrammarLoader.Rule.Build

/-!
The tables of a grammar that validation accepts. The start rule is found among the rules, so the
tables can only be missing because one of them is too long for its ids, and else every name has one.
-/

namespace GrammarLoader

variable {g : Grammar} {p : Segments} {start : String}

namespace Grammar

/-- The rules come first behind the leading symbols, so a rule is not taken for an alias. -/
theorem findIdx?_start (hs : start ∈ g.rules) :
    ∃ i, g.ruleNames[i]? = some start ∧
      (g.symbols.drop g.leadingSymbols.length).findIdx? (·.name = start) = some i := by
  have hrule (name : String) : (Symbol.ofRule name).name = name := rfl
  obtain ⟨i, hi⟩ : ∃ i, g.ruleNames.findIdx? (· = start) = some i := by
    rw [← Option.isSome_iff_exists, List.findIdx?_isSome, List.any_eq_true]
    exact ⟨start, mem_ruleNames.2 hs, decide_eq_true rfl⟩
  refine ⟨i, ?_, ?_⟩
  · obtain ⟨hlt, hp, _⟩ := List.findIdx?_eq_some_iff_getElem.1 hi
    rw [List.getElem?_eq_getElem hlt, of_decide_eq_true hp]
  · rw [symbols_eq_append, plainSymbols, List.append_assoc, List.drop_left, List.findIdx?_append,
      List.findIdx?_map]
    simp only [Function.comp_def, hrule, hi, Option.some_or]

theorem length_leadingSymbols :
    g.leadingSymbols.length = 1 + g.segments.literals.length + g.segments.externals.length := by
  simp only [leadingSymbols, segments, List.length_cons, List.length_append, List.length_map]
  omega

theorem toNat_ofNat_place {i n : Nat} (hi : i < n) (hn : n ≤ maxEntries) :
    (UInt16.ofNat i).toNat = i := by
  refine UInt16.toNat_ofNat_of_lt' ?_
  unfold maxEntries at hn
  unfold UInt16.size
  omega

theorem place_lt_length {i : Nat} (hi : p.rules[i]? = some start) :
    1 + p.literals.length + p.externals.length + i < p.symbols.length := by
  obtain ⟨hlt, _⟩ := List.getElem?_eq_some_iff.1 hi
  rw [Segments.length_symbols]
  omega

theorem tables_eq (hs : start ∈ g.rules) :
    ∃ i, g.segments.rules[i]? = some start ∧ g.tables start =
      if maxEntries < g.segments.symbols.length then
        .error (.tooManyEntries g.segments.symbols.length)
      else if maxEntries < g.segments.fields.length then
        .error (.tooManyEntries g.segments.fields.length)
      else .ok ⟨g.segments.symbols, g.segments.fields, g.segments.externals.length,
        .ofNat (1 + g.segments.literals.length + g.segments.externals.length + i)⟩ := by
  obtain ⟨i, hi, hfind⟩ := findIdx?_start hs
  refine ⟨i, hi, ?_⟩
  unfold tables
  simp only [hfind]
  simp only [symbols_eq, length_leadingSymbols]
  split
  · rfl
  · next hlen =>
    have hid : 1 + g.segments.literals.length + g.segments.externals.length + i ≤ maxEntries :=
      Nat.le_trans (Nat.le_of_lt (place_lt_length hi)) (Nat.not_lt.1 hlen)
    split
    · next hf => exact (if_pos hf).symm
    · next hf =>
      rw [Option.bind_eq_bind, Option.bind_some, idOfNat?, if_pos hid]
      exact (if_neg hf).symm

theorem tables_error_iff (hs : start ∈ g.rules) {d : Tables.Defect} :
    g.tables start = .error d ↔
      maxEntries < g.segments.symbols.length ∧ d = .tooManyEntries g.segments.symbols.length ∨
      g.segments.symbols.length ≤ maxEntries ∧ maxEntries < g.segments.fields.length ∧
        d = .tooManyEntries g.segments.fields.length := by
  obtain ⟨i, _, heq⟩ := tables_eq hs
  rw [heq]
  split
  · next hlen => simp [hlen, Nat.not_le.2 hlen, eq_comm]
  · next hlen =>
    split
    · next hf => simp [hlen, hf, Nat.not_lt.1 hlen, eq_comm]
    · next hf => simp [hlen, hf]

theorem tables_ok_iff (hs : start ∈ g.rules) :
    (∃ t, g.tables start = .ok t) ↔
      g.segments.symbols.length ≤ maxEntries ∧ g.segments.fields.length ≤ maxEntries := by
  obtain ⟨i, _, heq⟩ := tables_eq hs
  rw [heq]
  split
  · next hlen => simp [hlen]
  · next hlen =>
    split
    · next hf => simp [hf]
    · next hf => simp [Nat.not_lt.1 hlen, Nat.not_lt.1 hf]

theorem tables_of_ok (hs : start ∈ g.rules) {t : Tables} (ht : g.tables start = .ok t) :
    t.symbols = g.segments.symbols ∧ t.fields = g.segments.fields ∧
      t.externalCount = g.segments.externals.length ∧
      ∃ i, g.segments.rules[i]? = some start ∧ t.startSymbol.toNat =
        1 + g.segments.literals.length + g.segments.externals.length + i := by
  obtain ⟨hlen, hf⟩ := (tables_ok_iff hs).1 ⟨t, ht⟩
  obtain ⟨i, hi, heq⟩ := tables_eq hs
  rw [heq, if_neg (Nat.not_lt.2 hlen), if_neg (Nat.not_lt.2 hf)] at ht
  obtain rfl := Except.ok.inj ht
  exact ⟨rfl, rfl, rfl, i, hi, toNat_ofNat_place (place_lt_length hi) hlen⟩

end Grammar

/-- The id of a symbol is its place. -/
def Tables.HasId (t : Tables) (s : Symbol) : Prop := ∃ id : UInt16, t.symbols[id.toNat]? = some s

/-- The tables of a grammar that is entered at `start`, with its names in the segments `p`. -/
structure Tables.Describes (t : Tables) (p : Segments) (g : Grammar) (start : String) : Prop where
  symbols : t.symbols = p.symbols
  fields : t.fields = p.fields
  externalCount : t.externalCount = p.externals.length
  start : ∃ i, p.rules[i]? = some start ∧
    t.startSymbol.toNat = 1 + p.literals.length + p.externals.length + i
  external : ∀ k r, g.declaredExternals[k]? = some r → ∃ name, r.label.name = some name ∧
    ∃ id : UInt16, id.toNat = 1 + p.literals.length + k ∧
      t.symbols[id.toNat]? = some ⟨name, .external⟩
  hasId_rule : ∀ name ∈ g.rules, t.HasId (.ofRule name)
  hasId_literal : ∀ value, g.IsLiteral value → t.HasId ⟨value, .anonymous⟩
  hasId_alias : ∀ named value, g.IsAlias named value →
    ∃ s : Symbol, s.name = value ∧ s.isNamed = named ∧ t.HasId s

namespace Tables

variable {t : Tables}

theorem exists_id (hlen : t.symbols.length ≤ maxEntries) {i : Nat} {s : Symbol}
    (hi : t.symbols[i]? = some s) :
    ∃ id : UInt16, id.toNat = i ∧ t.symbols[id.toNat]? = some s := by
  obtain ⟨hlt, _⟩ := List.getElem?_eq_some_iff.1 hi
  have hid := Grammar.toNat_ofNat_place hlt hlen
  exact ⟨.ofNat i, hid, by rw [hid, hi]⟩

theorem hasId_of_mem (hlen : t.symbols.length ≤ maxEntries) {s : Symbol} (hs : s ∈ t.symbols) :
    t.HasId s := by
  obtain ⟨i, hi⟩ := List.getElem?_of_mem hs
  obtain ⟨id, _, hid⟩ := exists_id hlen hi
  exact ⟨id, hid⟩

end Tables

theorem exists_external (hp : p.Of g) {k : Nat} {r : Rule} (hr : g.declaredExternals[k]? = some r) :
    ∃ name, r.label.name = some name ∧ p.externals[k]? = some name := by
  have hk := congrArg (fun names => names[k]?) hp.externals
  simp only [List.getElem?_map, hr, Option.map_some] at hk
  obtain ⟨name, hname, heq⟩ := Option.map_eq_some_iff.1 hk
  exact ⟨name, heq.symm, hname⟩

theorem isNamed_ofRule (name : String) : (Symbol.ofRule name).isNamed = true := by
  unfold Symbol.ofRule
  split <;> rfl

theorem exists_aliasSymbol (hp : p.Of g) {named : Bool} {value : String}
    (ha : g.IsAlias named value) :
    ∃ s ∈ p.symbols, s.name = value ∧ s.isNamed = named := by
  simp only [Segments.mem_symbols]
  cases named with
  | false =>
    refine ⟨⟨value, .anonymous⟩, ?_, rfl, rfl⟩
    by_cases hl : g.IsLiteral value
    · exact .inr (.inl ⟨value, (hp.literals.mem_iff value).2 hl, rfl⟩)
    · exact .inr (.inr (.inr (.inr (.inl ⟨value, (hp.anonymous.mem_iff value).2 ⟨ha, hl⟩, rfl⟩))))
  | true =>
    by_cases hr : value ∈ g.rules
    · refine ⟨.ofRule value, ?_, rfl, isNamed_ofRule value⟩
      exact .inr (.inr (.inr (.inl ⟨value, (hp.rules.mem_iff value).2 hr, rfl⟩)))
    · refine ⟨⟨value, .regular⟩, ?_, rfl, rfl⟩
      exact .inr (.inr (.inr (.inr (.inr ⟨value, (hp.regular.mem_iff value).2 ⟨ha, hr⟩, rfl⟩))))

theorem describes_of_ok (hv : g.violation? start = none) {t : Tables}
    (ht : g.tables start = .ok t) : t.Describes g.segments g start := by
  have hp := Grammar.segments_of hv
  have hs := Grammar.start_mem_rules hv
  obtain ⟨hsym, hfields, hcount, hstart⟩ := Grammar.tables_of_ok hs ht
  have hlen : t.symbols.length ≤ maxEntries := by
    rw [hsym]
    exact ((Grammar.tables_ok_iff hs).1 ⟨t, ht⟩).1
  have hid {s : Symbol} (hmem : s ∈ g.segments.symbols) : t.HasId s :=
    Tables.hasId_of_mem hlen (hsym ▸ hmem)
  refine ⟨hsym, hfields, hcount, hstart, fun k r hr => ?_, fun name hname => ?_,
    fun value hl => ?_, fun named value ha => ?_⟩
  · obtain ⟨name, hname, hk⟩ := exists_external hp hr
    exact ⟨name, hname, Tables.exists_id hlen (hsym ▸ Segments.getElem?_external hk)⟩
  · have hrule := (hp.rules.mem_iff name).2 hname
    exact hid (Segments.mem_symbols.2 (.inr (.inr (.inr (.inl ⟨name, hrule, rfl⟩)))))
  · have hliteral := (hp.literals.mem_iff value).2 hl
    exact hid (Segments.mem_symbols.2 (.inr (.inl ⟨value, hliteral, rfl⟩)))
  · obtain ⟨s, hmem, hname, hnamed⟩ := exists_aliasSymbol hp ha
    exact ⟨s, hname, hnamed, hid hmem⟩

/-- The tables of a validated grammar are missing only if one of them is too long, and else they
list the names of the grammar segment by segment. -/
theorem tables_exact {strict : Bool} {findings : List Finding}
    (h : (g.validate start strict).result = .ok findings) :
    ∃ p : Segments, p.Of g ∧ (∀ q : Segments, q.Of g → q = p) ∧
      ((∃ d, g.tables start = .error d) ↔ 65535 < p.symbols.length ∨ 65535 < p.fields.length) ∧
      ∀ t, g.tables start = .ok t → t.Describes p g start := by
  have hv := Grammar.violation?_eq_none_of_ok h
  have hs := Grammar.start_mem_rules hv
  have hp := Grammar.segments_of hv
  refine ⟨g.segments, hp, fun q hq => hq.unique hp, ?_, fun t ht => describes_of_ok hv ht⟩
  constructor
  · rintro ⟨d, hd⟩
    rcases (Grammar.tables_error_iff hs).1 hd with ⟨hlen, _⟩ | ⟨_, hf, _⟩
    · exact .inl hlen
    · exact .inr hf
  · intro hlong
    cases ht : g.tables start with
    | error d => exact ⟨d, rfl⟩
    | ok t =>
      obtain ⟨hlen, hf⟩ := (Grammar.tables_ok_iff hs).1 ⟨t, ht⟩
      unfold maxEntries at hlen hf
      omega

/-- A list of items, with names for every segment of the table. -/
def listing : Grammar :=
  let item : Rule := .node { Rule.Label.ofKind .field with name := some "word" } none (some .blank)
  let delimiter : Rule := .node
    { Rule.Label.ofKind .aliased with value := some (.text "delimiter") } none
    (some (.symbol "comma"))
  let entry : Rule := .node
    { Rule.Label.ofKind .aliased with value := some (.text "entry"), named := some true } none
    (some (.symbol "_item"))
  { schema := none, name := "listing", inherits := none, extras := none,
    externals := some [.symbol "indent"], inlined := none, precedences := none, conflicts := none,
    reservedWords := none, word := none, supertypes := none,
    rules := .ofList [("comma", Rule.literal ","), ("_item", item),
      ("list", Rule.seq [.literal "(", .symbol "indent", delimiter, entry])] }

theorem tables_listing :
    ∃ p : Segments, p.Of listing ∧ Tables.Describes
      ⟨[⟨"end", .builtin⟩, ⟨"(", .anonymous⟩, ⟨"indent", .external⟩, ⟨"_item", .hidden⟩,
        ⟨"comma", .regular⟩, ⟨"list", .regular⟩, ⟨"delimiter", .anonymous⟩, ⟨"entry", .regular⟩],
        ["word"], 1, 5⟩ p listing "list" := by
  have hv : listing.violation? "list" = none := by decide +kernel
  obtain ⟨p, hp, _, _, ht⟩ := tables_exact (Grammar.result_validate hv)
  exact ⟨p, hp, ht _ (by decide +kernel)⟩

end GrammarLoader
