import GrammarLoader.Language.Load
import GrammarLoader.Proofs.Validation.Unordered

/-! Loading with the rules in a table that keeps them in no particular order: the tables of a
language are numbered by sorted names, so nothing in a language tells how its definition orders its
rules. -/

namespace GrammarLoader

namespace Listing

variable (l : Listing)

def collect (names : Rule → List String) : Names :=
  .ofList (l.namedRules.flatMap fun (_, r) => names r)

def aliases : List (Bool × String) :=
  [false, true].flatMap fun named => (l.collect (Rule.aliasNames · named)).toList.map (named, ·)

def provides (table : Array Symbol) : Bool × String → Bool
  | (true, name) => l.names.contains name
  | (false, name) => table.any fun s => s.kind = .anonymous ∧ s.name = name

def addAlias (table : Array Symbol) (given : Bool × String) : Array Symbol :=
  if l.provides table given then table else table.push (Grammar.aliasSymbol given)

def leadingSymbols : List Symbol :=
  .endOfText :: ((l.collect Rule.literals).toList.map (⟨·, .anonymous⟩) ++
    l.sections.externalNames.map (⟨·, .external⟩))

def symbols : List Symbol :=
  (l.aliases.foldl l.addAlias (l.leadingSymbols ++ l.ruleNames.map Symbol.ofRule).toArray).toList

def tables (start : String) : Except Tables.Defect Tables :=
  let symbols := l.symbols
  let fields := (l.collect Rule.fieldNames).toList
  if maxEntries < symbols.length then .error (.tooManyEntries symbols.length)
  else if maxEntries < fields.length then .error (.tooManyEntries fields.length)
  else
    let skipped := l.leadingSymbols.length
    match (symbols.drop skipped).findIdx? (·.name = start) >>= fun i => idOfNat? (skipped + i) with
    | some startSymbol => .ok ⟨symbols, fields, l.sections.externalNames.length, startSymbol⟩
    | none => .error (.undefinedStart start)

variable {l}

section
variable (h : DistinctNames l.entries)
include h

theorem collect_eq (names : Rule → List String) : l.collect names = l.grammar.collect names := by
  rw [collect, namedRules_eq h]
  rfl

theorem leadingSymbols_eq : l.leadingSymbols = l.grammar.leadingSymbols := by
  rw [leadingSymbols, collect_eq h]
  rfl

theorem symbols_eq : l.symbols = l.grammar.symbols := by
  have haliases : l.aliases = l.grammar.aliases := by
    simp only [aliases, collect_eq h]
    rfl
  have haddAlias : l.addAlias = l.grammar.addAlias := by
    funext table given
    have hprovides : l.provides table given = l.grammar.provides table given := by
      obtain ⟨named, name⟩ := given
      cases named with
      | true => exact (contains_rules h name).symm
      | false => rfl
    rw [addAlias, hprovides]
    rfl
  rw [symbols, haliases, haddAlias, leadingSymbols_eq h, ruleNames_eq h]
  rfl

theorem tables_eq (start : String) : l.tables start = l.grammar.tables start := by
  rw [tables, symbols_eq h, collect_eq h, leadingSymbols_eq h]
  rfl

end

/-- The table has the last entry of each name in the listing, in whatever order. -/
structure Tabulates (t l : Listing) : Prop where
  sections : t.sections = l.sections
  entries : t.entries.Perm (lastEntries l.entries)

variable {l' t : Listing}

namespace Tabulates

theorem distinct (ht : t.Tabulates l) : DistinctNames t.entries :=
  (ht.entries.map Prod.fst).nodup_iff.2 (distinctNames_lastEntries l.entries)

theorem grammar_eq (ht : t.Tabulates l) : t.grammar = l.grammar := by
  have hrules : Dictionary.ofEntries t.entries = Dictionary.ofEntries l.entries := by
    refine Std.ExtTreeMap.ext_getElem? fun name => ?_
    have hlast := distinctNames_lastEntries l.entries
    rw [← ofEntries_lastEntries l.entries, ht.distinct.getElem?_ofEntries, hlast.getElem?_ofEntries,
      hlast.lookup_perm ht.entries]
  rw [Listing.grammar, Listing.grammar, hrules, ht.sections]

end Tabulates

/-- Nothing tells the two listings apart: not validation, and not loading a definition that lists
the rules like the one or like the other. -/
structure Alike (l l' : Listing) : Prop where
  validate : ∀ start strict, l'.grammar.validate start strict = l.grammar.validate start strict
  load : ∀ d d', Listing.ofText d = .ok l → Listing.ofText d' = .ok l' →
    ∀ (h : Handle) (o : LoadOptions),
      Language.load { h with definition := d' } o = Language.load { h with definition := d } o

theorem Tabulates.alike (ht : t.Tabulates l) : l.Alike t where
  validate start strict := by rw [ht.grammar_eq]
  load d d' hd hd' h o := by
    have hsame : Grammar.ofText d' = Grammar.ofText d := by
      rw [Grammar.ofText_eq, Grammar.ofText_eq, hd, hd', Except.map, Except.map, ht.grammar_eq]
    unfold Language.load
    dsimp only
    rw [hsame]
    rfl

end Listing

namespace Language

open Listing

def tablesOf (h : Handle) (l : Listing) : Except Defect Tables :=
  match externalDefect? l.sections h.externalTokens with
  | some d => .error d
  | none => (l.tables h.startRule).mapError .tables

def ofListing (h : Handle) (l : Listing) (strict : Bool) : Logged (Except Defect Language) :=
  if l.sections.name ≠ h.name then ⟨.error (.wrongName l.sections.name), []⟩
  else
    let ⟨verdict, log⟩ := l.validate h.startRule strict
    match verdict with
    | .error why => ⟨.error (.rejected why), log⟩
    | .ok findings =>
      match tablesOf h l with
      | .error d => ⟨.error d, log⟩
      | .ok tables =>
        ⟨.ok ⟨h.name, h.version, tables, findings, l.grammar⟩,
          log ++ [.loaded h.name h.version tables.symbols.length tables.fields.length]⟩

/-- Loading in which `table` puts the rules of a definition into a table. -/
def loadThrough (table : Listing → Listing) (h : Handle) (options : LoadOptions) :
    Logged (Except LoadError Language) :=
  if h.version < options.oldest ∨ options.newest < h.version then
    ⟨.error (.incompatible h.name h.version options.oldest options.newest), []⟩
  else
    match Listing.ofText h.definition with
    | .error e => ⟨.error (.malformed h.name (.unreadable e)), []⟩
    | .ok l =>
      let ⟨result, log⟩ := ofListing h (table l) options.strict
      ⟨result.mapError fun d => .malformed h.name (.invalid d), log⟩

variable {l : Listing}

theorem ofListing_eq (hl : DistinctNames l.entries) (h : Handle) (strict : Bool) :
    ofListing h l strict = ofGrammar h l.grammar strict := by
  have htables : tablesOf h l = tablesFor h l.grammar := by
    rw [tablesOf, tables_eq hl]
    rfl
  rw [ofListing, validate_eq hl, htables]
  rfl

/-- Loading finds the same, whatever order the table has. -/
theorem loadThrough_eq {table : Listing → Listing} (htable : ∀ l, (table l).Tabulates l)
    (h : Handle) (o : LoadOptions) : loadThrough table h o = load h o := by
  rw [loadThrough, load, Grammar.ofText_eq]
  split
  · rfl
  · cases Listing.ofText h.definition with
    | error e => rfl
    | ok l =>
      dsimp only [Except.map]
      rw [ofListing_eq (htable l).distinct, (htable l).grammar_eq]

/-- A definition may list its rules in any order, and of a name that it lists several times only the
last entry counts. Nor does it matter in which order the rules lie in a table that the passes of
validation and loading walk over. -/
theorem load_unordered :
    (∀ l l' : Listing, DistinctNames l.entries → l'.entries.Perm l.entries →
      l'.sections = l.sections → l.Alike l') ∧
    (∀ l l' : Listing, l'.entries = lastEntries l.entries → l'.sections = l.sections → l.Alike l') ∧
    (∀ text, Grammar.ofText text = (Listing.ofText text).map Listing.grammar) ∧
    (∀ l t : Listing, t.Tabulates l → ∀ start strict,
      t.validate start strict = l.grammar.validate start strict) ∧
    ∀ table : Listing → Listing, (∀ l, (table l).Tabulates l) → ∀ h o,
      loadThrough table h o = load h o := by
  refine ⟨fun l l' hl hperm hsections => ?_, fun l l' hlast hsections => ?_, Grammar.ofText_eq,
    fun l t ht start strict => ?_, fun _ htable => loadThrough_eq htable⟩
  · exact Tabulates.alike ⟨hsections, hl.lastEntries_eq.symm ▸ hperm⟩
  · exact Tabulates.alike ⟨hsections, hlast ▸ .refl _⟩
  · rw [validate_eq ht.distinct, ht.grammar_eq]

/-- The definition of a grammar whose section of rules holds `entries`. -/
def definitionOf (entries : List String) : String :=
  "\x7b\"name\":\"g\",\"rules\":\x7b" ++ ",".intercalate entries ++ "\x7d\x7d"

def firstEntry : String := "\"a\":\x7b\"type\":\"BLANK\"\x7d"

def secondEntry : String := "\"b\":\x7b\"type\":\"SYMBOL\",\"name\":\"a\"\x7d"

def lostEntry : String := "\"a\":\x7b\"type\":\"SYMBOL\",\"name\":\"c\"\x7d"

/-- Two rules in one order and in the other, and behind an entry that does not count. -/
theorem load_unordered_two_rules :
    ∀ entries ∈ [[firstEntry, secondEntry], [secondEntry, firstEntry],
        [lostEntry, firstEntry, secondEntry]],
      (load ⟨"g", 14, "b", [], definitionOf entries⟩ .standard).result.toOption.map
        (·.tables.symbols) = some [⟨"end", .builtin⟩, ⟨"a", .regular⟩, ⟨"b", .regular⟩] := by
  obtain ⟨hperm, hlast, -⟩ := load_unordered
  let sections : Grammar := { Grammar.start with name := "g" }
  have hplain : Listing.ofText (definitionOf [firstEntry, secondEntry]) =
      .ok ⟨sections, [("a", .blank), ("b", .symbol "a")]⟩ := by
    with_unfolding_all rfl
  have hswapped : Listing.ofText (definitionOf [secondEntry, firstEntry]) =
      .ok ⟨sections, [("b", .symbol "a"), ("a", .blank)]⟩ := by
    with_unfolding_all rfl
  have hlost : Listing.ofText (definitionOf [lostEntry, firstEntry, secondEntry]) =
      .ok ⟨sections, [("a", .symbol "c"), ("a", .blank), ("b", .symbol "a")]⟩ := by
    with_unfolding_all rfl
  have hload : (load ⟨"g", 14, "b", [], definitionOf [firstEntry, secondEntry]⟩
      .standard).result.toOption.map (·.tables.symbols) =
        some [⟨"end", .builtin⟩, ⟨"a", .regular⟩, ⟨"b", .regular⟩] := by
    decide +kernel
  let h : Handle := ⟨"g", 14, "b", [], ""⟩
  have hswap : Alike ⟨sections, [("a", .blank), ("b", .symbol "a")]⟩
      ⟨sections, [("b", .symbol "a"), ("a", .blank)]⟩ := hperm _ _ (by decide) (.swap _ _ _) rfl
  have hdrop : Alike ⟨sections, [("a", .symbol "c"), ("a", .blank), ("b", .symbol "a")]⟩
      ⟨sections, [("a", .blank), ("b", .symbol "a")]⟩ := hlast _ _ (by rfl) rfl
  have hswap := hswap.load _ _ hplain hswapped h .standard
  have hdrop := hdrop.load _ _ hlost hplain h .standard
  simp only [List.forall_mem_cons]
  refine ⟨hload, ?_, ?_, fun _ hmem => absurd hmem List.not_mem_nil⟩
  · exact (congrArg (·.result.toOption.map (·.tables.symbols)) hswap).trans hload
  · exact (congrArg (·.result.toOption.map (·.tables.symbols)) hdrop.symm).trans hload

end Language
end GrammarLoader
