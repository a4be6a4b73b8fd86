import GrammarLoader.Language.Load
import GrammarLoader.Proofs.Language.Tables

/-!
The rules that a grammar must fulfil to be loaded, in the order in which they are checked: the first
that fails is reported. Nothing else can go wrong, the tables included.
-/

namespace GrammarLoader

/-- What a definition that can be read must fulfil, in the order in which it is checked. -/
inductive IntegrityRule
  | name
  | validity
  | externals
  | size

namespace IntegrityRule

def number : IntegrityRule → Nat
  | name => 1
  | validity => 2
  | externals => 3
  | size => 4

/-- The grammar fulfils the rule for a handle. -/
def Holds (h : Handle) (strict : Bool) (g : Grammar) : IntegrityRule → Prop
  | name => g.name = h.name
  | validity => ∃ findings, (g.validate h.startRule strict).result = .ok findings
  | externals => (∀ r ∈ g.externals.getD [], r.kind = .symbol) ∧
      (g.externals.getD []).map (·.label.name) = h.externalTokens.map some
  | size => ∃ p : Segments, p.Of g ∧ p.symbols.length ≤ 65535 ∧ p.fields.length ≤ 65535

/-- What is said about a grammar that does not fulfil the rule. -/
def Reports (h : Handle) (strict : Bool) (g : Grammar) : IntegrityRule → Defect → Prop
  | name, d => d = .wrongName g.name
  | validity, d => ∃ why, (g.validate h.startRule strict).result = .error why ∧ d = .rejected why
  | externals, d => (∃ r ∈ g.externals.getD [], r.kind ≠ .symbol) ∧ d = .unnamedExternal ∨
      (∀ r ∈ g.externals.getD [], r.kind = .symbol) ∧
        ∃ names, (g.externals.getD []).map (·.label.name) = names.map some ∧
          d = .otherExternals names h.externalTokens
  | size, d => ∃ p : Segments, p.Of g ∧
      (65535 < p.symbols.length ∧ d = .tables (.tooManyEntries p.symbols.length) ∨
        p.symbols.length ≤ 65535 ∧ d = .tables (.tooManyEntries p.fields.length))

/-- The rule fails, and those before it hold. -/
def FailsFirst (h : Handle) (strict : Bool) (g : Grammar) (rule : IntegrityRule) : Prop :=
  ¬rule.Holds h strict g ∧ ∀ before : IntegrityRule, before.number < rule.number →
    before.Holds h strict g

variable {h : Handle} {strict : Bool} {g : Grammar}

theorem eq_of_number_eq {a b : IntegrityRule} (hab : a.number = b.number) : a = b := by
  cases a <;> cases b <;> first | rfl | cases hab

theorem FailsFirst.unique {a b : IntegrityRule} (ha : a.FailsFirst h strict g)
    (hb : b.FailsFirst h strict g) : a = b := by
  rcases Nat.lt_trichotomy a.number b.number with hlt | heq | hlt
  · exact absurd (hb.2 a hlt) ha.1
  · exact eq_of_number_eq heq
  · exact absurd (ha.2 b hlt) hb.1

theorem Reports.unique {rule : IntegrityRule} {d e : Defect} (hd : rule.Reports h strict g d)
    (he : rule.Reports h strict g e) : d = e := by
  cases rule with
  | name => exact hd.trans he.symm
  | validity =>
    obtain ⟨why, hwhy, rfl⟩ := hd
    obtain ⟨why', hwhy', rfl⟩ := he
    rw [hwhy] at hwhy'
    rw [Except.error.inj hwhy']
  | externals =>
    rcases hd with ⟨⟨r, hr, hk⟩, rfl⟩ | ⟨hall, names, hnames, rfl⟩ <;>
      rcases he with ⟨⟨r', hr', hk'⟩, rfl⟩ | ⟨hall', names', hnames', rfl⟩
    · rfl
    · exact absurd (hall' r hr) hk
    · exact absurd (hall r' hr') hk'
    · have hsame : names = names' :=
        (List.map_inj_right fun _ _ => Option.some.inj).1 (hnames.symm.trans hnames')
      rw [hsame]
  | size =>
    obtain ⟨p, hp, hd⟩ := hd
    obtain ⟨q, hq, he⟩ := he
    obtain rfl := hp.unique hq
    rcases hd with ⟨hd, rfl⟩ | ⟨hd, rfl⟩ <;> rcases he with ⟨he, rfl⟩ | ⟨he, rfl⟩ <;>
      first | rfl | omega

end IntegrityRule

namespace Grammar

variable {g : Grammar} {start : String}

theorem length_externalNames_iff (hv : g.violation? start = none) :
    g.externalNames.length = (g.externals.getD []).length ↔
      ∀ r ∈ g.externals.getD [], r.kind = .symbol := by
  have hlen := congrArg List.length (map_some_externalNames hv)
  rw [List.length_map, List.length_map] at hlen
  rw [hlen, declaredExternals, List.length_filter_eq_length_iff]
  simp only [decide_eq_true_eq]

theorem externalNames_eq_iff (hv : g.violation? start = none)
    (hall : ∀ r ∈ g.externals.getD [], r.kind = .symbol) (scanned : List String) :
    (g.externals.getD []).map (·.label.name) = scanned.map some ↔ g.externalNames = scanned := by
  have hself : g.declaredExternals = g.externals.getD [] :=
    List.filter_eq_self.2 fun r hr => decide_eq_true (hall r hr)
  rw [← hself, ← map_some_externalNames hv]
  exact List.map_inj_right fun _ _ => Option.some.inj

end Grammar

namespace Language

open IntegrityRule

variable {h : Handle} {strict : Bool} {g : Grammar}

/-- The last two rules decide about the tables of a grammar without violations. -/
theorem tablesFor_cases (strict : Bool) (hv : g.violation? h.startRule = none) :
    (∃ t, tablesFor h g = .ok t) ∧ externals.Holds h strict g ∧ size.Holds h strict g ∨
    ∃ d, tablesFor h g = .error d ∧
      (¬externals.Holds h strict g ∧ externals.Reports h strict g d ∨
        externals.Holds h strict g ∧ ¬size.Holds h strict g ∧ size.Reports h strict g d) := by
  have hs := Grammar.start_mem_rules hv
  have hlen := Grammar.length_externalNames_iff hv
  have hp := Grammar.segments_of hv
  unfold tablesFor externalDefect?
  by_cases hall : ∀ r ∈ g.externals.getD [], r.kind = .symbol
  · have hnames := Grammar.externalNames_eq_iff hv hall h.externalTokens
    rw [if_neg (not_not.2 (hlen.2 hall))]
    by_cases hsame : g.externalNames = h.externalTokens
    · have hext : externals.Holds h strict g := ⟨hall, hnames.2 hsame⟩
      rw [if_neg (not_not.2 hsame)]
      cases ht : g.tables h.startRule with
      | ok t => exact .inl ⟨⟨t, rfl⟩, hext, _, hp, (Grammar.tables_ok_iff hs).1 ⟨t, ht⟩⟩
      | error d =>
        refine .inr ⟨.tables d, rfl, .inr ⟨hext, ?_⟩⟩
        rcases (Grammar.tables_error_iff hs).1 ht with ⟨hlong, rfl⟩ | ⟨hshort, hlong, rfl⟩
        · refine ⟨?_, _, hp, .inl ⟨hlong, rfl⟩⟩
          rintro ⟨p, hp', hsymbols, -⟩
          obtain rfl := hp'.unique hp
          exact Nat.not_le.2 hlong hsymbols
        · refine ⟨?_, _, hp, .inr ⟨hshort, rfl⟩⟩
          rintro ⟨p, hp', -, hfields⟩
          obtain rfl := hp'.unique hp
          exact Nat.not_le.2 hlong hfields
    · rw [if_pos hsame]
      exact .inr ⟨_, rfl, .inl ⟨fun hext => hsame (hnames.1 hext.2),
        .inr ⟨hall, _, (Grammar.externalNames_eq_iff hv hall _).2 rfl, rfl⟩⟩⟩
  · rw [if_pos (mt hlen.1 hall)]
    refine .inr ⟨_, rfl, .inl ⟨fun hext => hall hext.1, .inl ⟨?_, rfl⟩⟩⟩
    simpa only [not_forall, exists_prop] using hall

theorem ofGrammar_result :
    (ofGrammar h g strict).result =
      if g.name ≠ h.name then .error (.wrongName g.name)
      else match (g.validate h.startRule strict).result with
        | .error why => .error (.rejected why)
        | .ok findings =>
          (tablesFor h g).map fun tables => ⟨h.name, h.version, tables, findings, g⟩ := by
  unfold ofGrammar
  split
  · rfl
  · cases g.validate h.startRule strict with
    | mk verdict log =>
      cases verdict with
      | error why => rfl
      | ok findings => cases tablesFor h g <;> rfl

theorem ofGrammar_cases :
    (∃ l, (ofGrammar h g strict).result = .ok l) ∧ (∀ rule, Holds h strict g rule) ∨
    ∃ d rule, (ofGrammar h g strict).result = .error d ∧ FailsFirst h strict g rule ∧
      Reports h strict g rule d := by
  rw [ofGrammar_result]
  by_cases hname : g.name = h.name
  · rw [if_neg (not_not.2 hname)]
    cases hval : (g.validate h.startRule strict).result with
    | error why =>
      refine .inr ⟨.rejected why, .validity, rfl, ⟨?_, ?_⟩, why, hval, rfl⟩
      · rintro ⟨findings, hok⟩
        rw [hval] at hok
        cases hok
      · intro before hb
        cases before <;> first | exact hname | exact absurd hb (by decide)
    -- the table is built only behind the check of the external tokens
    | ok findings =>
      have hok : validity.Holds h strict g := ⟨findings, hval⟩
      rcases tablesFor_cases strict (Grammar.violation?_eq_none_of_ok hval) with
        ⟨⟨t, ht⟩, hext, hsize⟩ | ⟨d, ht, ⟨hext, hd⟩ | ⟨hext, hsize, hd⟩⟩
      · refine .inl ⟨?_, ?_⟩
        · rw [ht]
          exact ⟨_, rfl⟩
        · intro rule
          cases rule with
          | name => exact hname
          | validity => exact hok
          | externals => exact hext
          | size => exact hsize
      · refine .inr ⟨d, .externals, ?_, ⟨hext, ?_⟩, hd⟩
        · rw [ht]
          rfl
        · intro before hb
          cases before <;> first | exact hname | exact hok | exact absurd hb (by decide)
      · refine .inr ⟨d, .size, ?_, ⟨hsize, ?_⟩, hd⟩
        · rw [ht]
          rfl
        · intro before hb
          cases before <;>
            first | exact hname | exact hok | exact hext | exact absurd hb (by decide)
  · rw [if_pos hname]
    refine .inr ⟨_, .name, rfl, ⟨hname, ?_⟩, rfl⟩
    intro before hb
    cases before <;> exact absurd hb (by decide)

theorem ofGrammar_error_iff {d : Defect} :
    (ofGrammar h g strict).result = .error d ↔
      ∃ rule, FailsFirst h strict g rule ∧ Reports h strict g rule d := by
  constructor
  · intro hd
    rcases ofGrammar_cases (h := h) (g := g) with ⟨⟨l, hl⟩, _⟩ | ⟨e, rule, he, hf, hr⟩
    · rw [hd] at hl
      cases hl
    · rw [hd] at he
      obtain rfl := Except.error.inj he
      exact ⟨rule, hf, hr⟩
  · rintro ⟨rule, hf, hr⟩
    rcases ofGrammar_cases (h := h) (g := g) with ⟨_, hall⟩ | ⟨e, rule', he, hf', hr'⟩
    · exact absurd (hall rule) hf.1
    · obtain rfl := hf.unique hf'
      rw [he, hr.unique hr']

theorem ofGrammar_ok_iff :
    (∃ l, (ofGrammar h g strict).result = .ok l) ↔ ∀ rule, Holds h strict g rule := by
  constructor
  · rintro ⟨l, hl⟩
    rcases ofGrammar_cases (h := h) (g := g) with ⟨_, hall⟩ | ⟨d, _, hd, _⟩
    · exact hall
    · rw [hl] at hd
      cases hd
  · intro hall
    rcases ofGrammar_cases (h := h) (g := g) with ⟨hok, _⟩ | ⟨_, rule, _, hf, _⟩
    · exact hok
    · exact absurd (hall rule) hf.1

theorem parts_of_ofGrammar {l : Language} (hl : (ofGrammar h g strict).result = .ok l) :
    l.name = h.name ∧ l.version = h.version ∧ l.grammar = g ∧
      (g.validate h.startRule strict).result = .ok l.findings ∧
        tablesFor h g = .ok l.tables := by
  rw [ofGrammar_result] at hl
  split at hl
  · cases hl
  · split at hl
    · cases hl
    · next findings hval =>
      cases ht : tablesFor h g with
      | error d =>
        rw [ht] at hl
        cases hl
      | ok tables =>
        rw [ht] at hl
        obtain rfl := Except.ok.inj hl
        exact ⟨rfl, rfl, rfl, hval, rfl⟩

theorem tables_of_tablesFor {t : Tables} (ht : tablesFor h g = .ok t) :
    g.tables h.startRule = .ok t := by
  unfold tablesFor at ht
  split at ht
  · cases ht
  · cases hg : g.tables h.startRule with
    | error d =>
      rw [hg] at ht
      cases ht
    | ok tables =>
      rw [hg] at ht
      rw [Except.ok.inj ht]

theorem ofGrammar_withVersion (version : UInt32) :
    (ofGrammar (h.withVersion version) g strict).result =
      (ofGrammar h g strict).result.map fun l => { l with version } := by
  rw [ofGrammar_result, ofGrammar_result]
  by_cases hname : g.name = h.name
  · have hname' : g.name = (h.withVersion version).name := hname
    rw [if_neg (not_not.2 hname), if_neg (not_not.2 hname')]
    -- Neither validation nor the tables look at the version.
    have hvalidate : g.validate (h.withVersion version).startRule strict =
      g.validate h.startRule strict := rfl
    have htables : tablesFor (h.withVersion version) g = tablesFor h g := rfl
    rw [hvalidate, htables]
    cases (g.validate h.startRule strict).result with
    | error why => rfl
    | ok findings => cases tablesFor h g <;> rfl
  · have hname' : g.name ≠ (h.withVersion version).name := hname
    rw [if_pos hname, if_pos hname']
    rfl

end Language
end GrammarLoader
