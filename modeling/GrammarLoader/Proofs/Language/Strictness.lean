import GrammarLoader.Proofs.Language.Load
import GrammarLoader.Proofs.Validation.MixedPrecedence
import GrammarLoader.Proofs.Validation.Search
import GrammarLoader.Proofs.Validation.Violations

/-! What strictness changes. Up to the search for violations a grammar is loaded in the same way,
strict or not. If it has findings then, strict loading stops at the first of them, while lenient
loading logs them all and goes on; if it has none, the two go on in the same way. -/

namespace GrammarLoader

/-- The same options, but strict or not. -/
def LoadOptions.withStrict (o : LoadOptions) (strict : Bool) : LoadOptions := { o with strict }

/-- The error arises before the findings of a grammar are looked at. -/
def LoadError.BeforeFindings : LoadError → Prop
  | incompatible _ _ _ _ => True
  | malformed _ (.unreadable _) => True
  | malformed _ (.invalid (.wrongName _)) => True
  | malformed _ (.invalid (.rejected (.violation _))) => True
  | malformed _ (.invalid _) => False

namespace Grammar

theorem enumerates_leftRecursiveRules (g : Grammar) :
    Enumerates g.leftRecursiveRules fun name =>
      ∃ r, g.rule? name = some r ∧ r.beginsWith name = true := by
  constructor
  · have : (g.leftRecursiveRules.map id).Pairwise (· < ·) := by
      refine ascending_filterMap g.ascending_namedRules ?_
      rintro ⟨name, r⟩ b hb
      dsimp only at hb
      split at hb
      · exact (Option.some.inj hb).symm
      · cases hb
    rwa [List.map_id] at this
  · intro name
    rw [leftRecursiveRules, List.mem_filterMap]
    constructor
    · rintro ⟨⟨n, r⟩, hmem, hr⟩
      dsimp only at hr
      split at hr
      · next hbegin =>
        obtain rfl := Option.some.inj hr
        exact ⟨r, Dictionary.mem_toList.1 hmem, hbegin⟩
      · cases hr
    · rintro ⟨r, hr, hbegin⟩
      exact ⟨(name, r), Dictionary.mem_toList.2 hr, if_pos hbegin⟩

end Grammar

namespace Language

/-- The load comes to a grammar that lenient validation lets pass with these findings. -/
structure Validated (h : Handle) (o : LoadOptions) (g : Grammar) (findings : List Finding) :
    Prop where
  accepts : o.Accepts h.version
  read : Grammar.ofText h.definition = .ok g
  name : g.name = h.name
  passes : (g.validate h.startRule false).result = .ok findings

/-- The event at the end of a load that succeeds. -/
def loadedLog : Except LoadError Language → List Event
  | .ok l => [.loaded l.name l.version l.tables.symbols.length l.tables.fields.length]
  | .error _ => []

/-- How a grammar is loaded once validation has let it pass. -/
def conclude (h : Handle) (g : Grammar) (findings : List Finding) (log : List Event) :
    Logged (Except LoadError Language) :=
  let result := match tablesFor h g with
    | .ok tables => .ok ⟨h.name, h.version, tables, findings, g⟩
    | .error d => .error (.malformed h.name (.invalid d))
  ⟨result, log ++ loadedLog result⟩

variable {h : Handle} {o : LoadOptions} {g : Grammar} {findings : List Finding}

theorem parts_of_conclude {log : List Event} {l : Language}
    (hl : (conclude h g findings log).result = .ok l) : l.name = h.name ∧ l.findings = findings := by
  unfold conclude at hl
  cases ht : tablesFor h g with
  | ok tables =>
    rw [ht] at hl
    rw [← Except.ok.inj hl]
    exact ⟨rfl, rfl⟩
  | error d =>
    rw [ht] at hl
    cases hl

theorem log_of_conclude {log : List Event} {l : Language}
    (hl : (conclude h g findings log).result = .ok l) :
    (conclude h g findings log).log = log ++ loadedLog (.ok l) := by
  rw [← hl]
  rfl

theorem not_beforeFindings_of_conclude {log : List Event} {e : LoadError}
    (he : (conclude h g findings log).result = .error e) : ¬e.BeforeFindings := by
  unfold conclude at he
  cases ht : tablesFor h g with
  | ok tables =>
    rw [ht] at he
    cases he
  | error d =>
    rw [ht] at he
    obtain rfl := Except.error.inj he
    unfold tablesFor externalDefect? at ht
    split at ht
    · next d' hd =>
      obtain rfl := Except.error.inj ht
      split at hd
      · obtain rfl := Option.some.inj hd
        exact id
      · split at hd
        · obtain rfl := Option.some.inj hd
          exact id
        · cases hd
    · cases hg : g.tables h.startRule with
      | ok tables =>
        rw [hg] at ht
        cases ht
      | error why =>
        rw [hg] at ht
        obtain rfl := Except.error.inj ht
        exact id

namespace Validated

variable (hv : Validated h o g findings)
include hv

theorem violation?_eq_none : g.violation? h.startRule = none :=
  Grammar.violation?_eq_none_of_ok hv.passes

theorem findings_eq : g.findings h.startRule = findings := by
  have hpasses := hv.passes
  rw [Grammar.result_validate hv.violation?_eq_none] at hpasses
  exact Except.ok.inj hpasses

theorem load_eq (strict : Bool) :
    load h (o.withStrict strict) =
      match g.validate h.startRule strict with
      | ⟨.error why, log⟩ => ⟨.error (.malformed h.name (.invalid (.rejected why))), log⟩
      | ⟨.ok findings, log⟩ => conclude h g findings log := by
  have hin : ¬(h.version < o.oldest ∨ o.newest < h.version) := by
    rw [not_or, UInt32.not_lt, UInt32.not_lt]
    exact hv.accepts
  unfold load LoadOptions.withStrict
  rw [if_neg hin, hv.read]
  dsimp only
  unfold ofGrammar
  rw [if_neg (not_not.2 hv.name)]
  unfold conclude
  cases g.validate h.startRule strict with
  | mk verdict log =>
    cases verdict with
    | error why => rfl
    | ok findings =>
      dsimp only
      cases tablesFor h g with
      | ok tables => rfl
      | error d => exact congrArg (Logged.mk _) (List.append_nil log).symm

theorem load_lenient :
    load h (o.withStrict false) =
      conclude h g findings (g.recursionLog ++ findings.map (.finding g.name)) := by
  rw [hv.load_eq, Grammar.validate_lenient hv.violation?_eq_none, hv.findings_eq]

end Validated

theorem Validated.load_strict_of_nil (hv : Validated h o g []) :
    load h (o.withStrict true) = load h (o.withStrict false) := by
  rw [hv.load_lenient, hv.load_eq,
    Grammar.validate_strict_of_nil hv.violation?_eq_none hv.findings_eq]
  exact congrArg (conclude h g []) (List.append_nil g.recursionLog).symm

theorem Validated.load_strict_of_cons {f : Finding} {more : List Finding}
    (hv : Validated h o g (f :: more)) :
    load h (o.withStrict true) =
      ⟨.error (.malformed h.name (.invalid (.rejected (.finding f)))), g.recursionLog⟩ := by
  rw [hv.load_eq, Grammar.validate_strict_of_cons hv.violation?_eq_none hv.findings_eq]

/-- A load that does not come to the findings of a grammar fails in the same way, strict or not. -/
theorem validated_or_fails (h : Handle) (o : LoadOptions) :
    (∃ g findings, Validated h o g findings) ∨
      ∃ e, e.BeforeFindings ∧ ∀ strict, load h (o.withStrict strict) = ⟨.error e, []⟩ := by
  by_cases ho : h.version < o.oldest ∨ o.newest < h.version
  · exact .inr ⟨.incompatible h.name h.version o.oldest o.newest, trivial, fun strict => if_pos ho⟩
  have hload (strict : Bool) : load h (o.withStrict strict) = _ := if_neg ho
  rw [not_or, UInt32.not_lt, UInt32.not_lt] at ho
  cases hg : Grammar.ofText h.definition with
  | error e =>
    refine .inr ⟨.malformed h.name (.unreadable e), trivial, fun strict => ?_⟩
    rw [hload, hg]
  | ok g =>
    by_cases hname : g.name = h.name
    · cases hv : g.violation? h.startRule with
      | none => exact .inl ⟨g, _, ho, hg, hname, Grammar.result_validate hv⟩
      | some v =>
        refine .inr ⟨.malformed h.name (.invalid (.rejected (.violation v))), trivial,
          fun strict => ?_⟩
        rw [hload, hg]
        dsimp only
        rw [ofGrammar, if_neg (not_not.2 hname), Grammar.validate_of_violation hv]
        rfl
    · refine .inr ⟨.malformed h.name (.invalid (.wrongName g.name)), trivial, fun strict => ?_⟩
      rw [hload, hg]
      dsimp only
      rw [ofGrammar, if_pos hname]
      rfl

/-- How the two loads go for a grammar with findings, of which `f` is the first. -/
structure Promoted (h : Handle) (g : Grammar) (f : Finding) (more : List Finding)
    (strict lenient : Logged (Except LoadError Language)) : Prop where
  result : strict.result = .error (.malformed h.name (.invalid (.rejected (.finding f))))
  message : ∀ e, strict.result = .error e → e.message =
    "malformed grammar table for '" ++ h.name ++ "': " ++ ("validation error: " ++ f.message)
  strictLog : strict.log = g.leftRecursiveRules.map (.leftRecursive g.name)
  lenientLog : lenient.log =
    strict.log ++ (f :: more).map (.finding g.name) ++ loadedLog lenient.result

/-- The rules that the log and the findings name, and their order. -/
structure Ordered (g : Grammar) (start : String) (findings : List Finding) : Prop where
  recursion : Enumerates g.leftRecursiveRules fun name =>
    ∃ r, g.rule? name = some r ∧ r.beginsWith name = true
  listing : ∃ unreachable mixed,
    (Enumerates unreachable fun name =>
      name ∈ g.rules ∧ ¬g.Reachable start name ∧ name ∉ g.inlined.getD []) ∧
    g.ListsMixed mixed ∧
    findings = unreachable.map .unreachable ++ mixed.map fun (name, levels) => .mixed name levels

theorem Validated.promoted {f : Finding} {more : List Finding} (hv : Validated h o g (f :: more)) :
    Promoted h g f more (load h (o.withStrict true)) (load h (o.withStrict false)) := by
  rw [hv.load_strict_of_cons, hv.load_lenient]
  refine ⟨rfl, fun e he => ?_, rfl, rfl⟩
  rw [← Except.error.inj he]
  rfl

theorem Validated.ordered (hv : Validated h o g findings) : Ordered g h.startRule findings :=
  ⟨g.enumerates_leftRecursiveRules, g.unreachableRules h.startRule, g.mixedRules,
    Grammar.enumerates_unreachableRules, g.listsMixed_mixedRules, hv.findings_eq.symm⟩

theorem load_strict_ok_iff {l : Language} :
    (load h (o.withStrict true)).result = .ok l ↔
      (load h (o.withStrict false)).result = .ok l ∧ l.findings = [] := by
  rcases validated_or_fails h o with ⟨g, findings, hv⟩ | ⟨e, -, hload⟩
  · cases findings with
    | nil =>
      rw [hv.load_strict_of_nil, hv.load_lenient]
      exact ⟨fun hl => ⟨hl, (parts_of_conclude hl).2⟩, And.left⟩
    | cons f more =>
      rw [hv.load_strict_of_cons, hv.load_lenient]
      constructor
      · intro hl
        cases hl
      · rintro ⟨hl, hnil⟩
        rw [(parts_of_conclude hl).2] at hnil
        cases hnil
  · rw [hload, hload]
    constructor
    · intro hl
      cases hl
    · rintro ⟨hl, -⟩
      cases hl

/-- A load that succeeds goes the way of lenient loading to its end, strict or not. -/
theorem eq_conclude_of_load {l : Language} (hl : (load h o).result = .ok l) :
    ∃ g, Validated h o g l.findings ∧
      load h o = conclude h g l.findings (g.recursionLog ++ l.findings.map (.finding g.name)) := by
  have hself : o.withStrict o.strict = o := rfl
  rcases validated_or_fails h o with ⟨g, findings, hv⟩ | ⟨e, -, hload⟩
  · have hload : load h o = conclude h g findings
        (g.recursionLog ++ findings.map (.finding g.name)) := by
      -- strict loading succeeds only without findings, and then as lenient loading does
      cases hs : o.strict with
      | false => rw [← hself, hs, hv.load_lenient]
      | true =>
        cases findings with
        | nil => rw [← hself, hs, hv.load_strict_of_nil, hv.load_lenient]
        | cons f more =>
          rw [← hself, hs, hv.load_strict_of_cons] at hl
          cases hl
    rw [hload] at hl
    obtain ⟨-, rfl⟩ := parts_of_conclude hl
    exact ⟨g, hv, hload⟩
  · rw [← hself, hload] at hl
    cases hl

theorem warnings_of_load {l : Language} (hl : (load h o).result = .ok l) :
    (load h o).log.filter (·.level = .warn) = l.findings.map (.finding l.name) := by
  obtain ⟨g, hv, hload⟩ := eq_conclude_of_load hl
  have hrecursion : g.recursionLog.filter (·.level = .warn) = [] := by
    simp [Grammar.recursionLog, Event.level]
  have hfindings : (l.findings.map (Event.finding g.name)).filter (·.level = .warn) =
      l.findings.map (.finding g.name) :=
    List.filter_eq_self.2 (List.forall_mem_map.2 fun f _ => rfl)
  rw [hload] at hl ⊢
  rw [log_of_conclude hl, List.filter_append, List.filter_append, hrecursion, hfindings,
    (parts_of_conclude hl).1, ← hv.name]
  exact List.append_nil _

/-- Strict and lenient loading agree on everything but findings. -/
theorem load_withStrict (h : Handle) (o : LoadOptions) :
    (∀ l, (load h (o.withStrict true)).result = .ok l ↔
      (load h (o.withStrict false)).result = .ok l ∧ l.findings = []) ∧
    (∀ l, (load h (o.withStrict true)).result = .ok l →
      (load h (o.withStrict true)).log = (load h (o.withStrict false)).log) ∧
    (∀ e, (load h (o.withStrict false)).result = .error e → e.BeforeFindings →
      (load h (o.withStrict true)).result = .error e ∧
        (load h (o.withStrict true)).log = (load h (o.withStrict false)).log) ∧
    (∀ g findings, Validated h o g findings → Ordered g h.startRule findings) ∧
    (∀ g f more, Validated h o g (f :: more) →
      Promoted h g f more (load h (o.withStrict true)) (load h (o.withStrict false))) ∧
    (∀ g, Validated h o g [] → load h (o.withStrict true) = load h (o.withStrict false)) ∧
    ((∃ g findings, Validated h o g findings) ∨
      ∃ e, (load h (o.withStrict false)).result = .error e ∧ e.BeforeFindings) := by
  refine ⟨fun l => load_strict_ok_iff, fun l hl => ?_, fun e he hbefore => ?_,
    fun g findings hv => hv.ordered, fun g f more hv => hv.promoted,
    fun g hv => hv.load_strict_of_nil, ?_⟩
  · rcases validated_or_fails h o with ⟨g, findings, hv⟩ | ⟨e, -, hload⟩
    · cases findings with
      | nil => rw [hv.load_strict_of_nil]
      | cons f more =>
        rw [hv.load_strict_of_cons] at hl
        cases hl
    · rw [hload, hload]
  · rcases validated_or_fails h o with ⟨g, findings, hv⟩ | ⟨e', -, hload⟩
    · rw [hv.load_lenient] at he
      exact absurd hbefore (not_beforeFindings_of_conclude he)
    · rw [hload] at he ⊢
      exact ⟨he, by rw [hload]⟩
  · rcases validated_or_fails h o with hv | ⟨e, hbefore, hload⟩
    · exact .inl hv
    · exact .inr ⟨e, by rw [hload], hbefore⟩

/-- A grammar with findings, whose scanner has a token that the grammar does not declare. -/
def tiers : Handle := ⟨"tiers", 14, "expr", ["indent"], String.ofList Grammar.tiers⟩

/-- Strict loading ends before the tokens of the scanner are looked at, lenient loading because of
them, and only after it has logged the findings. -/
theorem load_withStrict_tiers :
    (load tiers ⟨true, 13, 15⟩).result =
      .error (.malformed "tiers" (.invalid (.rejected (.finding (.unreachable "lost"))))) ∧
    (load tiers ⟨false, 13, 15⟩).result =
      .error (.malformed "tiers" (.invalid (.otherExternals [] ["indent"]))) ∧
    (load tiers ⟨false, 13, 15⟩).log = (load tiers ⟨true, 13, 15⟩).log ++
      [.finding "tiers" (.unreachable "lost"),
        .finding "tiers" (.mixed "expr" [-2147483648, 2147483647]),
        .finding "tiers" (.mixed "lost" [1, 2])] := by
  obtain ⟨g, hg, hname, hexternals, hviolation, hlost, hmixed⟩ := Grammar.ofText_tiers
  have hfindings : g.findings "expr" = [.unreachable "lost",
      .mixed "expr" [-2147483648, 2147483647], .mixed "lost" [1, 2]] := by
    rw [Grammar.findings, hlost, hmixed]
    rfl
  have hv : Validated tiers ⟨false, 13, 15⟩ g (g.findings "expr") :=
    ⟨⟨by decide, by decide⟩, hg, hname, Grammar.result_validate hviolation⟩
  have hother : (load tiers ⟨false, 13, 15⟩).result =
      .error (.malformed "tiers" (.invalid (.otherExternals [] ["indent"]))) := by
    have hload := hv.load_lenient
    rw [LoadOptions.withStrict] at hload
    rw [hload]
    simp [conclude, tablesFor, externalDefect?, Grammar.externalNames, hexternals, tiers]
  rw [hfindings] at hv
  obtain ⟨-, -, -, -, hpromoted, -, -⟩ := load_withStrict tiers ⟨false, 13, 15⟩
  obtain ⟨hresult, -, -, hlog⟩ := hpromoted g _ _ hv
  rw [LoadOptions.withStrict, LoadOptions.withStrict] at hlog
  refine ⟨hresult, hother, ?_⟩
  rw [hlog, hother, hname]
  exact List.append_nil _

end Language
end GrammarLoader
