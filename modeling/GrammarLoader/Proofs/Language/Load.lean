import GrammarLoader.Proofs.Language.Integrity

/-!
Loading as a decision: a version in the window, a definition that can be read, and a grammar that
fulfils the rules of integrity. Beyond that decision the version is only handed on.
-/

namespace GrammarLoader

/-- The version is in the window. -/
def LoadOptions.Accepts (o : LoadOptions) (version : UInt32) : Prop :=
  o.oldest ≤ version ∧ version ≤ o.newest

namespace Language

open IntegrityRule

variable {h : Handle} {o : LoadOptions}

theorem load_of_not_accepts (ho : ¬o.Accepts h.version) :
    (load h o).result = .error (.incompatible h.name h.version o.oldest o.newest) := by
  have hout : h.version < o.oldest ∨ o.newest < h.version := by
    rw [LoadOptions.Accepts, not_and_or, UInt32.not_le, UInt32.not_le] at ho
    exact ho
  rw [load, if_pos hout]

theorem load_of_accepts (ho : o.Accepts h.version) :
    (load h o).result =
      match Grammar.ofText h.definition with
      | .error e => .error (.malformed h.name (.unreadable e))
      | .ok g =>
        (ofGrammar h g o.strict).result.mapError fun d => .malformed h.name (.invalid d) := by
  have hin : ¬(h.version < o.oldest ∨ o.newest < h.version) := by
    rw [not_or, UInt32.not_lt, UInt32.not_lt]
    exact ho
  rw [load, if_neg hin]
  cases Grammar.ofText h.definition <;> rfl

theorem load_incompatible_iff {name : String} {version oldest newest : UInt32} :
    (load h o).result = .error (.incompatible name version oldest newest) ↔
      ¬o.Accepts h.version ∧ name = h.name ∧ version = h.version ∧
        oldest = o.oldest ∧ newest = o.newest := by
  by_cases ho : o.Accepts h.version
  · rw [load_of_accepts ho]
    cases Grammar.ofText h.definition with
    | error e => simp [ho]
    | ok g => cases hr : (ofGrammar h g o.strict).result <;> simp [ho, hr, Except.mapError]
  · rw [load_of_not_accepts ho]
    simp [ho, eq_comm]

theorem load_unreadable_iff {name : String} {e : Json.ReadError} :
    (load h o).result = .error (.malformed name (.unreadable e)) ↔
      o.Accepts h.version ∧ name = h.name ∧ Grammar.ofText h.definition = .error e := by
  by_cases ho : o.Accepts h.version
  · rw [load_of_accepts ho]
    cases Grammar.ofText h.definition with
    | error e => simp [ho, eq_comm]
    | ok g => cases hr : (ofGrammar h g o.strict).result <;> simp [ho, hr, Except.mapError]
  · rw [load_of_not_accepts ho]
    simp [ho]

theorem load_invalid_iff {name : String} {d : Defect} :
    (load h o).result = .error (.malformed name (.invalid d)) ↔
      o.Accepts h.version ∧ name = h.name ∧ ∃ g, Grammar.ofText h.definition = .ok g ∧
        ∃ rule, FailsFirst h o.strict g rule ∧ Reports h o.strict g rule d := by
  by_cases ho : o.Accepts h.version
  · rw [load_of_accepts ho]
    cases Grammar.ofText h.definition with
    | error e => simp
    | ok g =>
      simp only [Except.ok.injEq, exists_eq_left', ← ofGrammar_error_iff]
      cases (ofGrammar h g o.strict).result <;> simp [ho, Except.mapError, eq_comm]
  · rw [load_of_not_accepts ho]
    simp [ho]

theorem load_ok_iff :
    (∃ l, (load h o).result = .ok l) ↔
      o.Accepts h.version ∧ ∃ g, Grammar.ofText h.definition = .ok g ∧
        ∀ rule, Holds h o.strict g rule := by
  by_cases ho : o.Accepts h.version
  · rw [load_of_accepts ho]
    cases Grammar.ofText h.definition with
    | error e => simp
    | ok g =>
      simp only [Except.ok.injEq, exists_eq_left', ← ofGrammar_ok_iff]
      cases (ofGrammar h g o.strict).result <;> simp [ho, Except.mapError]
  · rw [load_of_not_accepts ho]
    simp [ho]

/-- A language is made of what its handle declares and what its definition gives. -/
theorem parts_of_load {l : Language} (hl : (load h o).result = .ok l) :
    l.name = h.name ∧ l.version = h.version ∧ Grammar.ofText h.definition = .ok l.grammar ∧
      (l.grammar.validate h.startRule o.strict).result = .ok l.findings ∧
        l.grammar.tables h.startRule = .ok l.tables := by
  obtain ⟨ho, g, hg, -⟩ := load_ok_iff.1 ⟨l, hl⟩
  rw [load_of_accepts ho, hg] at hl
  cases hr : (ofGrammar h g o.strict).result with
  | error d =>
    simp only [hr] at hl
    cases hl
  | ok l' =>
    simp only [hr] at hl
    obtain rfl := Except.ok.inj hl
    obtain ⟨hname, hversion, rfl, hval, ht⟩ := parts_of_ofGrammar hr
    exact ⟨hname, hversion, hg, hval, tables_of_tablesFor ht⟩

theorem grammarName_of_load {e : LoadError} (he : (load h o).result = .error e) :
    e.grammarName = h.name := by
  cases e with
  | incompatible => exact (load_incompatible_iff.1 he).2.1
  | malformed name cause =>
    cases cause with
    | unreadable => exact (load_unreadable_iff.1 he).2.1
    | invalid => exact (load_invalid_iff.1 he).2.1

theorem load_withVersion {version : UInt32} {o' : LoadOptions} (hstrict : o'.strict = o.strict)
    (ho : o.Accepts h.version) (ho' : o'.Accepts version) :
    (load (h.withVersion version) o').result =
      (load h o).result.map fun l => { l with version } := by
  have hname : (h.withVersion version).name = h.name := rfl
  have hdefinition : (h.withVersion version).definition = h.definition := rfl
  rw [load_of_accepts (h := h.withVersion version) ho', load_of_accepts ho, hname, hdefinition]
  cases Grammar.ofText h.definition with
  | error e => rfl
  | ok g =>
    simp only [ofGrammar_withVersion, hstrict]
    cases (ofGrammar h g o.strict).result <;> rfl

/-- What loading decides, for every handle and all options. -/
theorem load_decides (h : Handle) (o : LoadOptions) :
    (∀ name version oldest newest,
      (load h o).result = .error (.incompatible name version oldest newest) ↔
        ¬o.Accepts h.version ∧ name = h.name ∧ version = h.version ∧
          oldest = o.oldest ∧ newest = o.newest) ∧
    (∀ name e,
      (load h o).result = .error (.malformed name (.unreadable e)) ↔
        o.Accepts h.version ∧ name = h.name ∧ Grammar.ofText h.definition = .error e) ∧
    (∀ name d,
      (load h o).result = .error (.malformed name (.invalid d)) ↔
        o.Accepts h.version ∧ name = h.name ∧ ∃ g, Grammar.ofText h.definition = .ok g ∧
          ∃ rule, FailsFirst h o.strict g rule ∧ Reports h o.strict g rule d) ∧
    ((∃ l, (load h o).result = .ok l) ↔
      o.Accepts h.version ∧ ∃ g, Grammar.ofText h.definition = .ok g ∧
        ∀ rule, Holds h o.strict g rule) ∧
    (∀ l, (load h o).result = .ok l →
      l.name = h.name ∧ l.version = h.version ∧ Grammar.ofText h.definition = .ok l.grammar ∧
        (l.grammar.validate h.startRule o.strict).result = .ok l.findings ∧
          l.grammar.tables h.startRule = .ok l.tables) ∧
    (∀ e, (load h o).result = .error e → e.grammarName = h.name) ∧
    ∀ version o', o'.strict = o.strict → o.Accepts h.version → o'.Accepts version →
      (load (h.withVersion version) o').result =
        (load h o).result.map fun l => { l with version } :=
  ⟨fun _ _ _ _ => load_incompatible_iff, fun _ _ => load_unreadable_iff,
    fun _ _ => load_invalid_iff, load_ok_iff, fun _ hl => parts_of_load hl,
    fun _ he => grammarName_of_load he,
    fun _ _ hstrict ho ho' => load_withVersion hstrict ho ho'⟩

end Language
end GrammarLoader
