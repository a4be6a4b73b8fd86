import GrammarLoader.Proofs.Language.Strictness
import GrammarLoader.Proofs.Rule.Forms
import GrammarLoader.Proofs.Validation.Coverage

/-! What the events for left recursion tell. In a grammar without violations a rule that is reported
has a form that begins with itself, and of the rules that hide nothing all those are reported. -/

namespace GrammarLoader.Grammar

variable {g : Grammar} {start name : String} {r : Rule}

/-- The nodes of rules carry what their kinds need. -/
theorem complete_of_rule? (h : g.violation? start = none) (hr : g.rule? name = some r) :
    r.Complete :=
  (violation?_eq_none_iff_covered.1 h).rules.1 r
    (List.mem_map.2 ⟨(name, r), Dictionary.mem_toList.2 hr, rfl⟩)

theorem mem_recursionLog {grammar : String} :
    .leftRecursive grammar name ∈ g.recursionLog ↔
      grammar = g.name ∧ ∃ r, g.rule? name = some r ∧ r.beginsWith name = true := by
  rw [← g.enumerates_leftRecursiveRules.mem_iff, recursionLog, List.mem_map]
  constructor
  · rintro ⟨_, hmem, ⟨⟩⟩
    exact ⟨rfl, hmem⟩
  · rintro ⟨rfl, hmem⟩
    exact ⟨name, hmem, rfl⟩

/-- Whether validation is strict or not, it reports the same left recursion. -/
theorem leftRecursive_mem_log (h : g.violation? start = none) (strict : Bool) {grammar : String} :
    .leftRecursive grammar name ∈ (g.validate start strict).log ↔
      .leftRecursive grammar name ∈ g.recursionLog := by
  cases strict with
  | false =>
    rw [validate_lenient h, List.mem_append, or_iff_left]
    simp
  | true =>
    cases hf : g.findings start with
    | nil => rw [validate_strict_of_nil h hf]
    | cons f more => rw [validate_strict_of_cons h hf]

/-- A rule is reported only if one of its forms begins with it, and if none of its nodes hides how
it begins, it is reported then. -/
theorem leftRecursive_forms (h : g.violation? start = none) (strict : Bool) :
    (∀ grammar name, .leftRecursive grammar name ∈ (g.validate start strict).log →
      grammar = g.name ∧ ∃ r, g.rule? name = some r ∧ r.MayBegin name) ∧
    ∀ name r, g.rule? name = some r → r.Overt → r.MayBegin name →
      .leftRecursive g.name name ∈ (g.validate start strict).log := by
  constructor
  · intro grammar name hlog
    obtain ⟨hname, r, hr, hbegins⟩ := mem_recursionLog.1 ((leftRecursive_mem_log h strict).1 hlog)
    exact ⟨hname, r, hr, (complete_of_rule? h hr).mayBegin_of_beginsWith hbegins⟩
  · intro name r hr hovert hbegin
    have hbegins := ((complete_of_rule? h hr).beginsWith_iff hovert).2 hbegin
    exact (leftRecursive_mem_log h strict).2 (mem_recursionLog.2 ⟨rfl, r, hr, hbegins⟩)

def sumRule : Rule :=
  .choice [.seq [.symbol "sum", .literal "+", .symbol "word"], .symbol "word"]

/-- The rule begins with itself only behind what may be nothing. -/
def wordRule : Rule := .seq [.maybe (.literal "-"), .symbol "word"]

def sums : Grammar :=
  { Grammar.start with
    name := "sums", rules := .ofList [("sum", sumRule), ("word", wordRule)] }

/-- The first rule is reported, and it has a form that begins with itself. So has the second one,
but since it hides that, it is not reported. -/
theorem leftRecursive_forms_sums :
    sums.violation? "sum" = none ∧ sums.rule? "sum" = some sumRule ∧ sumRule.Overt ∧
      sumRule.MayBegin "sum" ∧ .leftRecursive "sums" "sum" ∈ (sums.validate "sum" true).log ∧
      sums.rule? "word" = some wordRule ∧ wordRule.MayBegin "word" ∧
      .leftRecursive "sums" "word" ∉ (sums.validate "sum" true).log := by
  have h : sums.violation? "sum" = none := by decide +kernel
  have hsum : sums.rule? "sum" = some sumRule := rfl
  have hovert : sumRule.Overt := by
    have hnodes : ∀ n ∈ sumRule.nodes, n.kind.hides = false := by decide +kernel
    exact fun n hn => hnodes n (Rule.mem_nodes.2 hn)
  have hsymbol (name : String) : [.symbol name] ∈ (Rule.symbol name).forms := rfl
  have hliteral (text : String) : [.literal text] ∈ (Rule.literal text).forms := rfl
  have hbegin : sumRule.MayBegin "sum" := by
    have hrest := Language.append_mem_mul (hliteral "+")
      (Language.append_mem_mul (hsymbol "word") Language.nil_mem_one)
    exact ⟨.symbol "sum", _, .inl (Language.append_mem_mul (hsymbol "sum") hrest), rfl⟩
  have hword : wordRule.MayBegin "word" := by
    have hnothing : [] ∈ (Rule.maybe (.literal "-")).forms := .inr (.inl rfl)
    exact ⟨.symbol "word", [], Language.append_mem_mul hnothing
      (Language.append_mem_mul (hsymbol "word") Language.nil_mem_one), rfl⟩
  have hlog := (leftRecursive_forms h true).2 "sum" sumRule hsum hovert hbegin
  have hsilent : .leftRecursive "sums" "word" ∉ sums.recursionLog := by decide +kernel
  exact ⟨h, hsum, hovert, hbegin, hlog, rfl, hword,
    fun hmem => hsilent ((leftRecursive_mem_log h true).1 hmem)⟩

end GrammarLoader.Grammar
