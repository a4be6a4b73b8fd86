import GrammarLoader.Proofs.Layout.Nesting
import GrammarLoader.Layout.ScanAll

/-! The scan of a whole text as a loop: one turn is one call of the scanner and what is done with its
answer. Whatever a turn keeps holds at the end, and each turn lowers `cost`, so a text of `n`
characters is scanned in at most `2 * n + 1` turns. -/

namespace GrammarLoader.Layout

namespace Lexer

theorem ofText_zero (text : String) : ofText text 0 = startAt text.toList 0 := by
  unfold ofText
  cases text.toList with
  | nil => rfl
  | cons c rest =>
    have hc : ¬ 0 + c.utf8Size ≤ 0 := by have := c.utf8Size_pos; omega
    rw [seek, if_neg hc]

theorem skipBlanks_startAt (rest : List Char) (position : Nat) :
    (startAt rest position).skipBlanks =
      (startAt (readBlanks .start position rest).rest (readBlanks .start position rest).position,
        (readBlanks .start position rest).margin) := by
  have hs : (if (readBlanks .start position rest).position = position then position
      else (readBlanks .start position rest).position) =
        (readBlanks .start position rest).position := by
    by_cases h : (readBlanks .start position rest).position = position
    · rw [if_pos h, h]
    · rw [if_neg h]
  exact congrArg (fun start => (Lexer.mk (readBlanks .start position rest).rest
    (readBlanks .start position rest).position start none,
      (readBlanks .start position rest).margin)) hs

theorem scan_startAt {s : Scanner} {rest : List Char} {position : Nat} {valid : TokenSet}
    {m : Margin} (hd : s.drain? valid = none)
    (hm : (readBlanks .start position rest).margin = some m) :
    s.scan (startAt rest position) valid =
      ⟨({ s with pending := 0 }.place m (readBlanks .start position rest).rest.isEmpty valid).1,
        ({ s with pending := 0 }.place m (readBlanks .start position rest).rest.isEmpty valid).2,
        (startAt (readBlanks .start position rest).rest
          (readBlanks .start position rest).position).mark⟩ := by
  unfold Scanner.scan
  rw [hd, skipBlanks_startAt, hm]
  rfl

/-- The token of a call is empty: all that the call reads is skipped. -/
theorem tokenRange_scan (s : Scanner) (rest : List Char) (position : Nat) (valid : TokenSet)
    {t : Token} (h : (s.scan (startAt rest position) valid).token = some t) :
    (s.scan (startAt rest position) valid).lexer.tokenRange =
      ((s.scan (startAt rest position) valid).lexer.position,
        (s.scan (startAt rest position) valid).lexer.position) := by
  revert h
  fun_cases Scanner.scan s (startAt rest position) valid with
  | case1 t s' hd => exact fun _ => tokenRange_startAt rest position
  | case2 hd s' l' hb => simp
  | case3 hd s' l' margin hb t' s'' hp =>
    intro _
    obtain ⟨rfl, -⟩ := Prod.mk.inj ((skipBlanks_startAt rest position).symm.trans hb)
    simp [mark, tokenRange, tokenEnd, startAt]

end Lexer

/-- Where the scan of a text stands between two calls of the scanner. -/
structure Stage where
  scanner : Scanner
  rest : List Char
  position : Nat
  found : List ScannedToken

namespace Stage

def start (text : String) : Stage := ⟨.initial, text.toList, 0, []⟩

/-- The next call of the scanner. -/
def call (g : Stage) : Scan := g.scanner.scan (.startAt g.rest g.position) .full

def next? (g : Stage) : Option Stage :=
  match g.call.token with
  | some token =>
    some ⟨g.call.scanner, g.call.lexer.rest, g.call.lexer.tokenRange.2,
      ⟨token, g.call.lexer.tokenRange.1⟩ :: g.found⟩
  | none =>
    match g.rest with
    | c :: rest => some ⟨g.call.scanner, rest, g.position + c.utf8Size, g.found⟩
    | [] => none

/-- What the scan gives if it ends with the next call. -/
def result (g : Stage) : Scanner.Run := ⟨g.found.reverse, g.call.scanner⟩

def runWithin (g : Stage) : Nat → Option Scanner.Run
  | 0 => none
  | turns + 1 =>
    match g.next? with
    | some g => g.runWithin turns
    | none => some g.result

def run (g : Stage) : Scanner.Run := g.scanner.runFrom (.startAt g.rest g.position) g.found

theorem run_start (text : String) : (start text).run = Layout.run text := by
  rw [Layout.run, Lexer.ofText_zero]
  rfl

theorem next?_of_token {g : Stage} {token : Token} (h : g.call.token = some token) :
    g.next? = some ⟨g.call.scanner, g.call.lexer.rest, g.call.lexer.position,
      ⟨token, g.call.lexer.position⟩ :: g.found⟩ := by
  unfold next?
  rw [h]
  have hr := Lexer.tokenRange_scan g.scanner g.rest g.position .full h
  exact congrArg (fun r => some (Stage.mk g.call.scanner g.call.lexer.rest r.2
    (⟨token, r.1⟩ :: g.found))) hr

theorem next?_of_char {g : Stage} {c : Char} {rest : List Char} (h : g.call.token = none)
    (hr : g.rest = c :: rest) :
    g.next? = some ⟨g.call.scanner, rest, g.position + c.utf8Size, g.found⟩ := by
  unfold next?
  rw [h, hr]

theorem next?_eq_none_iff {g : Stage} : g.next? = none ↔ g.call.token = none ∧ g.rest = [] := by
  unfold next?
  cases g.call.token <;> cases g.rest <;> simp

/-- What a turn does: it notes a token, or steps over a character at which there is none. -/
theorem next?_cases {g g' : Stage} (h : g.next? = some g') :
    (∃ token, g.call.token = some token ∧
      g' = ⟨g.call.scanner, g.call.lexer.rest, g.call.lexer.position,
        ⟨token, g.call.lexer.position⟩ :: g.found⟩) ∨
    (∃ c rest, g.call.token = none ∧ g.rest = c :: rest ∧
      g' = ⟨g.call.scanner, rest, g.position + c.utf8Size, g.found⟩) := by
  cases ht : g.call.token with
  | some token =>
    rw [next?_of_token ht] at h
    exact .inl ⟨token, rfl, (Option.some.inj h).symm⟩
  | none =>
    cases hr : g.rest with
    | nil => rw [next?_eq_none_iff.2 ⟨ht, hr⟩] at h; cases h
    | cons c rest =>
      rw [next?_of_char ht hr] at h
      exact .inr ⟨c, rest, rfl, rfl, (Option.some.inj h).symm⟩

theorem nested_next? {g g' : Stage} (hn : g.scanner.Nested) (h : g.next? = some g') :
    g'.scanner.Nested := by
  have hs : Scanner.Step g.scanner .full g.call.token g.call.scanner := Scanner.step_scan _ _ _
  rcases next?_cases h with ⟨token, ht, rfl⟩ | ⟨c, rest, ht, hr, rfl⟩
  · exact hn.step hs
  · exact hn.step hs

theorem run_of_next? {g g' : Stage} (h : g.next? = some g') : g.run = g'.run := by
  rcases next?_cases h with ⟨token, ht, rfl⟩ | ⟨c, rest, ht, hr, rfl⟩
  · unfold run
    rw [Scanner.runFrom]
    split
    · next heq =>
      unfold call at ht ⊢
      rw [heq] at ht ⊢
      obtain rfl := Option.some.inj ht
      rfl
    · next heq =>
      unfold call at ht
      rw [heq] at ht
      cases ht
  · unfold run
    rw [Scanner.runFrom]
    split
    · next heq =>
      unfold call at ht
      rw [heq] at ht
      cases ht
    · next heq =>
      unfold call
      rw [heq]
      split
      · next heq' =>
        obtain ⟨rfl, rfl⟩ := by simpa [Lexer.startAt, hr] using heq'
        rfl
      · next heq' => simp [Lexer.startAt, hr] at heq'

theorem run_of_next?_none {g : Stage} (h : g.next? = none) : g.run = g.result := by
  obtain ⟨ht, hr⟩ := next?_eq_none_iff.1 h
  unfold run
  rw [Scanner.runFrom]
  split
  · next heq =>
    unfold call at ht
    rw [heq] at ht
    cases ht
  · next heq =>
    unfold result call
    rw [heq]
    split
    · next heq' => simp [Lexer.startAt, hr] at heq'
    · rfl

theorem debt_step_le {s s' : Scanner} {valid : TokenSet} {t : Option Token}
    (h : Scanner.Step s valid t s') : s'.debt ≤ s.debt + 1 := by
  unfold Scanner.debt
  cases h with
  | newlineDue | continued | declined => simp; omega
  | dedentDue hp hv =>
    have := UInt16.toNat_sub_of_le s.pending 1 (UInt16.le_of_lt hp)
    simp only [this]
    omega
  | opened => simp [Scanner.openBlock]
  | @closed w hd hv hw =>
    have h1 : (s.closeBlocks w).pending.toNat + (s.closeBlocks w).depth ≤ s.depth :=
      Scanner.pending_add_depth_closeBlocks_le s w
    unfold Scanner.depth at h1
    omega
  | ended hd hv hl => simp [hl]; omega

/-- An upper bound of the turns to come: a character is worth a token and a step over it. -/
def cost (g : Stage) : Nat := 2 * g.rest.length + g.scanner.debt

theorem cost_next?_lt {g g' : Stage} (h : g.next? = some g') : g'.cost < g.cost := by
  have hd : g.call.scanner.debt ≤ g.scanner.debt + 1 := debt_step_le (Scanner.step_scan _ _ _)
  unfold cost
  rcases next?_cases h with ⟨token, ht, rfl⟩ | ⟨c, rest, ht, hr, rfl⟩
  · rcases Scanner.scan_progress ht with hlt | ⟨heq, hlt⟩
    · change g.call.lexer.rest.length < g.rest.length at hlt
      dsimp only
      omega
    · change g.call.lexer.rest.length = g.rest.length at heq
      change g.call.scanner.debt < g.scanner.debt at hlt
      dsimp only
      omega
  · rw [hr, List.length_cons]
    dsimp only
    omega

/-- The scan ends within as many turns as its cost, and the turn that finds the end. -/
theorem runWithin_eq {g : Stage} {turns : Nat} (h : g.cost < turns) :
    g.runWithin turns = some g.run := by
  induction turns generalizing g with
  | zero => exact absurd h (Nat.not_lt_zero _)
  | succ turns ih =>
    rw [runWithin]
    cases hn : g.next? with
    | none => exact congrArg some (run_of_next?_none hn).symm
    | some g' =>
      have hc := cost_next?_lt hn
      rw [run_of_next? hn]
      exact ih (by omega)

/-- What every turn keeps holds when the scan ends. -/
theorem exists_last {P : Stage → Prop} (step : ∀ g g', g.next? = some g' → P g → P g')
    (g : Stage) (h : P g) : ∃ last, P last ∧ last.next? = none ∧ g.run = last.result := by
  induction hc : g.cost using Nat.strongRecOn generalizing g with
  | ind n ih =>
    subst hc
    cases hn : g.next? with
    | none => exact ⟨g, h, hn, run_of_next?_none hn⟩
    | some g' =>
      obtain ⟨last, hl, hend, hrun⟩ := ih g'.cost (cost_next?_lt hn) g' (step g g' hn h) rfl
      exact ⟨last, hl, hend, (run_of_next? hn).trans hrun⟩

end Stage
end GrammarLoader.Layout
