import GrammarLoader.Proofs.Layout.Balance
import Mathlib.Data.List.Induction

/-! The account of a parser whose calls accept other tokens from one to the next. A call that refuses
dedents drops those that are pending, and some blocks are then never closed; but what the parser has
received never closes more blocks than it opened. -/

namespace GrammarLoader.Layout

structure Request where
  lexer : Lexer
  valid : TokenSet

namespace Scanner

/-- The pending dedents that a call drops. -/
def lost (s : Scanner) (valid : TokenSet) : Nat :=
  if .dedent ∈ valid then 0 else s.pending.toNat - 1

theorem lost_eq_zero_iff {s : Scanner} {valid : TokenSet} :
    s.lost valid = 0 ↔ (1 < s.pending → .dedent ∈ valid) := by
  have hlt : 1 < s.pending ↔ 1 < s.pending.toNat := UInt16.lt_iff_toNat_lt
  rw [hlt, lost]
  split
  · next hv => exact iff_of_true rfl fun _ => hv
  · next hv =>
    constructor
    · intro h h1
      omega
    · intro h
      have hle : ¬ 1 < s.pending.toNat := fun h1 => hv (h h1)
      omega

/-- A call takes what it finds, and what it drops, from the unclosed blocks. -/
theorem unclosed_add_lost_step {s s' : Scanner} {valid : TokenSet} {t : Option Token}
    (hn : s.Nested) (h : Step s valid t s') :
    (if t = some .dedent then 1 else 0) + s'.unclosed + s.lost valid =
      (if t = some .indent then 1 else 0) + s.unclosed := by
  by_cases hv : 1 < s.pending → .dedent ∈ valid
  · rw [lost_eq_zero_iff.2 hv, Nat.add_zero, unclosed_step hn hv h]
  · -- Several tokens are pending and no dedent is acceptable: the call is like one with none pending.
    obtain ⟨hp, hd⟩ := Classical.not_imp.1 hv
    rw [lost, if_neg hd]
    unfold unclosed
    cases h with
    | newlineDue h1 => exact absurd hp (by simp [h1])
    | dedentDue _ hv => exact absurd hv hd
    | opened =>
      simp [depth, openBlock]
      omega
    | closed _ hv => exact absurd hv hd
    | continued => simp [depth]
    | ended _ hv => exact absurd hv hd
    | declined => simp [depth]

end Scanner

/-- Where a parser stands after some calls. -/
structure Ledger where
  scanner : Scanner
  tokens : List Token
  lost : Nat

namespace Ledger

def start : Ledger := ⟨.initial, [], 0⟩

def call (g : Ledger) (r : Request) : Ledger where
  scanner := (g.scanner.scan r.lexer r.valid).scanner
  tokens := (g.scanner.scan r.lexer r.valid).token.toList ++ g.tokens
  lost := g.lost + g.scanner.lost r.valid

def after (calls : List Request) : Ledger := calls.foldl call start

/-- Indents minus dedents. -/
def balance (g : Ledger) : Int := g.tokens.count .indent - g.tokens.count .dedent

/-- The open blocks, and the dedents that are pending in front of a newline. -/
def owed (g : Ledger) : Int := g.scanner.depth + max ((g.scanner.pending.toNat : Int) - 1) 0

theorem owed_eq_unclosed (g : Ledger) : g.owed = g.scanner.unclosed := by
  unfold owed Scanner.unclosed
  omega

theorem after_concat (calls : List Request) (r : Request) :
    after (calls ++ [r]) = (after calls).call r := by
  rw [after, List.foldl_append]
  rfl

/-- What every call keeps: the balance is what is owed or was dropped. -/
structure Settled (g : Ledger) : Prop where
  nested : g.scanner.Nested
  balance : g.balance = g.owed + g.lost

theorem settled_start : start.Settled := ⟨Scanner.nested_initial, rfl⟩

theorem Settled.call {g : Ledger} (h : g.Settled) (r : Request) : (g.call r).Settled := by
  have hstep := Scanner.step_scan g.scanner r.lexer r.valid
  have hacc := Scanner.unclosed_add_lost_step h.nested hstep
  have hbal := h.balance
  refine ⟨h.nested.step hstep, ?_⟩
  rw [owed_eq_unclosed] at hbal ⊢
  unfold Ledger.balance Ledger.call at *
  dsimp only
  cases ht : (g.scanner.scan r.lexer r.valid).token with
  | none =>
    simp only [ht, reduceCtorEq, if_false] at hacc
    rw [Option.toList_none, List.nil_append]
    omega
  | some t =>
    rw [ht] at hacc
    rw [Option.toList_some, List.singleton_append, List.count_cons, List.count_cons]
    cases t <;> simp at hacc ⊢ <;> omega

theorem settled_after (calls : List Request) : (after calls).Settled := by
  induction calls using List.reverseRecOn with
  | nil => exact settled_start
  | append_singleton calls r ih =>
    rw [after_concat]
    exact ih.call r

/-- Each call of a run that finds several tokens pending accepts dedents. -/
def Keeps (calls : List Request) : Prop :=
  ∀ before r later, calls = before ++ r :: later →
    1 < (after before).scanner.pending → .dedent ∈ r.valid

theorem keeps_concat {calls : List Request} {r : Request} :
    Keeps (calls ++ [r]) ↔
      Keeps calls ∧ (1 < (after calls).scanner.pending → .dedent ∈ r.valid) := by
  constructor
  · intro h
    refine ⟨fun before q later hq => h before q (later ++ [r]) ?_, h calls r [] rfl⟩
    rw [hq, List.append_assoc, List.cons_append]
  · rintro ⟨h, hlast⟩ before q later hq
    rcases List.eq_nil_or_concat later with rfl | ⟨later, last, rfl⟩
    · obtain ⟨rfl, hr⟩ := List.append_inj' hq rfl
      obtain rfl : r = q := by simpa using hr
      exact hlast
    · rw [List.concat_eq_append, ← List.cons_append, ← List.append_assoc] at hq
      exact h before q later (List.append_inj' hq rfl).1

theorem lost_after_eq_zero_iff (calls : List Request) : (after calls).lost = 0 ↔ Keeps calls := by
  induction calls using List.reverseRecOn with
  | nil => exact iff_of_true rfl fun before r later h => by simp at h
  | append_singleton calls r ih =>
    rw [after_concat, keeps_concat, ← ih, ← Scanner.lost_eq_zero_iff]
    exact Nat.add_eq_zero_iff

/-- Whatever a parser accepts from call to call, at every moment it has received so many indents
more than dedents that every open block and every pending dedent is covered. No more than these are
covered until a call that finds several tokens pending refuses dedents, and from then on more. -/
theorem balance_covers_owed (calls : List Request) :
    0 ≤ (after calls).owed ∧ (after calls).owed ≤ (after calls).balance ∧
      ((after calls).balance = (after calls).owed ↔ Keeps calls) := by
  have hbal := (settled_after calls).balance
  have howed := owed_eq_unclosed (after calls)
  rw [← lost_after_eq_zero_iff]
  refine ⟨by omega, by omega, by omega⟩

-- Two blocks are closed at once and the parser refuses the second dedent: one block stays open in
-- what it has received, although the scanner has closed both.
example :
    let line (text : String) (valid : TokenSet) : Request := ⟨.ofText text 0, valid⟩
    let g := after [line "\n a" .full, line "\n  b" .full, line "\nc" .full,
      line "c" (.ofList [.newline])]
    g.balance = 1 ∧ g.owed = 0 := by decide

end Ledger
end GrammarLoader.Layout
