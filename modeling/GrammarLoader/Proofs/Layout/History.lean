import GrammarLoader.Proofs.Layout.Nesting
import GrammarLoader.Proofs.Layout.Snapshot
import GrammarLoader.Proofs.Layout.Stack

/-! Runs of a scanner: calls anywhere in any text, and returns to snapshots of earlier states. In a
run each block stays wider than the one around it, and even bytes from elsewhere leave the width of
the text itself at the bottom of the stack. -/

namespace GrammarLoader.Layout

inductive Call
  | scan (l : Lexer) (valid : TokenSet)
  /-- The state of `back` calls ago is written into `size` bytes and restored from them. -/
  | restore (back size : Nat)
  | load (bytes : List UInt8)

def Call.isOwn : Call → Bool
  | .load _ => false
  | _ => true

namespace Scanner

/-- The state after a call, where `past` are the states before it, the latest first. -/
def after (past : List Scanner) : Call → Scanner
  | .scan l valid => ((past.headD initial).scan l valid).scanner
  | .restore back size => deserialize ((past.getD back initial).serialize size)
  | .load bytes => deserialize bytes

/-- All states of a run, the latest first. Further back than the start lies the start. -/
def history (calls : List Call) : List Scanner :=
  calls.foldl (fun past call => after past call :: past) [initial]

end Scanner

namespace StackScanner

def after (past : List StackScanner) : Call → StackScanner
  | .scan l valid => ((past.headD initial).scan l valid).2.1
  | .restore back size => deserialize ((past.getD back initial).serialize size)
  | .load bytes => deserialize bytes

def history (calls : List Call) : List StackScanner :=
  calls.foldl (fun past call => after past call :: past) [initial]

end StackScanner

namespace Scanner

theorem after_onStack (past : List Scanner) (call : Call) :
    StackScanner.after (past.map onStack) call = (after past call).onStack := by
  cases call with
  | scan l valid =>
    have hhead : (past.map onStack).headD .initial = (past.headD initial).onStack := by
      cases past <;> rfl
    rw [StackScanner.after, hhead, scan_onStack]
    rfl
  | restore back size =>
    have hback : (past.map onStack).getD back .initial = (past.getD back initial).onStack := by
      rw [← onStack_initial, List.getD_eq_getElem?_getD, List.getElem?_map, Option.getD_map]
      rfl
    rw [StackScanner.after, hback, serialize_onStack, after, deserialize_onStack]
  | load bytes => exact (deserialize_onStack bytes).symm

theorem history_onStack (calls : List Call) :
    StackScanner.history calls = (history calls).map onStack := by
  -- The states so far are the fold's argument, so the induction is over every past.
  have key : ∀ past : List Scanner,
      calls.foldl (fun past call => StackScanner.after past call :: past) (past.map onStack) =
        (calls.foldl (fun past call => after past call :: past) past).map onStack := by
    induction calls with
    | nil => exact fun _ => rfl
    | cons call calls ih =>
      intro past
      rw [List.foldl_cons, List.foldl_cons, after_onStack, ← List.map_cons, ih]
  exact key [initial]

structure Regular (s : Scanner) : Prop where
  nested : s.Nested
  finalNewline : s.finalNewline = false

theorem regular_initial : initial.Regular := ⟨nested_initial, rfl⟩

theorem finalNewline_step {s s' : Scanner} {valid : TokenSet} {t : Option Token}
    (h : Step s valid t s') : s'.finalNewline = s.finalNewline := by
  cases h <;> rfl

theorem Regular.scan {s : Scanner} (h : s.Regular) (l : Lexer) (valid : TokenSet) :
    (s.scan l valid).scanner.Regular :=
  ⟨h.nested.step (step_scan s l valid),
    (finalNewline_step (step_scan s l valid)).trans h.finalNewline⟩

theorem Regular.restore {s : Scanner} (h : s.Regular) (size : Nat) :
    (deserialize (s.serialize size)).Regular := by
  rw [deserialize_serialize]
  refine ⟨h.nested.of_suffix (levels_cut_suffix s size), ?_⟩
  unfold cut
  split
  · rfl
  · exact h.finalNewline

theorem Regular.after {past : List Scanner} (h : ∀ s ∈ past, s.Regular) {call : Call}
    (hc : call.isOwn = true) : (after past call).Regular := by
  have hget (i : Nat) : (past.getD i initial).Regular := by
    rw [List.getD_eq_getElem?_getD]
    cases hi : past[i]? with
    | none => exact regular_initial
    | some s => exact h s (List.mem_of_getElem? hi)
  cases call with
  | scan l valid =>
    have hhead : past.headD initial = past.getD 0 initial := by cases past <;> rfl
    rw [Scanner.after, hhead]
    exact (hget 0).scan l valid
  | restore back size => exact (hget back).restore size
  | load bytes => cases hc

theorem regular_history {calls : List Call} (hc : ∀ call ∈ calls, call.isOwn = true) :
    ∀ s ∈ history calls, s.Regular := by
  have key : ∀ past : List Scanner, (∀ s ∈ past, s.Regular) →
      ∀ s ∈ calls.foldl (fun past call => Scanner.after past call :: past) past, s.Regular := by
    induction calls with
    | nil => exact fun past h => h
    | cons call calls ih =>
      intro past h
      obtain ⟨hcall, hcalls⟩ := List.forall_mem_cons.1 hc
      exact ih hcalls _ (List.forall_mem_cons.2 ⟨Regular.after h hcall, h⟩)
  exact key [initial] (List.forall_mem_singleton.2 regular_initial)

end Scanner

/-- A stack of widths that grow strictly from the text itself, whose width is 0, to the innermost
block, with no flag set and as many blocks as can be counted. -/
structure StackScanner.Regular (t : StackScanner) : Prop where
  base : t.stack.getLast? = some 0
  ascending : t.stack.reverse.Pairwise (· < ·)
  finalNewline : t.finalNewline = false
  depth : ∃ d, t.depth? = some d ∧ d ≤ 65535

theorem Scanner.getLast?_onStack (s : Scanner) : s.onStack.stack.getLast? = some 0 :=
  List.getLast?_concat

theorem Scanner.depth?_onStack (s : Scanner) : s.onStack.depth? = some s.depth := by
  unfold StackScanner.depth? Scanner.onStack Scanner.depth
  cases s.levels with
  | nil => rfl
  | cons w levels => simp

theorem Scanner.Regular.onStack {s : Scanner} (h : s.Regular) : s.onStack.Regular :=
  ⟨s.getLast?_onStack, List.pairwise_reverse.2 h.nested, h.finalNewline,
    s.depth, s.depth?_onStack, h.nested.depth_le⟩

/-- However a run goes, the lowest width is that of the text itself. If only snapshots of the run
are restored, the widths also ascend and their number stays within bounds. -/
theorem history_regular (calls : List Call) :
    StackScanner.history calls = (Scanner.history calls).map Scanner.onStack ∧
    (∀ t ∈ StackScanner.history calls, t.stack.getLast? = some 0) ∧
    ((∀ call ∈ calls, call.isOwn = true) → ∀ t ∈ StackScanner.history calls, t.Regular) := by
  rw [Scanner.history_onStack]
  refine ⟨rfl, fun t ht => ?_, fun hc t ht => ?_⟩
  · obtain ⟨s, _, rfl⟩ := List.mem_map.1 ht
    exact s.getLast?_onStack
  · obtain ⟨s, hs, rfl⟩ := List.mem_map.1 ht
    exact (Scanner.regular_history hc s hs).onStack

-- Bytes from elsewhere may bring an inner block that is narrower than the one around it.
example : (StackScanner.deserialize [0, 0, 4, 0, 2, 0]).stack = [2, 4, 0] := by decide

end GrammarLoader.Layout
