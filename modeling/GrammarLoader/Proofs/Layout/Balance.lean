import GrammarLoader.Proofs.Layout.Loop

/-! The layout tokens of a text are balanced. An account of the blocks carries the proof: indents
minus dedents are the open blocks and the dedents that are still due, and no call changes that. -/

namespace GrammarLoader.Layout

def indents (ts : List ScannedToken) : Nat := ts.countP (·.token = .indent)

def dedents (ts : List ScannedToken) : Nat := ts.countP (·.token = .dedent)

/-- Tokens that close every block once, and none before it is opened. -/
structure Balanced (ts : List ScannedToken) : Prop where
  covered : ∀ before, before <+: ts → dedents before ≤ indents before
  settled : dedents ts = indents ts

namespace Scanner

/-- The dedents that are still to come: one for each open block, and those that are pending. -/
def unclosed (s : Scanner) : Nat := s.depth + (s.pending.toNat - 1)

/-- Pending dedents are not dropped as long as dedents are acceptable. -/
theorem pending_le_one {s : Scanner} {valid : TokenSet} (hd : s.drain? valid = none)
    (hv : 1 < s.pending → .dedent ∈ valid) : s.pending.toNat ≤ 1 := by
  have hlt : ¬ 1 < s.pending := fun hp => (drain?_eq_none_iff.1 hd).2 hp (hv hp)
  exact UInt16.le_iff_toNat_le.1 (UInt16.not_lt.1 hlt)

theorem pending_eq_zero {s : Scanner} (hd : s.drain? .full = none) : s.pending = 0 := by
  have hle := pending_le_one hd fun _ => TokenSet.mem_full _
  have hne : s.pending.toNat ≠ 1 := fun hp =>
    (drain?_eq_none_iff.1 hd).1 (UInt16.toNat_inj.1 hp) (TokenSet.mem_full _)
  exact UInt16.toNat_inj.1 (by rw [UInt16.toNat_zero]; omega)

theorem unclosed_step {s s' : Scanner} {valid : TokenSet} {t : Option Token} (hn : s.Nested)
    (hv : 1 < s.pending → .dedent ∈ valid) (h : Step s valid t s') :
    (if t = some .dedent then 1 else 0) + s'.unclosed =
      (if t = some .indent then 1 else 0) + s.unclosed := by
  unfold unclosed
  cases h with
  | newlineDue hp => simp [hp, depth]
  | dedentDue hp =>
    have hsub := UInt16.toNat_sub_of_le s.pending 1 (UInt16.le_of_lt hp)
    have hlt : 1 < s.pending.toNat := UInt16.lt_iff_toNat_lt.1 hp
    simp only [hsub, depth, UInt16.toNat_one]
    simp
    omega
  -- from here on nothing that is pending is acceptable, so it is the newline if anything
  | opened hd =>
    have := pending_le_one hd hv
    simp [depth, Scanner.openBlock]
    omega
  | @closed w hd _ hw =>
    have := pending_le_one hd hv
    have := hn.toNat_pending_closeBlocks w
    have := depth_closeBlocks_lt hw
    simp
    omega
  | continued hd | declined hd =>
    have := pending_le_one hd hv
    simp [depth]
    omega
  | ended hd _ hl =>
    have := pending_le_one hd hv
    simp [depth, hl]
    omega

end Scanner

namespace Stage

/-- What is known of the tokens found so far. -/
structure Accounted (g : Stage) : Prop where
  nested : g.scanner.Nested
  covered : ∀ before, before <+: g.found.reverse → dedents before ≤ indents before
  balance : dedents g.found + g.scanner.unclosed = indents g.found

theorem accounted_start (text : String) : (start text).Accounted where
  nested := Scanner.nested_initial
  covered := by
    intro before hb
    rw [List.prefix_nil.1 hb]
    exact Nat.le_refl 0
  balance := rfl

theorem Accounted.next? {g g' : Stage} (h : g.Accounted) (hn : g.next? = some g') :
    g'.Accounted := by
  have hs : Scanner.Step g.scanner .full g.call.token g.call.scanner := Scanner.step_scan _ _ _
  have hacc := Scanner.unclosed_step h.nested (fun _ => TokenSet.mem_full _) hs
  have hbal := h.balance
  rcases next?_cases hn with ⟨token, ht, rfl⟩ | ⟨c, rest, ht, hr, rfl⟩
  · rw [ht] at hacc
    have hbal' : dedents (⟨token, g.call.lexer.position⟩ :: g.found) + g.call.scanner.unclosed =
        indents (⟨token, g.call.lexer.position⟩ :: g.found) := by
      unfold dedents indents at hbal ⊢
      rw [List.countP_cons, List.countP_cons]
      simp only [Option.some.injEq, decide_eq_true_eq] at hacc ⊢
      omega
    refine ⟨h.nested.step hs, fun before hb => ?_, hbal'⟩
    rw [List.reverse_cons, List.prefix_concat_iff] at hb
    rcases hb with rfl | hb
    · rw [← List.reverse_cons]
      unfold dedents indents at hbal' ⊢
      rw [List.countP_reverse, List.countP_reverse]
      omega
    · exact h.covered before hb
  · rw [ht] at hacc
    refine ⟨h.nested.step hs, h.covered, ?_⟩
    dsimp only
    simp only [reduceCtorEq, if_false, Nat.zero_add] at hacc
    rw [hacc, hbal]

theorem scanner_of_next?_none {g : Stage} (h : g.next? = none) :
    g.scanner.levels = [] ∧ g.scanner.pending = 0 ∧ g.call.scanner = g.scanner := by
  obtain ⟨ht, hr⟩ := next?_eq_none_iff.1 h
  have hd : g.scanner.drain? .full = none := by
    cases hd : g.scanner.drain? .full with
    | none => rfl
    | some d =>
      unfold call Scanner.scan at ht
      rw [hd] at ht
      cases ht
  have hp := Scanner.pending_eq_zero hd
  have hscan : g.scanner.scan (.startAt [] g.position) .full = _ := Lexer.scan_startAt hd rfl
  rw [Scanner.with_pending_zero hp] at hscan
  unfold call at ht ⊢
  rw [hr, hscan] at ht ⊢
  simp only [Scanner.place, Margin.start, readBlanks, List.isEmpty_nil, if_true,
    Bool.false_eq_true, if_false, Scanner.finish, TokenSet.mem_full] at ht ⊢
  cases hl : g.scanner.levels with
  | nil => exact ⟨rfl, hp, rfl⟩
  | cons w levels => simp [hl] at ht

end Stage

/-- The scan of a text ends, each block that it opens it closes later, and it leaves nothing open. -/
theorem scanAll_balanced (text : String) :
    (Stage.start text).runWithin (2 * text.length + 1) = some (run text) ∧
      Balanced (scanAll text) ∧ (run text).scanner.depth = 0 ∧ (run text).scanner.pending = 0 := by
  have hcost : (Stage.start text).cost < 2 * text.length + 1 := by
    change 2 * text.toList.length + 0 < _
    rw [String.length_toList]
    omega
  obtain ⟨last, hacc, hend, hrun⟩ := Stage.exists_last
    (fun _ _ hn h => Stage.Accounted.next? h hn) _ (Stage.accounted_start text)
  obtain ⟨hl, hp, hs⟩ := Stage.scanner_of_next?_none hend
  rw [Stage.run_start] at hrun
  have hz : last.scanner.unclosed = 0 := by simp [Scanner.unclosed, Scanner.depth, hl, hp]
  refine ⟨by rw [Stage.runWithin_eq hcost, Stage.run_start], ⟨?_, ?_⟩, ?_, ?_⟩
  · unfold scanAll
    rw [hrun]
    exact hacc.covered
  · have hbal := hacc.balance
    unfold scanAll
    rw [hrun, Stage.result]
    unfold dedents indents at hbal ⊢
    rw [List.countP_reverse, List.countP_reverse]
    omega
  · rw [hrun, Stage.result, hs, Scanner.depth, hl, List.length_nil]
  · rw [hrun, Stage.result, hs, hp]

end GrammarLoader.Layout
