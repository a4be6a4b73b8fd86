import GrammarLoader.Layout.Scanner

/-! What one call of the scanner can do to it, and the invariant that every call keeps: each block is
wider than the one around it. So there are never more open blocks than widths, and the number of
blocks that a line closes is always counted exactly. -/

namespace GrammarLoader.Layout.Scanner

/-- What one call may find, and the scanner that it leaves. -/
inductive Step (s : Scanner) (valid : TokenSet) : Option Token → Scanner → Prop
  | newlineDue (hp : s.pending = 1) (hv : .newline ∈ valid) :
      Step s valid (some .newline) { s with pending := 0 }
  | dedentDue (hp : 1 < s.pending) (hv : .dedent ∈ valid) :
      Step s valid (some .dedent) { s with pending := s.pending - 1 }
  | opened {w : UInt16} (hd : s.drain? valid = none) (hv : .indent ∈ valid) (hw : s.indent < w) :
      Step s valid (some .indent) ({ s with pending := 0 }.openBlock w)
  | closed {w : UInt16} (hd : s.drain? valid = none) (hv : .dedent ∈ valid) (hw : w < s.indent) :
      Step s valid (some .dedent) (s.closeBlocks w)
  | continued (hd : s.drain? valid = none) (hv : .newline ∈ valid) :
      Step s valid (some .newline) { s with pending := 0 }
  | ended {w : UInt16} {levels : List UInt16} (hd : s.drain? valid = none) (hv : .dedent ∈ valid)
      (hl : s.levels = w :: levels) : Step s valid (some .dedent) { s with levels, pending := 0 }
  | declined (hd : s.drain? valid = none) : Step s valid none { s with pending := 0 }

theorem drain?_eq_none_iff {s : Scanner} {valid : TokenSet} :
    s.drain? valid = none ↔
      (s.pending = 1 → .newline ∉ valid) ∧ (1 < s.pending → .dedent ∉ valid) := by
  unfold drain?
  split
  · simp_all
  · split <;> simp_all

theorem with_pending_zero {s : Scanner} (h : s.pending = 0) : { s with pending := 0 } = s := by
  cases s
  cases h
  rfl

theorem step_startLine {s : Scanner} {valid : TokenSet} (hd : s.drain? valid = none) (w : UInt16) :
    Step s valid ({ s with pending := 0 }.startLine w valid).1
      ({ s with pending := 0 }.startLine w valid).2 := by
  unfold startLine
  split
  · next h => exact .opened hd h.1 h.2
  · split
    · next h => exact .closed hd h.1 h.2
    · split
      · next h => exact .continued hd h
      · exact .declined hd

theorem step_finish {s : Scanner} {valid : TokenSet} (hd : s.drain? valid = none) :
    Step s valid ({ s with pending := 0 }.finish valid).1
      ({ s with pending := 0 }.finish valid).2 := by
  unfold finish
  split
  · next hl =>
    split
    · next hv => exact .ended hd hv hl
    · exact .declined hd
  · exact .declined hd

theorem step_scan (s : Scanner) (l : Lexer) (valid : TokenSet) :
    Step s valid (s.scan l valid).token (s.scan l valid).scanner := by
  fun_cases scan s l valid with
  | case1 t s' hd =>
    unfold drain? at hd
    split at hd
    · next h =>
      obtain ⟨rfl, rfl⟩ := by simpa using hd
      exact .newlineDue h.1 h.2
    · split at hd
      · next h =>
        obtain ⟨rfl, rfl⟩ := by simpa using hd
        exact .dedentDue h.1 h.2
      · cases hd
  | case2 hd s' l' hb => exact .declined hd
  | case3 hd s' l' margin hb t s'' hp =>
    have ht : t = (s'.place margin l'.atEnd valid).1 := by rw [hp]
    have hs : s'' = (s'.place margin l'.atEnd valid).2 := by rw [hp]
    subst ht hs
    unfold place
    split
    · exact step_startLine hd margin.width
    · split
      · exact step_finish hd
      · exact .declined hd

/-- Each block is wider than the one around it, and all are wider than the text itself. -/
def Nested (s : Scanner) : Prop := (s.levels ++ [0]).Pairwise (· > ·)

theorem nested_initial : initial.Nested := by simp [Nested, initial]

theorem Nested.openBlock {s : Scanner} (h : s.Nested) {w : UInt16} (hw : s.indent < w) :
    (s.openBlock w).Nested := by
  refine List.pairwise_cons.2 ⟨fun v hv => ?_, h⟩
  unfold indent at hw
  unfold Nested at h
  cases hl : s.levels with
  | nil =>
    rw [hl] at hv hw
    obtain rfl : v = 0 := by simpa using hv
    exact hw
  | cons u levels =>
    rw [hl] at hv hw h
    rcases List.mem_cons.1 hv with rfl | hv
    · exact hw
    · exact UInt16.lt_trans ((List.pairwise_cons.1 h).1 v hv) hw

theorem Nested.of_suffix {s s' : Scanner} (h : s.Nested) (hl : s'.levels <:+ s.levels) :
    s'.Nested :=
  h.sublist (List.Sublist.append hl.sublist (List.Sublist.refl [0]))

theorem Nested.step {s s' : Scanner} {valid : TokenSet} {t : Option Token} (h : s.Nested)
    (hs : Step s valid t s') : s'.Nested := by
  cases hs with
  | newlineDue | dedentDue | continued | declined => exact h
  | opened hd hv hw => exact Nested.openBlock (s := { s with pending := 0 }) h hw
  | closed => exact h.of_suffix (List.dropWhile_suffix _)
  | ended hd hv hl => exact h.of_suffix ⟨[_], hl.symm⟩

theorem Nested.depth_le_indent {s : Scanner} (h : s.Nested) : s.depth ≤ s.indent.toNat := by
  have key : ∀ levels : List UInt16, (levels ++ [0]).Pairwise (· > ·) →
      levels.length ≤ (levels.headD 0).toNat := by
    intro levels hp
    induction levels with
    | nil => exact Nat.zero_le _
    | cons w levels ih =>
      obtain ⟨hw, hp⟩ := List.pairwise_cons.1 hp
      have hmem : levels.headD 0 ∈ levels ++ [0] := by cases levels <;> simp
      have hlt : (levels.headD 0).toNat < w.toNat := UInt16.lt_iff_toNat_lt.1 (hw _ hmem)
      have := ih hp
      rw [List.length_cons, List.headD_cons]
      omega
  exact key s.levels h

theorem Nested.depth_le {s : Scanner} (h : s.Nested) : s.depth ≤ maxPending := by
  have h1 := h.depth_le_indent
  have h2 := s.indent.toNat_lt
  unfold maxPending
  omega

theorem depth_closeBlocks_le (s : Scanner) (w : UInt16) : (s.closeBlocks w).depth ≤ s.depth :=
  (List.dropWhile_suffix _).length_le

theorem pending_add_depth_closeBlocks_le (s : Scanner) (w : UInt16) :
    (s.closeBlocks w).pending.toNat + (s.closeBlocks w).depth ≤ s.depth := by
  have hk := depth_closeBlocks_le s w
  have hp : (s.closeBlocks w).pending.toNat ≤ s.depth - (s.closeBlocks w).depth :=
    Nat.le_trans (Nat.mod_le _ _) (Nat.min_le_right _ _)
  omega

/-- Nested blocks are all counted: a closing line leaves as many pending tokens as it closes blocks. -/
theorem Nested.toNat_pending_closeBlocks {s : Scanner} (h : s.Nested) (w : UInt16) :
    (s.closeBlocks w).pending.toNat = s.depth - (s.closeBlocks w).depth := by
  have hd : s.depth ≤ 65535 := h.depth_le
  unfold closeBlocks depth at *
  simp only [UInt16.toNat_ofNat', maxPending]
  rw [Nat.min_eq_right (by omega), Nat.mod_eq_of_lt (by omega)]

/-- A line that is narrower than the innermost block closes at least that one. -/
theorem depth_closeBlocks_lt {s : Scanner} {w : UInt16} (hw : w < s.indent) :
    (s.closeBlocks w).depth < s.depth := by
  unfold indent at hw
  unfold closeBlocks depth
  cases hl : s.levels with
  | nil =>
    rw [hl] at hw
    exact absurd hw (by simp)
  | cons u levels =>
    rw [hl] at hw
    have hw : w < u := hw
    simp only [List.dropWhile_cons, decide_eq_true hw, if_true, List.length_cons]
    have := (List.dropWhile_suffix (l := levels) (decide <| w < ·)).length_le
    omega

end GrammarLoader.Layout.Scanner
