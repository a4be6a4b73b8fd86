import GrammarLoader.Proofs.Layout.History
import GrammarLoader.Proofs.Layout.Ledger
import GrammarLoader.Proofs.Layout.Procedure

/-! A line that closes blocks, and the calls after it. The blocks that are left are those that are no
wider than the line, because each block is wider than the one around it; the others are counted
exactly, because there are never more of them than can be counted. The calls that follow pay that
count off and look at no text. -/

namespace GrammarLoader.Layout

/-- The blanks in front of the lexer end a line, and the next line has width `w`. -/
def Lexer.EndsLine (l : Lexer) (w : UInt16) : Prop :=
  ∃ items rest, LongestBlanks items l.rest rest ∧ rest.head? ≠ some '\\' ∧
    '\n' ∈ plains items ∧ w.toNat = runWidth (plains items)

namespace Scanner

def replies (s : Scanner) : List Request → List Scan
  | [] => []
  | r :: later => s.scan r.lexer r.valid :: (s.scan r.lexer r.valid).scanner.replies later

/-- The calls pay off what is pending: a newline with the last one and a dedent with each other one,
wherever their lexers stand. -/
structure PaysOff (s : Scanner) (calls : List Request) : Prop where
  tokens : (s.replies calls).map (·.token) =
    List.replicate (calls.length - 1) (some .dedent) ++ [some .newline]
  lexers : (s.replies calls).map (·.lexer) = calls.map (·.lexer)
  levels : ∀ found ∈ s.replies calls, found.scanner.levels = s.levels
  last : (s.replies calls).getLast?.map (·.scanner) = some { s with pending := 0 }

/-- The last of the pending tokens is a newline. -/
theorem paysOff_one {s : Scanner} (hp : s.pending.toNat = 1) {r : Request}
    (hv : .newline ∈ r.valid) : s.PaysOff [r] := by
  have hscan := scan_of_due (.newline hp hv) r.lexer
  have hzero : s.pending - 1 = 0 := by
    rw [show s.pending = 1 from UInt16.toNat_inj.1 hp]
    rfl
  rw [hzero] at hscan
  constructor <;> simp [replies, hscan]

/-- A dedent leaves one token less to be paid off. -/
theorem PaysOff.cons {s : Scanner} (hp : 1 < s.pending.toNat) {r : Request} (hv : .dedent ∈ r.valid)
    {calls : List Request} (hne : calls ≠ [])
    (h : ({ s with pending := s.pending - 1 } : Scanner).PaysOff calls) : s.PaysOff (r :: calls) := by
  have hreplies : s.replies (r :: calls) =
      ⟨some .dedent, { s with pending := s.pending - 1 }, r.lexer⟩ ::
        replies { s with pending := s.pending - 1 } calls := by
    rw [replies, scan_of_due (.dedent hp hv) r.lexer]
  have hlength : (r :: calls).length - 1 = calls.length - 1 + 1 := by
    have := List.length_pos_iff.2 hne
    rw [List.length_cons]
    omega
  constructor
  · rw [hreplies, hlength, List.map_cons, h.tokens, List.replicate_succ, List.cons_append]
  · rw [hreplies, List.map_cons, List.map_cons, h.lexers]
  · rw [hreplies]
    exact List.forall_mem_cons.2 ⟨rfl, h.levels⟩
  · have hnonempty : replies { s with pending := s.pending - 1 } calls ≠ [] := by
      intro hnil
      have hlast := h.last
      rw [hnil] at hlast
      cases hlast
    rw [hreplies, List.getLast?_cons_of_ne_nil hnonempty]
    exact h.last

/-- As many calls as there are tokens pending pay them off. -/
theorem paysOff {calls : List Request} {s : Scanner} (hpos : 1 ≤ calls.length)
    (hp : s.pending.toNat = calls.length)
    (hv : ∀ r ∈ calls, .dedent ∈ r.valid ∧ .newline ∈ r.valid) : s.PaysOff calls := by
  induction calls generalizing s with
  | nil => exact absurd hpos (by decide)
  | cons r calls ih =>
    obtain ⟨hr, hlater⟩ := List.forall_mem_cons.1 hv
    cases calls with
    | nil => exact paysOff_one hp hr.2
    | cons r' calls =>
      have hmore : 1 < s.pending.toNat := by
        rw [hp, List.length_cons, List.length_cons]
        omega
      have hle : 1 ≤ s.pending := UInt16.le_iff_toNat_le.2 (Nat.le_of_lt hmore)
      have hsub : (s.pending - 1).toNat = (r' :: calls).length := by
        rw [UInt16.toNat_sub_of_le _ _ hle, hp]
        rfl
      exact .cons hmore hr.1 (List.cons_ne_nil _ _) (ih (Nat.succ_pos _) hsub hlater)

/-- Of nested blocks those that a line leaves open are the ones that are no wider. -/
theorem Nested.dropWhile_eq_filter {s : Scanner} (h : s.Nested) (w : UInt16) :
    s.levels.dropWhile (w < ·) = s.levels.filter (· ≤ w) := by
  have hlevels : s.levels.Pairwise (· > ·) := (List.pairwise_append.1 h).1
  obtain ⟨closed, kept, heq, hclosed, hkept⟩ := s.exists_closed w
  rw [heq] at hlevels ⊢
  have hnone : closed.filter (· ≤ w) = [] :=
    List.filter_eq_nil_iff.2 fun v hv => by simpa using hclosed v hv
  have hall : kept.filter (· ≤ w) = kept := by
    refine List.filter_eq_self.2 fun v hv => decide_eq_true ?_
    cases kept with
    | nil => cases hv
    | cons u kept =>
      have hu : u ≤ w := hkept u rfl
      rcases List.mem_cons.1 hv with rfl | hv
      · exact hu
      · have hlt : v < u := (List.pairwise_cons.1 (List.pairwise_append.1 hlevels).2.1).1 v hv
        exact UInt16.le_trans (UInt16.le_of_lt hlt) hu
  rw [dropWhile_closed hclosed hkept, List.filter_append, hnone, hall, List.nil_append]

theorem Nested.widths_closeBlocks {s : Scanner} (h : s.Nested) (w : UInt16) :
    (s.closeBlocks w).widths = s.widths.filter (· ≤ w) := by
  have hzero : (0 : UInt16) ≤ w := UInt16.le_iff_toNat_le.2 (Nat.zero_le _)
  unfold widths
  rw [List.filter_cons, if_pos (decide_eq_true hzero), List.filter_reverse,
    ← h.dropWhile_eq_filter]
  rfl

theorem Nested.pending_closeBlocks {s : Scanner} (h : s.Nested) (w : UInt16) :
    (s.closeBlocks w).pending.toNat = (s.widths.filter (w < ·)).length := by
  have hzero : ¬w < 0 := UInt16.not_lt.2 (UInt16.le_iff_toNat_le.2 (Nat.zero_le _))
  have hsplit := List.length_eq_length_filter_add (l := s.levels) (fun v => decide (w < v))
  have hnarrow : s.levels.filter (fun v => !decide (w < v)) = s.levels.filter (· ≤ w) := by
    refine List.filter_congr fun v _ => ?_
    rw [Bool.eq_iff_iff, Bool.not_eq_true', decide_eq_false_iff_not, decide_eq_true_eq,
      UInt16.not_lt]
  have hkept : (s.closeBlocks w).depth = (s.levels.filter (· ≤ w)).length := by
    rw [← h.dropWhile_eq_filter]
    rfl
  have hwidths : (s.widths.filter (w < ·)).length = (s.levels.filter (w < ·)).length := by
    rw [widths, List.filter_cons, if_neg (mt of_decide_eq_true hzero), List.filter_reverse,
      List.length_reverse]
  rw [h.toNat_pending_closeBlocks, hkept, hwidths, depth]
  rw [hnarrow] at hsplit
  omega

theorem scan_of_endsLine {s : Scanner} {l : Lexer} {valid : TokenSet} {w : UInt16}
    (hd : ∀ t, ¬s.Due valid t) (hl : l.EndsLine w) (hw : w < s.indent) (hv : .dedent ∈ valid) :
    (s.scan l valid).token = some .dedent ∧ (s.scan l valid).scanner = s.closeBlocks w := by
  obtain ⟨items, rest, hb, hrest, hline, hwidth⟩ := hl
  have hread := hb.readBlanks hrest l.position
  have hm : l.skipBlanks.2 = some (.ofRun (plains items)) := by
    rw [Lexer.skipBlanks, hread]
  have hofRun : (Margin.ofRun (plains items)).width = w := UInt16.toNat_inj.1
    ((Margin.width_ofRun hb.itemized.isBlank_plains).trans hwidth.symm)
  obtain ⟨closed, kept, hlevels, hclosed, hkept⟩ := s.exists_closed w
  have hplace : ({ s with pending := 0 } : Scanner).place (.ofRun (plains items))
      l.skipBlanks.1.atEnd valid = (some .dedent, s.closeBlocks w) := by
    rw [closeBlocks_append hlevels hclosed hkept]
    refine Answers.place_eq ?_
    rw [hofRun]
    exact .dedent ((Margin.newLine_ofRun _).2 hline) hw hv hlevels hclosed hkept (toNat_counted _)
  unfold scan
  rw [not_due_iff.1 hd]
  rw [show l.skipBlanks = (l.skipBlanks.1, some (.ofRun (plains items))) from Prod.ext rfl hm]
  dsimp only
  rw [hplace]
  exact ⟨rfl, rfl⟩

end Scanner

/-- A narrower line closes the blocks that are wider than it, at least one, and counts them. If
dedents and newlines stay acceptable, the calls that follow find one token for each of them: with
the dedent of the line itself, a dedent for each block, and one newline. -/
theorem closing_paysOff {calls : List Call} (hc : ∀ call ∈ calls, call.isOwn = true) {s : Scanner}
    (hs : s ∈ Scanner.history calls) {l : Lexer} {valid : TokenSet} {w : UInt16}
    (hd : ∀ t, ¬s.Due valid t) (hl : l.EndsLine w) (hw : w < s.indent) (hv : .dedent ∈ valid) :
    ∃ k, 1 ≤ k ∧ k = (s.widths.filter (w < ·)).length ∧
      (s.scan l valid).scanner.widths = s.widths.filter (· ≤ w) ∧
      (s.scan l valid).scanner.pending.toNat = k ∧
      ∀ later : List Request, later.length = k →
        (∀ r ∈ later, .dedent ∈ r.valid ∧ .newline ∈ r.valid) →
          (s.scan l valid).scanner.PaysOff later ∧
            (s.replies (⟨l, valid⟩ :: later)).map (·.token) =
              List.replicate k (some .dedent) ++ [some .newline] := by
  have hn : s.Nested := (Scanner.regular_history hc s hs).nested
  obtain ⟨htoken, hscanner⟩ := Scanner.scan_of_endsLine hd hl hw hv
  have hpending := hn.pending_closeBlocks w
  have hpos : 1 ≤ (s.widths.filter (w < ·)).length := by
    have hlt := Scanner.depth_closeBlocks_lt hw
    rw [← hpending, hn.toNat_pending_closeBlocks]
    omega
  rw [hscanner]
  refine ⟨_, hpos, rfl, hn.widths_closeBlocks w, hpending, fun later hlength hlater => ?_⟩
  have hpaid : (s.closeBlocks w).PaysOff later :=
    Scanner.paysOff (hlength ▸ hpos) (hpending.trans hlength.symm) hlater
  have hcount : (s.widths.filter (w < ·)).length = later.length - 1 + 1 := by omega
  refine ⟨hpaid, ?_⟩
  rw [Scanner.replies, List.map_cons, htoken, hscanner, hpaid.tokens, hcount, List.replicate_succ,
    List.cons_append]

-- Three blocks are opened and a snapshot has room for two of them; then a line closes both.
theorem closing_paysOff_restored :
    let line (text : String) : Call := .scan (.ofText text 0) .full
    let calls := [line "\n a", line "\n  b", line "\n   c", .restore 0 6]
    let s : Scanner := ⟨[2, 1], 0, false⟩
    let later : List Request := [⟨.ofText "c" 0, .full⟩, ⟨.ofText "\\" 0, .full⟩]
    (∀ call ∈ calls, call.isOwn = true) ∧ s ∈ Scanner.history calls ∧
      (s.scan (.ofText "\n \rc" 0) .full).scanner.pending.toNat = 2 ∧
      (s.replies (⟨.ofText "\n \rc" 0, .full⟩ :: later)).map (·.token) =
        [some .dedent, some .dedent, some .newline] := by
  intro line calls s later
  have hc : ∀ call ∈ calls, call.isOwn = true := by decide
  have hs : s ∈ Scanner.history calls := by decide
  have hd : ∀ t, ¬s.Due .full t := by
    rintro t (⟨hp, -⟩ | ⟨hp, -⟩) <;> exact absurd hp (by decide)
  have hl : (Lexer.ofText "\n \rc" 0).EndsLine 0 := by
    have hitems : Itemized [.plain '\n', .plain ' ', .plain '\r'] ['c'] :=
      .cons rfl (.cons rfl (.cons rfl (.nil _)))
    exact ⟨_, _, hitems.longestBlanks fun _ _ => rfl, by decide, by decide, by decide⟩
  have hv : ∀ r ∈ later, .dedent ∈ r.valid ∧ .newline ∈ r.valid := by
    intro r hr
    rcases List.mem_pair.1 hr with rfl | rfl <;> exact ⟨rfl, rfl⟩
  obtain ⟨k, hpos, hk, hwidths, hpending, hlater⟩ :=
    closing_paysOff hc hs hd hl (by decide) (TokenSet.mem_full _)
  obtain rfl : k = 2 := hk
  exact ⟨hc, hs, hpending, (hlater later rfl hv).2⟩

end GrammarLoader.Layout
