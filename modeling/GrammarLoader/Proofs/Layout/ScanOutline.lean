import GrammarLoader.Proofs.Layout.Outline

/-! A text without backslashes is scanned to its outline. The tokens found so far, those that are
due, and the outline of the rest make up one list, which no turn of the scan changes. -/

namespace GrammarLoader.Layout

namespace Scanner

/-- The widths of the open blocks, the innermost first, down to the text itself. -/
def stack (s : Scanner) : List Nat := s.levels.map UInt16.toNat ++ [0]

/-- The tokens that pending calls will find at `offset`. -/
def dues (s : Scanner) (offset : Nat) : List ScannedToken :=
  if s.pending = 0 then []
  else List.replicate (s.pending.toNat - 1) ⟨.dedent, offset⟩ ++ [⟨.newline, offset⟩]

theorem headD_stack (s : Scanner) : s.stack.headD 0 = s.indent.toNat := by
  unfold stack indent
  cases s.levels <;> rfl

theorem length_stack (s : Scanner) : s.stack.length = s.depth + 1 := by
  simp [stack, depth]

theorem dropWhile_stack (s : Scanner) (w : UInt16) :
    s.stack.dropWhile (w.toNat < ·) = (s.closeBlocks w).stack := by
  unfold stack closeBlocks
  dsimp only
  induction s.levels with
  | nil => simp
  | cons v levels ih =>
    rw [List.map_cons, List.cons_append, List.dropWhile_cons, List.dropWhile_cons]
    by_cases h : w < v
    · rw [if_pos (by simpa using UInt16.lt_iff_toNat_lt.1 h), if_pos (by simpa using h), ih]
    · rw [if_neg (by simpa using UInt16.lt_iff_toNat_lt.not.1 h), if_neg (by simpa using h)]
      rfl

theorem dues_of_drain? {s s' : Scanner} {t : Token} (h : s.drain? .full = some (t, s'))
    (offset : Nat) : s.dues offset = ⟨t, offset⟩ :: s'.dues offset ∧ s'.stack = s.stack := by
  unfold drain? at h
  split at h
  · next hp =>
    obtain ⟨rfl, rfl⟩ := by simpa using h
    simp [dues, hp.1, stack]
  · split at h
    · next hp =>
      obtain ⟨rfl, rfl⟩ := by simpa using h
      have hlt : 1 < s.pending.toNat := UInt16.lt_iff_toNat_lt.1 hp.1
      have hsub := UInt16.toNat_sub_of_le s.pending 1 (UInt16.le_of_lt hp.1)
      have hne : s.pending ≠ 0 := by
        rintro h0
        rw [h0] at hlt
        exact absurd hlt (by decide)
      have hne' : s.pending - 1 ≠ 0 := by
        intro h0
        rw [h0] at hsub
        simp at hsub
        omega
      refine ⟨?_, rfl⟩
      unfold dues
      rw [if_neg hne, if_neg hne', hsub, ← List.cons_append, ← List.replicate_succ]
      congr 2
      simp
      omega
    · cases h

/-- What a scanner with nothing pending finds on a new line is what the outline says. -/
theorem outlineLine_startLine {s : Scanner} (hn : s.Nested) (hp : s.pending = 0) (w : UInt16)
    (offset : Nat) :
    ∃ t s', s.startLine w .full = (some t, s') ∧
      outlineLine s.stack w.toNat offset = (⟨t, offset⟩ :: s'.dues offset, s'.stack) := by
  unfold startLine outlineLine
  rw [headD_stack]
  by_cases hi : s.indent < w
  · rw [if_pos ⟨TokenSet.mem_full _, hi⟩, if_pos (UInt16.lt_iff_toNat_lt.1 hi)]
    exact ⟨_, _, rfl, by simp [dues, openBlock, stack, hp]⟩
  have hi' : ¬ s.indent.toNat < w.toNat := UInt16.lt_iff_toNat_lt.not.1 hi
  rw [if_neg (fun h => hi h.2), if_neg hi']
  by_cases hw : w < s.indent
  · have hne : w.toNat ≠ s.indent.toNat := Nat.ne_of_lt (UInt16.lt_iff_toNat_lt.1 hw)
    rw [if_pos ⟨TokenSet.mem_full _, hw⟩, if_neg hne]
    refine ⟨_, _, rfl, ?_⟩
    have hpend := hn.toNat_pending_closeBlocks w
    have hlt := depth_closeBlocks_lt hw
    have hne0 : (s.closeBlocks w).pending ≠ 0 := by
      intro h0
      rw [h0, UInt16.toNat_zero] at hpend
      omega
    dsimp only
    rw [dropWhile_stack, length_stack, length_stack]
    unfold dues
    rw [if_neg hne0, hpend, ← List.cons_append, ← List.replicate_succ]
    congr 3
    omega
  · have heq : w.toNat = s.indent.toNat := by
      have hw' : ¬ w.toNat < s.indent.toNat := UInt16.lt_iff_toNat_lt.not.1 hw
      omega
    rw [if_neg (fun h => hw h.2), if_pos (TokenSet.mem_full _), if_pos heq]
    exact ⟨_, _, rfl, by simp [dues, hp]⟩

end Scanner

namespace Stage

/-- All tokens that are to be expected from a scan that has come this far. -/
def expected (g : Stage) : List ScannedToken :=
  g.found.reverse ++ g.scanner.dues g.position ++
    outlineFrom g.scanner.stack g.position g.rest

def blanks (g : Stage) : List Char := g.rest.takeWhile isBlank

def behind (g : Stage) : List Char := g.rest.dropWhile isBlank

theorem blanks_append_behind (g : Stage) : g.blanks ++ g.behind = g.rest :=
  List.takeWhile_append_dropWhile

theorem isBlank_of_mem_blanks {g : Stage} : ∀ c ∈ g.blanks, isBlank c = true :=
  fun _ h => List.mem_takeWhile_imp h

theorem isBlank_head_behind {g : Stage} : ∀ c ∈ g.behind.head?, isBlank c = false := by
  intro c hc
  have := List.head?_dropWhile_not isBlank g.rest
  unfold behind at hc
  rw [Option.mem_def.1 hc] at this
  simpa using this

/-- A call with nothing pending reads the blanks at the position. -/
theorem call_eq {g : Stage} (hb : '\\' ∉ g.rest) (hd : g.scanner.drain? .full = none)
    (hp : g.scanner.pending = 0) :
    g.call =
      ⟨(g.scanner.place (.ofRun g.blanks) g.behind.isEmpty .full).1,
        (g.scanner.place (.ofRun g.blanks) g.behind.isEmpty .full).2,
        (Lexer.startAt g.behind (g.position + byteLength g.blanks)).mark⟩ := by
  have hread : readBlanks .start g.position g.rest =
      ⟨some (.ofRun g.blanks), g.position + byteLength g.blanks, g.behind⟩ := by
    rw [← blanks_append_behind g] at hb ⊢
    refine readBlanks_append isBlank_of_mem_blanks (fun c hc => ⟨isBlank_head_behind c hc, ?_⟩) _ _
    rintro rfl
    exact hb (List.mem_append_right _ (List.mem_of_mem_head? hc))
  have hscan : g.scanner.scan (.startAt g.rest g.position) .full = _ :=
    Lexer.scan_startAt hd (congrArg BlankRun.margin hread)
  rw [Scanner.with_pending_zero hp, hread] at hscan
  exact hscan

theorem next?_due {g : Stage} {t : Token} {s' : Scanner}
    (hd : g.scanner.drain? .full = some (t, s')) :
    g.next? = some ⟨s', g.rest, g.position, ⟨t, g.position⟩ :: g.found⟩ := by
  have hcall : g.call = ⟨some t, s', .startAt g.rest g.position⟩ := by
    unfold call Scanner.scan
    rw [hd]
  rw [next?_of_token (congrArg Scan.token hcall), hcall]
  rfl

variable {g : Stage}

theorem next?_line (hb : '\\' ∉ g.rest) (hd : g.scanner.drain? .full = none)
    (hp : g.scanner.pending = 0) (hlf : '\n' ∈ g.blanks) {t : Token} {s' : Scanner}
    (hs : g.scanner.startLine (Margin.ofRun g.blanks).width .full = (some t, s')) :
    g.next? = some ⟨s', g.behind, g.position + byteLength g.blanks,
      ⟨t, g.position + byteLength g.blanks⟩ :: g.found⟩ := by
  have hcall := call_eq hb hd hp
  rw [Scanner.place, if_pos ((Margin.newLine_ofRun _).2 hlf), hs] at hcall
  rw [next?_of_token (congrArg Scan.token hcall), hcall]
  rfl

theorem next?_end (hb : '\\' ∉ g.rest) (hd : g.scanner.drain? .full = none)
    (hp : g.scanner.pending = 0) (hlf : '\n' ∉ g.blanks) (hbe : g.behind = []) {w : UInt16}
    {levels : List UInt16} (hl : g.scanner.levels = w :: levels) :
    g.next? = some ⟨{ g.scanner with levels }, [], g.position + byteLength g.blanks,
      ⟨.dedent, g.position + byteLength g.blanks⟩ :: g.found⟩ := by
  have hcall := call_eq hb hd hp
  rw [Scanner.place, if_neg (fun h => hlf ((Margin.newLine_ofRun _).1 h)), hbe, List.isEmpty_nil,
    if_pos rfl, Scanner.finish, hl] at hcall
  simp only [TokenSet.mem_full, if_true] at hcall
  rw [next?_of_token (congrArg Scan.token hcall), hcall]
  rfl

theorem call_inline (hb : '\\' ∉ g.rest) (hd : g.scanner.drain? .full = none)
    (hp : g.scanner.pending = 0) (hlf : '\n' ∉ g.blanks)
    (hin : g.behind = [] → g.scanner.levels = []) :
    g.call.token = none ∧ g.call.scanner = g.scanner := by
  have hplace : g.scanner.place (.ofRun g.blanks) g.behind.isEmpty .full = (none, g.scanner) := by
    rw [Scanner.place, if_neg (fun h => hlf ((Margin.newLine_ofRun _).1 h))]
    cases hbe : g.behind with
    | nil => rw [List.isEmpty_nil, if_pos rfl, Scanner.finish, hin hbe]
    | cons d behind => rfl
  rw [call_eq hb hd hp, hplace]
  exact ⟨rfl, rfl⟩

theorem ne_lineFeed {c : Char} {rest : List Char} (hlf : '\n' ∉ g.blanks)
    (hr : g.rest = c :: rest) : c ≠ '\n' := by
  rintro rfl
  unfold blanks at hlf
  rw [hr, List.takeWhile_cons, if_pos (isBlank_iff.2 (.inl rfl))] at hlf
  exact hlf List.mem_cons_self

theorem expected_eq (hp : g.scanner.pending = 0) :
    g.expected = g.found.reverse ++
      outlineFrom g.scanner.stack g.position (g.blanks ++ g.behind) := by
  rw [blanks_append_behind, expected, Scanner.dues, if_pos hp, List.append_nil]

theorem not_mem_behind (hb : '\\' ∉ g.rest) : '\\' ∉ g.behind :=
  fun h => hb ((List.dropWhile_suffix _).subset h)

/-- No turn changes what is to be expected. -/
theorem expected_next? {g' : Stage} (hn : g.scanner.Nested) (hb : '\\' ∉ g.rest)
    (h : g.next? = some g') : g'.expected = g.expected ∧ '\\' ∉ g'.rest := by
  cases hd : g.scanner.drain? .full with
  | some found =>
    obtain ⟨t, s'⟩ := found
    obtain ⟨hdues, hstack⟩ := Scanner.dues_of_drain? hd g.position
    obtain rfl := Option.some.inj ((next?_due hd).symm.trans h)
    refine ⟨?_, hb⟩
    simp [expected, hdues, hstack]
  | none =>
    have hp := Scanner.pending_eq_zero hd
    rw [expected_eq hp]
    by_cases hlf : '\n' ∈ g.blanks
    · obtain ⟨t, s', hs, hline⟩ := Scanner.outlineLine_startLine hn hp
        (Margin.ofRun g.blanks).width (g.position + byteLength g.blanks)
      obtain rfl := Option.some.inj ((next?_line hb hd hp hlf hs).symm.trans h)
      rw [Margin.width_ofRun isBlank_of_mem_blanks] at hline
      rw [outlineFrom_line isBlank_of_mem_blanks isBlank_head_behind hlf, hline]
      refine ⟨?_, not_mem_behind hb⟩
      simp [expected]
    -- no line ends here: there is no token, or the text ends inside a block
    · by_cases hin : g.behind = [] → g.scanner.levels = []
      · obtain ⟨htok, hscan⟩ := call_inline hb hd hp hlf hin
        rcases next?_cases h with ⟨token, ht, -⟩ | ⟨c, rest, -, hr, rfl⟩
        · rw [htok] at ht
          cases ht
        · rw [blanks_append_behind, hr, outlineFrom_cons (ne_lineFeed hlf hr)]
          rw [hr] at hb
          refine ⟨?_, fun h => hb (List.mem_cons_of_mem _ h)⟩
          simp [expected, Scanner.dues, hscan, hp]
      · rw [Classical.not_imp] at hin
        obtain ⟨hbe, hne⟩ := hin
        obtain ⟨w, levels, hl⟩ := List.exists_cons_of_ne_nil hne
        obtain rfl := Option.some.inj ((next?_end hb hd hp hlf hbe hl).symm.trans h)
        rw [outlineFrom_append hlf, hbe, outlineFrom_nil, Scanner.length_stack, Scanner.depth, hl]
        refine ⟨?_, List.not_mem_nil⟩
        simp [expected, Scanner.dues, hp, outlineFrom_nil, Scanner.length_stack, Scanner.depth,
          List.replicate_succ]

end Stage

/-- A text without backslashes is scanned to its outline. -/
theorem scanAll_eq_outline (text : String) (h : '\\' ∉ text.toList) :
    scanAll text = outline text := by
  obtain ⟨last, ⟨-, -, hexp⟩, hend, hrun⟩ := Stage.exists_last
    (P := fun g => g.scanner.Nested ∧ '\\' ∉ g.rest ∧ g.expected = outline text)
    (fun g g' hg ⟨hn, hb, he⟩ => by
      obtain ⟨he', hb'⟩ := Stage.expected_next? hn hb hg
      exact ⟨Stage.nested_next? hn hg, hb', he'.trans he⟩)
    (Stage.start text) ⟨Scanner.nested_initial, h, rfl⟩
  obtain ⟨hl, hp, -⟩ := Stage.scanner_of_next?_none hend
  have hr := (Stage.next?_eq_none_iff.1 hend).2
  rw [scanAll, ← Stage.run_start, hrun, ← hexp]
  simp [Stage.result, Stage.expected, Scanner.dues, hp, hr, outlineFrom_nil, Scanner.length_stack,
    Scanner.depth, hl]

theorem scanAll_closing_two_blocks :
    '\\' ∉ "é\n\tb\r\n      c \n\n  d\n".toList ∧
      scanAll "é\n\tb\r\n      c \n\n  d\n" =
        [⟨.indent, 4⟩, ⟨.indent, 13⟩, ⟨.dedent, 19⟩, ⟨.dedent, 19⟩, ⟨.newline, 19⟩, ⟨.newline, 21⟩] :=
  ⟨by decide, (scanAll_eq_outline _ (by decide)).trans (by decide)⟩

end GrammarLoader.Layout
