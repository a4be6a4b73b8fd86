import GrammarLoader.Proofs.Layout.ScanOutline

/-! The layout tokens of a text without backslashes, line by line. In front of a line that is not blank
they say how its width compares with the open blocks that the lines before it have left. A line that
is as wide as the one before it goes on with that one's block, unless that one has closed blocks
down to a width that was never opened. -/

namespace GrammarLoader.Layout

theorem Stage.tokens_run {g : Stage} (hn : g.scanner.Nested) (hb : '\\' ∉ g.rest) :
    g.run.tokens = g.expected := by
  obtain ⟨last, ⟨-, -, hexp⟩, hend, hrun⟩ := Stage.exists_last
    (P := fun h => h.scanner.Nested ∧ '\\' ∉ h.rest ∧ h.expected = g.expected)
    (fun h h' hnext ⟨hn, hb, he⟩ => by
      obtain ⟨he', hb'⟩ := Stage.expected_next? hn hb hnext
      exact ⟨Stage.nested_next? hn hnext, hb', he'.trans he⟩)
    g ⟨hn, hb, rfl⟩
  obtain ⟨hl, hp, -⟩ := Stage.scanner_of_next?_none hend
  have hr := (Stage.next?_eq_none_iff.1 hend).2
  rw [hrun, ← hexp]
  simp [Stage.result, Stage.expected, Scanner.dues, hp, hr, outlineFrom_nil, Scanner.length_stack,
    Scanner.depth, hl]

theorem scanAll_eq_outlineFrom {text : String} (h : '\\' ∉ text.toList) :
    scanAll text = outlineFrom [0] 0 text.toList := by
  rw [scanAll, ← Stage.run_start]
  exact Stage.tokens_run Scanner.nested_initial h

def lines (text : String) : List (List Char) := text.toList.splitOn '\n'

def isBlankLine (line : List Char) : Bool := line.all isBlank

/-- The blanks in front of a line, and the line behind them. -/
def lead (line : List Char) : List Char := line.takeWhile isBlank

def body (line : List Char) : List Char := line.dropWhile isBlank

def lineWidth (line : List Char) : Nat := runWidth (lead line)

example : lineWidth "  \x0c\tx".toList = 4 := by decide

/-- The widths of the open blocks, the innermost first, behind a line of width `w`. -/
def enter (stack : List Nat) (w : Nat) : List Nat :=
  if stack.headD 0 < w then w :: stack else stack.dropWhile (w < ·)

def enterLine (stack : List Nat) (line : List Char) : List Nat :=
  if isBlankLine line then stack else enter stack (lineWidth line)

/-- The widths of the open blocks behind the first lines of a text, down to that of the text itself.
The first line opens no block. -/
def openWidths (before : List (List Char)) : List Nat := before.tail.foldl enterLine [0]

/-- The byte offset of the line behind some lines. -/
def lineStart (before : List (List Char)) : Nat := (before.map (byteLength · + 1)).sum

def tokensAt (ts : List ScannedToken) (offset : Nat) : List Token :=
  (ts.filter (·.offset = offset)).map (·.token)

def unlines (ls : List (List Char)) : List Char := ls.flatMap ('\n' :: ·)

theorem intercalate_eq_append_unlines (line : List Char) (ls : List (List Char)) :
    ['\n'].intercalate (line :: ls) = line ++ unlines ls := by
  induction ls generalizing line with
  | nil => simp [unlines]
  | cons next ls ih => simp [List.intercalate_cons_cons, ih, unlines]

theorem lineFeed_not_mem {line : List Char} {text : List Char} (h : line ∈ text.splitOn '\n') :
    '\n' ∉ line := by
  induction text generalizing line with
  | nil =>
    obtain rfl : line = [] := by simpa using h
    exact List.not_mem_nil
  | cons c text ih =>
    rw [List.splitOn_cons_eq_if_modifyHead] at h
    split at h
    · rcases List.mem_cons.1 h with rfl | h
      · exact List.not_mem_nil
      · exact ih h
    · next hc =>
      cases hs : text.splitOn '\n' with
      | nil => exact absurd hs (List.splitOn_ne_nil _ _)
      | cons first more =>
        rw [hs, List.modifyHead_cons] at h
        rcases List.mem_cons.1 h with rfl | h
        · have hfirst := ih (hs ▸ List.mem_cons_self)
          rw [List.mem_cons, not_or]
          exact ⟨fun heq => hc (beq_of_eq heq.symm), hfirst⟩
        · exact ih (hs ▸ List.mem_cons_of_mem _ h)

theorem lead_append_body (line : List Char) : lead line ++ body line = line :=
  List.takeWhile_append_dropWhile

theorem isBlank_of_mem_lead {line : List Char} : ∀ c ∈ lead line, isBlank c = true :=
  fun _ h => List.mem_takeWhile_imp h

theorem body_ne_nil {line : List Char} (h : isBlankLine line = false) : body line ≠ [] := by
  intro hnil
  unfold isBlankLine at h
  rw [← lead_append_body line, hnil, List.append_nil, List.all_eq_false] at h
  obtain ⟨c, hc, hne⟩ := h
  exact hne (isBlank_of_mem_lead c hc)

theorem isBlank_head_body {line : List Char} (more : List Char) (h : body line ≠ []) :
    ∀ c ∈ (body line ++ more).head?, isBlank c = false := by
  intro c hc
  have hnot := List.head?_dropWhile_not isBlank line
  obtain ⟨d, rest, hd⟩ := List.exists_cons_of_ne_nil h
  unfold body at hd hc
  rw [hd] at hnot hc
  obtain rfl : d = c := by simpa using hc
  simpa using hnot

theorem runWidth_lineFeed (run : List Char) : runWidth ('\n' :: run) = runWidth run := by
  have htake : ('\n' :: run).rtakeWhile (!returns ·) = run.rtakeWhile (!returns ·) := by
    unfold List.rtakeWhile
    rw [List.reverse_cons, List.takeWhile_append]
    split
    · next hlen =>
      have hall := (List.takeWhile_prefix (l := run.reverse) (!returns ·)).eq_of_length hlen
      rw [hall]
      simp [returns]
    · rfl
  unfold runWidth
  rw [htake]

theorem runWidth_append (blanks : List Char) {run : List Char} (hlf : '\n' ∈ run) :
    runWidth (blanks ++ run) = runWidth run := by
  induction blanks with
  | nil => rfl
  | cons c blanks ih =>
    rw [List.cons_append, runWidth_cons c (List.mem_append_right _ hlf), ih]

theorem outlineFrom_blanks {blanks : List Char} (hblank : ∀ c ∈ blanks, isBlank c = true)
    (stack : List Nat) (offset : Nat) (rest : List Char) :
    outlineFrom stack offset (blanks ++ '\n' :: rest) =
      outlineFrom stack (offset + byteLength blanks) ('\n' :: rest) := by
  have hsplit := List.takeWhile_append_dropWhile (p := isBlank) (l := '\n' :: rest)
  have hrun : ∀ c ∈ ('\n' :: rest).takeWhile isBlank, isBlank c = true :=
    fun _ h => List.mem_takeWhile_imp h
  have hlf : '\n' ∈ ('\n' :: rest).takeWhile isBlank := by
    rw [List.takeWhile_cons, if_pos (isBlank_iff.2 (.inl rfl))]
    exact List.mem_cons_self
  have hbehind : ∀ c ∈ (('\n' :: rest).dropWhile isBlank).head?, isBlank c = false := by
    intro c hc
    have := List.head?_dropWhile_not isBlank ('\n' :: rest)
    rw [Option.mem_def.1 hc] at this
    simpa using this
  rw [← hsplit, ← List.append_assoc, outlineFrom_line hrun hbehind hlf,
    outlineFrom_line (List.forall_mem_append.2 ⟨hblank, hrun⟩) hbehind
      (List.mem_append_right _ hlf), runWidth_append _ hlf, byteLength_append, Nat.add_assoc]

theorem snd_outlineLine (stack : List Nat) (w offset : Nat) :
    (outlineLine stack w offset).2 = enter stack w := by
  unfold outlineLine enter
  split
  · rfl
  · split
    · next heq =>
      cases stack with
      | nil => rfl
      | cons top stack =>
        have htop : ¬ w < top := Nat.not_lt.2 (Nat.le_of_eq heq.symm)
        simp [htop]
    · rfl

theorem outlineFrom_nonblank {line : List Char} (hline : '\n' ∉ line)
    (h : isBlankLine line = false) (stack : List Nat) (offset : Nat) (more : List Char) :
    outlineFrom stack offset ('\n' :: line ++ more) =
      (outlineLine stack (lineWidth line) (offset + 1 + byteLength (lead line))).1 ++
        outlineFrom (enter stack (lineWidth line)) (offset + 1 + byteLength line) more := by
  have hrun : ∀ c ∈ '\n' :: lead line, isBlank c = true :=
    List.forall_mem_cons.2 ⟨rfl, isBlank_of_mem_lead⟩
  have hbody : '\n' ∉ body line := fun hmem => hline ((List.dropWhile_suffix _).subset hmem)
  have hlen : byteLength line = byteLength (lead line) + byteLength (body line) := by
    rw [← byteLength_append, lead_append_body]
  have hoffset : offset + byteLength ('\n' :: lead line) =
      offset + 1 + byteLength (lead line) := by
    rw [byteLength_cons, ← Nat.add_assoc]
    rfl
  have hsplit : '\n' :: line ++ more = ('\n' :: lead line) ++ (body line ++ more) := by
    rw [← List.append_assoc]
    exact congrArg ('\n' :: · ++ more) (lead_append_body line).symm
  rw [hsplit, outlineFrom_line hrun (isBlank_head_body more (body_ne_nil h)) List.mem_cons_self,
    runWidth_lineFeed, outlineFrom_append hbody, snd_outlineLine, hoffset, hlen, ← Nat.add_assoc]
  rfl

theorem offset_outlineLine {stack : List Nat} {w offset : Nat} :
    ∀ t ∈ (outlineLine stack w offset).1, t.offset = offset := by
  unfold outlineLine
  split
  · simp
  · split
    · simp
    · intro t ht
      rcases List.mem_append.1 ht with ht | ht
      · rw [List.eq_of_mem_replicate ht]
      · rw [List.mem_singleton.1 ht]

theorem le_offset_outlineRuns {stack : List Nat} {offset : Nat} {rs : List (List Char)} :
    ∀ t ∈ outlineRuns stack offset rs, offset ≤ t.offset := by
  induction rs generalizing stack offset with
  | nil =>
    intro t ht
    rw [List.eq_of_mem_replicate ht]
  | cons run rs ih =>
    intro t ht
    rw [outlineRuns] at ht
    have hle : offset ≤ offset + byteLength run := Nat.le_add_right _ _
    split at ht
    · rcases List.mem_append.1 ht with ht | ht
      · rw [offset_outlineLine t ht]
        exact hle
      · exact hle.trans (ih t ht)
    · exact hle.trans (ih t ht)

theorem unlines_cons (line : List Char) (ls : List (List Char)) :
    unlines (line :: ls) = '\n' :: line ++ unlines ls := rfl

/-- What comes before a line leaves its open blocks behind, and no token beyond its end. -/
theorem outlineFrom_unlines {ls more : List (List Char)} (hls : ∀ l ∈ ls, '\n' ∉ l)
    (hmore : more ≠ []) (stack : List Nat) (offset : Nat) :
    ∃ ts, (∀ t ∈ ts, t.offset ≤ offset + byteLength (unlines ls)) ∧
      outlineFrom stack offset (unlines (ls ++ more)) =
        ts ++ outlineFrom (ls.foldl enterLine stack) (offset + byteLength (unlines ls))
          (unlines more) := by
  induction ls generalizing stack offset with
  | nil => exact ⟨[], by simp, rfl⟩
  | cons line ls ih =>
    obtain ⟨hline, hls⟩ := List.forall_mem_cons.1 hls
    obtain ⟨ts, hts, heq⟩ := ih hls (enterLine stack line) (offset + 1 + byteLength line)
    have hoffset : offset + byteLength (unlines (line :: ls)) =
        offset + 1 + byteLength line + byteLength (unlines ls) := by
      rw [unlines_cons, byteLength_append, byteLength_cons]
      change offset + (1 + byteLength line + _) = _
      omega
    rw [hoffset, List.cons_append, unlines_cons, List.foldl_cons]
    -- a blank line is read with the next line feed; there is one, since `more` is not empty
    by_cases hblank : isBlankLine line = true
    · obtain ⟨rest, hrest⟩ : ∃ rest, unlines (ls ++ more) = '\n' :: rest := by
        cases hcat : ls ++ more with
        | nil => exact absurd (List.append_eq_nil_iff.1 hcat).2 hmore
        | cons next later => exact ⟨_, unlines_cons next later⟩
      have hblanks : ∀ c ∈ '\n' :: line, isBlank c = true :=
        List.forall_mem_cons.2 ⟨rfl, List.all_eq_true.1 hblank⟩
      have hskip := outlineFrom_blanks hblanks stack offset rest
      rw [← hrest, byteLength_cons, ← Nat.add_assoc] at hskip
      refine ⟨ts, hts, ?_⟩
      rw [hskip]
      rw [enterLine, if_pos hblank] at heq ⊢
      exact heq
    · have hblank : isBlankLine line = false := Bool.eq_false_iff.2 hblank
      have hlead : byteLength (lead line) ≤ byteLength line := by
        conv_rhs => rw [← lead_append_body line, byteLength_append]
        exact Nat.le_add_right _ _
      rw [enterLine, if_neg (by simp [hblank])] at heq ⊢
      refine ⟨(outlineLine stack (lineWidth line) (offset + 1 + byteLength (lead line))).1 ++ ts,
        fun t ht => ?_, ?_⟩
      · rcases List.mem_append.1 ht with ht | ht
        · rw [offset_outlineLine t ht]
          omega
        · exact hts t ht
      · rw [outlineFrom_nonblank hline hblank, heq, List.append_assoc]

theorem tokensAt_append (ts us : List ScannedToken) (offset : Nat) :
    tokensAt (ts ++ us) offset = tokensAt ts offset ++ tokensAt us offset := by
  simp [tokensAt]

theorem tokensAt_eq_nil {ts : List ScannedToken} {offset : Nat}
    (h : ∀ t ∈ ts, t.offset ≠ offset) : tokensAt ts offset = [] := by
  simpa [tokensAt] using h

theorem tokensAt_outlineLine (stack : List Nat) (w offset : Nat) :
    tokensAt (outlineLine stack w offset).1 offset =
      (outlineLine stack w offset).1.map (·.token) := by
  rw [tokensAt, List.filter_eq_self.2 fun t ht => decide_eq_true (offset_outlineLine t ht)]

theorem lineStart_cons (first : List Char) (ls : List (List Char)) :
    lineStart (first :: ls) = byteLength first + byteLength (unlines ls) + 1 := by
  induction ls generalizing first with
  | nil => rfl
  | cons next ls ih =>
    have hnext : lineStart (first :: next :: ls) = byteLength first + 1 + lineStart (next :: ls) :=
      rfl
    have hlf : '\n'.utf8Size = 1 := rfl
    rw [hnext, ih, unlines_cons, byteLength_append, byteLength_cons, hlf]
    omega

/-- The tokens in front of a line that is not blank compare its width with the blocks that the lines
before it have left open. -/
theorem tokensAt_line {text : String} (hb : '\\' ∉ text.toList) {before after : List (List Char)}
    {line : List Char} (hl : lines text = before ++ line :: after) (hbefore : before ≠ [])
    (hline : isBlankLine line = false) :
    tokensAt (scanAll text) (lineStart before + byteLength (lead line)) =
      (outlineLine (openWidths before) (lineWidth line)
        (lineStart before + byteLength (lead line))).1.map (·.token) := by
  obtain ⟨first, ls, rfl⟩ := List.exists_cons_of_ne_nil hbefore
  have hlf : ∀ l ∈ first :: ls ++ line :: after, '\n' ∉ l := fun l hmem =>
    lineFeed_not_mem (hl.symm ▸ hmem : l ∈ lines text)
  have hfirst := hlf first List.mem_cons_self
  have hls : ∀ l ∈ ls, '\n' ∉ l := fun l hmem =>
    hlf l (List.mem_append_left _ (List.mem_cons_of_mem _ hmem))
  have hnone := hlf line (List.mem_append_right _ List.mem_cons_self)
  have htext : text.toList = first ++ unlines (ls ++ line :: after) := by
    rw [← intercalate_eq_append_unlines, ← List.cons_append, ← hl, lines,
      List.intercalate_splitOn]
  obtain ⟨ts, hts, heq⟩ := @outlineFrom_unlines ls (line :: after) hls (List.cons_ne_nil _ _) [0]
    (0 + byteLength first)
  have hbody : 0 < byteLength (body line) := by
    obtain ⟨c, rest, hc⟩ := List.exists_cons_of_ne_nil (body_ne_nil hline)
    have hpos := c.utf8Size_pos
    rw [hc, byteLength_cons]
    omega
  have hlen : byteLength line = byteLength (lead line) + byteLength (body line) := by
    rw [← byteLength_append, lead_append_body]
  -- earlier tokens stand no later than the line feed before the line, later ones behind its end
  have hearlier : tokensAt ts (lineStart (first :: ls) + byteLength (lead line)) = [] := by
    refine tokensAt_eq_nil fun t ht => ?_
    have := hts t ht
    rw [lineStart_cons]
    omega
  have hlater (stack : List Nat) :
      tokensAt (outlineFrom stack
        (0 + byteLength first + byteLength (unlines ls) + 1 + byteLength line) (unlines after))
        (lineStart (first :: ls) + byteLength (lead line)) = [] := by
    refine tokensAt_eq_nil fun t ht => ?_
    have := le_offset_outlineRuns t ht
    rw [lineStart_cons]
    omega
  rw [scanAll_eq_outlineFrom hb, htext, outlineFrom_append hfirst, heq, unlines_cons,
    outlineFrom_nonblank hnone hline, tokensAt_append, tokensAt_append, hearlier, hlater,
    lineStart_cons, Nat.zero_add, tokensAt_outlineLine, List.nil_append, List.append_nil]
  rfl

/-- Open blocks: each is wider than the one around it, and the text itself has no width. -/
structure Stacked (stack : List Nat) : Prop where
  descending : stack.Pairwise (· > ·)
  base : 0 ∈ stack

namespace Stacked

variable {stack : List Nat} {w : Nat}

theorem le_headD (h : Stacked stack) : ∀ v ∈ stack, v ≤ stack.headD 0 := by
  intro v hv
  cases stack with
  | nil => cases hv
  | cons top stack =>
    rcases List.mem_cons.1 hv with rfl | hv
    · exact Nat.le_refl _
    · exact Nat.le_of_lt ((List.pairwise_cons.1 h.descending).1 v hv)

theorem enter (h : Stacked stack) (w : Nat) : Stacked (enter stack w) := by
  unfold Layout.enter
  split
  · next hlt =>
    exact ⟨List.pairwise_cons.2 ⟨fun v hv => Nat.lt_of_le_of_lt (h.le_headD v hv) hlt,
      h.descending⟩, List.mem_cons_of_mem w h.base⟩
  · refine ⟨h.descending.sublist (List.dropWhile_sublist _), ?_⟩
    have hbase := h.base
    rw [← List.takeWhile_append_dropWhile (p := (decide <| w < ·)) (l := stack)] at hbase
    rcases List.mem_append.1 hbase with hmem | hmem
    · exact absurd (List.mem_takeWhile_imp hmem) (by simp)
    · exact hmem

theorem openWidths (before : List (List Char)) : Stacked (openWidths before) := by
  unfold Layout.openWidths
  refine List.foldlRecOn before.tail enterLine (motive := Stacked)
    ⟨List.pairwise_singleton _ _, List.mem_cons_self⟩ fun stack h line _ => ?_
  unfold enterLine
  split
  · exact h
  · exact h.enter _

theorem headD_dropWhile (h : stack.Pairwise (· > ·)) (hw : w ∈ stack) :
    (stack.dropWhile (w < ·)).headD 0 = w := by
  induction stack with
  | nil => cases hw
  | cons top stack ih =>
    obtain ⟨htop, hstack⟩ := List.pairwise_cons.1 h
    rw [List.dropWhile_cons]
    rcases List.mem_cons.1 hw with rfl | hw
    · simp
    · rw [if_pos (decide_eq_true (htop w hw))]
      exact ih hstack hw

theorem headD_enter (h : Stacked stack) (hw : w < stack.headD 0 → w ∈ stack) :
    (Layout.enter stack w).headD 0 = w := by
  unfold Layout.enter
  split
  · rfl
  · next hle =>
    refine headD_dropWhile h.descending ?_
    rcases Nat.lt_or_eq_of_le (Nat.not_lt.1 hle) with hlt | rfl
    · exact hw hlt
    · cases stack with
      | nil => exact absurd h.base List.not_mem_nil
      | cons top stack => exact List.mem_cons_self

/-- Behind a line that closes blocks down to a width that is not open, the innermost one is
narrower. -/
theorem headD_enter_lt (h : Stacked stack) (hlt : w < stack.headD 0) (hw : w ∉ stack) :
    (Layout.enter stack w).headD 0 < w := by
  have hpos : 0 < w := Nat.pos_of_ne_zero fun h0 => hw (h0 ▸ h.base)
  rw [Layout.enter, if_neg (Nat.not_lt.2 (Nat.le_of_lt hlt))]
  cases hd : stack.dropWhile (w < ·) with
  | nil => exact hpos
  | cons top below =>
    have hnot := List.head?_dropWhile_not (decide <| w < ·) stack
    rw [hd] at hnot
    have hle : top ≤ w := by simpa using hnot
    have hmem : top ∈ stack := (List.dropWhile_suffix _).subset (hd ▸ List.mem_cons_self)
    exact Nat.lt_of_le_of_ne hle fun heq => hw (heq ▸ hmem)

end Stacked

theorem openWidths_blanks {before between : List (List Char)} {first : List Char}
    (hbefore : before ≠ []) (hfirst : isBlankLine first = false)
    (hbetween : ∀ line ∈ between, isBlankLine line = true) :
    openWidths (before ++ first :: between) = enter (openWidths before) (lineWidth first) := by
  have hskip : ∀ stack, between.foldl enterLine stack = stack := by
    induction between with
    | nil => exact fun _ => rfl
    | cons line between ih =>
      obtain ⟨hline, hrest⟩ := List.forall_mem_cons.1 hbetween
      intro stack
      rw [List.foldl_cons, enterLine, if_pos hline, ih hrest]
  rw [openWidths, List.tail_append_of_ne_nil hbefore, List.foldl_append, List.foldl_cons, hskip,
    enterLine, if_neg (by simp [hfirst])]
  rfl

/-- Two lines of one width, both behind the first line of a text, with nothing but blank lines
between them. -/
structure Siblings (text : String) (before : List (List Char)) (first : List Char)
    (between : List (List Char)) (second : List Char) : Prop where
  split : ∃ after, lines text = before ++ first :: between ++ second :: after
  behind_first : before ≠ []
  first_text : isBlankLine first = false
  second_text : isBlankLine second = false
  between_blank : ∀ line ∈ between, isBlankLine line = true
  width : lineWidth first = lineWidth second

/-- Of two siblings, the second has exactly one newline in front of it, unless the first has closed
blocks down to a width that no open block has. Then it has exactly one indent. -/
theorem tokensAt_sibling {text : String} (hb : '\\' ∉ text.toList)
    {before between : List (List Char)} {first second : List Char}
    (h : Siblings text before first between second) :
    tokensAt (scanAll text) (lineStart (before ++ first :: between) + byteLength (lead second)) =
      if lineWidth first < (openWidths before).headD 0 ∧ lineWidth first ∉ openWidths before
      then [.indent] else [.newline] := by
  obtain ⟨after, hl⟩ := h.split
  have hstack := Stacked.openWidths before
  rw [tokensAt_line hb hl (by simp) h.second_text,
    openWidths_blanks h.behind_first h.first_text h.between_blank, ← h.width, outlineLine]
  by_cases hclosed : lineWidth first < (openWidths before).headD 0 ∧
      lineWidth first ∉ openWidths before
  · rw [if_pos hclosed, if_pos (hstack.headD_enter_lt hclosed.1 hclosed.2)]
    rfl
  · have heq : (enter (openWidths before) (lineWidth first)).headD 0 = lineWidth first :=
      hstack.headD_enter fun hlt => Classical.not_not.1 fun hw => hclosed ⟨hlt, hw⟩
    rw [if_neg hclosed, if_neg (Nat.not_lt.2 (Nat.le_of_eq heq.symm)), if_pos heq.symm]
    rfl

/-- Three lines of one width: the first closes a block and opens none, so the second opens one, and
the third goes on with it. -/
def unopened : String := "a\n    b\n  c\n\n  d\n  é"

theorem siblings_unopened :
    Siblings unopened ["a".toList, "    b".toList] "  c".toList [[]] "  d".toList :=
  ⟨⟨["  é".toList], by decide⟩, by decide, by decide, by decide, by decide, by decide⟩

/-- The width of the blanks in front of a line, wherever among them columns begin. -/
def blanksWidth (line : List Char) : Nat :=
  min 65535 ((lead line).count ' ' + 4 * (lead line).count '\t')

/-- Two adjacent lines of one width may have no newline between them. -/
theorem not_tokensAt_newline :
    ¬∀ (text : String) (before after : List (List Char)) (first second : List Char),
      '\\' ∉ text.toList → lines text = before ++ first :: second :: after → before ≠ [] →
      isBlankLine first = false → isBlankLine second = false →
      blanksWidth first = blanksWidth second →
      tokensAt (scanAll text) (lineStart (before ++ [first]) + byteLength (lead second)) =
        [.newline] := by
  intro h
  have hnewline := h "a\n    b\n  c\n  d" ["a".toList, "    b".toList] [] "  c".toList "  d".toList
    (by decide) (by decide) (by decide) (by decide) (by decide) (by decide)
  rw [scanAll_eq_outlineFrom (by decide)] at hnewline
  exact absurd hnewline (by decide)

theorem tokensAt_unopened :
    '\\' ∉ unopened.toList ∧
      Siblings unopened ["a".toList, "    b".toList] "  c".toList [[]] "  d".toList ∧
      tokensAt (scanAll unopened) 15 = [.indent] ∧
      Siblings unopened ["a".toList, "    b".toList, "  c".toList, []] "  d".toList []
        "  é".toList ∧
      tokensAt (scanAll unopened) 19 = [.newline] := by
  have hb : '\\' ∉ unopened.toList := by decide
  have hnext : Siblings unopened ["a".toList, "    b".toList, "  c".toList, []] "  d".toList []
      "  é".toList :=
    ⟨⟨[], by decide⟩, by decide, by decide, by decide, by decide, by decide⟩
  exact ⟨hb, siblings_unopened, tokensAt_sibling hb siblings_unopened, hnext,
    tokensAt_sibling hb hnext⟩

end GrammarLoader.Layout
