import GrammarLoader.Proofs.Layout.Lines
import GrammarLoader.Proofs.Layout.Turns

/-! A line break behind a backslash. One call of the scanner skips both and finds no token there. The
scan of a whole text does not skip what such a call has read: it steps over the backslash alone, and
its next call begins at the line break. So behind a character of the text an escaped line break is
a line break like any other, and the line behind it closes all blocks. -/

namespace GrammarLoader.Layout

open StateTransition (Reaches)

def kinds (text : String) : List Token := (scanAll text).map (·.token)

def lineBreaks : List String := ["\n", "\r\n"]

/-- The text `u` ends, and the text `v` begins, with a solid character. -/
structure Joint (u v : String) : Prop where
  last : ∃ c ∈ u.toList.getLast?, Solid c
  first : ∃ c ∈ v.toList.head?, Solid c

/-- The tokens of a line that closes so many blocks. -/
def closing (blocks offset : Nat) : List ScannedToken :=
  List.replicate blocks ⟨.dedent, offset⟩ ++ [⟨.newline, offset⟩]

theorem offset_closing {blocks offset : Nat} : ∀ t ∈ closing blocks offset, t.offset = offset := by
  intro t ht
  rcases List.mem_append.1 ht with ht | ht
  · rw [List.eq_of_mem_replicate ht]
  · rw [List.mem_singleton.1 ht]

theorem tokensAt_closing (blocks offset : Nat) :
    tokensAt (closing blocks offset) offset = List.replicate blocks .dedent ++ [.newline] := by
  rw [tokensAt, List.filter_eq_self.2 fun t ht => decide_eq_true (offset_closing t ht)]
  simp [closing]

namespace Scanner

theorem Nested.outlineLine_zero {s : Scanner} (hn : s.Nested) (offset : Nat) :
    outlineLine s.stack 0 offset = (closing s.depth offset, [0]) := by
  have hpos : ∀ w ∈ s.levels.map UInt16.toNat, 0 < w := by
    intro w hw
    obtain ⟨v, hv, rfl⟩ := List.mem_map.1 hw
    exact UInt16.lt_iff_toNat_lt.1 ((List.pairwise_append.1 hn).2.2 v hv 0 List.mem_cons_self)
  have hkept : s.stack.dropWhile (0 < ·) = [0] := by
    unfold stack
    rw [List.dropWhile_append_of_pos fun w hw => decide_eq_true (hpos w hw)]
    rfl
  cases hl : s.levels with
  | nil => simp [outlineLine, stack, depth, hl, closing]
  | cons w levels =>
    have hlen : s.stack.length - 1 = s.depth := by rw [length_stack, Nat.add_sub_cancel]
    have hne : 0 ≠ s.stack.headD 0 := by
      rw [hl] at hpos
      simp only [stack, hl]
      exact Nat.ne_of_lt (hpos _ List.mem_cons_self)
    rw [outlineLine, if_neg (Nat.not_lt_zero _), if_neg hne, hkept]
    exact congrArg (fun n => (closing n offset, _)) hlen

end Scanner

namespace Stage

variable {s : Scanner} {position : Nat} {brk : String} {c : Char} {rest : List Char}

theorem readBlanks_lineBreak (hbrk : brk ∈ lineBreaks) (hc : Solid c) :
    readBlanks .start position (brk.toList ++ c :: rest) =
      ⟨some ⟨true, 0⟩, position + byteLength brk.toList, c :: rest⟩ := by
  rcases List.mem_pair.1 hbrk with rfl | rfl
  · exact readBlanks_solid hc _ _ _
  · exact readBlanks_solid hc _ _ _

theorem readBlanks_escaped (hbrk : brk ∈ lineBreaks) (hc : Solid c) :
    readBlanks .start position ('\\' :: brk.toList ++ c :: rest) =
      ⟨some .start, position + 1 + byteLength brk.toList, c :: rest⟩ := by
  rcases List.mem_pair.1 hbrk with rfl | rfl
  · exact readBlanks_solid hc _ _ _
  · exact readBlanks_solid hc _ _ _

variable {found : List ScannedToken}

/-- The scan steps over a backslash and begins again at the line break behind it. -/
theorem next?_escaped (hp : s.pending = 0) (hbrk : brk ∈ lineBreaks) (hc : Solid c) :
    next? ⟨s, '\\' :: brk.toList ++ c :: rest, position, found⟩ =
      some ⟨s, brk.toList ++ c :: rest, position + 1, found⟩ :=
  next?_inline hp (readBlanks_escaped hbrk hc) rfl found

theorem exists_reaches_lineBreak (hp : s.pending = 0) (hn : s.Nested) (hbrk : brk ∈ lineBreaks)
    (hc : Solid c) (position : Nat) (rest : List Char) (found : List ScannedToken) :
    ∃ s', Reaches next? ⟨s, brk.toList ++ c :: rest, position, found⟩
      ⟨s', rest, position + byteLength brk.toList + c.utf8Size,
        (closing s.depth (position + byteLength brk.toList)).reverse ++ found⟩ := by
  obtain ⟨s', hp', -, hreach⟩ := exists_reaches_line hp hn (readBlanks_lineBreak hbrk hc) rfl found
  refine ⟨s', hreach.tail ?_⟩
  have hline := hn.outlineLine_zero (position + byteLength brk.toList)
  rw [show (⟨true, 0⟩ : Margin).width.toNat = 0 from rfl, hline]
  exact next?_solid hp' hc _

end Stage

/-- The blocks that are open behind the tokens up to an offset. -/
def openBefore (ts : List ScannedToken) (offset : Nat) : Nat :=
  indents (ts.filter (·.offset < offset)) - dedents (ts.filter (·.offset < offset))

section
variable {u v brk : String}

theorem Joint.exists_behind (h : Joint u v) :
    ∃ s found c rest, Stage.Behind u.toList s found ∧ Solid c ∧ v.toList = c :: rest := by
  obtain ⟨s, found, hbehind⟩ := Stage.exists_behind h.last
  obtain ⟨c, hfirst, hc⟩ := h.first
  obtain ⟨rest, hv⟩ := List.head?_eq_some_iff.1 hfirst
  exact ⟨s, found, c, rest, hbehind, hc, hv⟩

theorem kinds_escaped (h : Joint u v) (hbrk : brk ∈ lineBreaks) :
    kinds (u ++ "\\" ++ brk ++ v) = kinds (u ++ brk ++ v) := by
  obtain ⟨s, found, c, rest, hbehind, hc, hv⟩ := h.exists_behind
  have hescaped : (u ++ "\\" ++ brk ++ v).toList =
      u.toList ++ ('\\' :: brk.toList ++ c :: rest) := by simp [hv]
  have hplain : (u ++ brk ++ v).toList = u.toList ++ (brk.toList ++ c :: rest) := by simp [hv]
  rw [kinds, kinds, hbehind.scanAll hescaped, hbehind.scanAll hplain,
    Stage.run_of_next? (Stage.next?_escaped hbehind.settled hbrk hc), Stage.kinds_run,
    ← Stage.kinds_run]

theorem byteLength_escaped (u brk : String) :
    byteLength (u ++ "\\" ++ brk).toList = byteLength u.toList + 1 + byteLength brk.toList := by
  rw [String.toList_append, String.toList_append, byteLength_append, byteLength_append]
  rfl

/-- What stands before the tokens of an escaped line break, and what behind. -/
theorem exists_scanAll_escaped (h : Joint u v) (hbrk : brk ∈ lineBreaks) :
    ∃ before later blocks, dedents before + blocks = indents before ∧
      (∀ t ∈ before, t.offset < byteLength u.toList) ∧
      (∀ t ∈ later, byteLength (u ++ "\\" ++ brk).toList < t.offset) ∧
      scanAll (u ++ "\\" ++ brk ++ v) =
        before ++ closing blocks (byteLength (u ++ "\\" ++ brk).toList) ++ later := by
  obtain ⟨s, found, c, rest, hbehind, hc, hv⟩ := h.exists_behind
  have hescaped : (u ++ "\\" ++ brk ++ v).toList =
      u.toList ++ ('\\' :: brk.toList ++ c :: rest) := by simp [hv]
  obtain ⟨s', hreach⟩ := Stage.exists_reaches_lineBreak hbehind.settled hbehind.nested hbrk hc
    (byteLength u.toList + 1) rest found
  rw [← byteLength_escaped] at hreach
  obtain ⟨later, htokens, hlater⟩ := Stage.exists_tokens_run ⟨s', rest, _, _⟩
  refine ⟨found.reverse, later, s.depth, ?_, fun t ht => hbehind.offset_lt t (List.mem_reverse.1 ht),
    fun t ht => ?_, ?_⟩
  · unfold dedents indents
    rw [List.countP_reverse, List.countP_reverse]
    exact hbehind.balance
  · exact Nat.lt_of_lt_of_le (Nat.lt_add_of_pos_right c.utf8Size_pos) (hlater t ht)
  · rw [hbehind.scanAll hescaped,
      Stage.run_of_next? (Stage.next?_escaped hbehind.settled hbrk hc),
      Stage.run_of_reaches hreach, htokens, List.reverse_append, List.reverse_reverse]

theorem tokensAt_escaped (h : Joint u v) (hbrk : brk ∈ lineBreaks) :
    tokensAt (scanAll (u ++ "\\" ++ brk ++ v)) (byteLength (u ++ "\\" ++ brk).toList) =
      List.replicate
        (openBefore (scanAll (u ++ "\\" ++ brk ++ v)) (byteLength u.toList)) .dedent ++
          [.newline] := by
  obtain ⟨before, later, blocks, hbalance, hbefore, hlater, hscan⟩ :=
    exists_scanAll_escaped h hbrk
  have hle : byteLength u.toList ≤ byteLength (u ++ "\\" ++ brk).toList := by
    rw [byteLength_escaped]
    omega
  have hfilter : (scanAll (u ++ "\\" ++ brk ++ v)).filter (·.offset < byteLength u.toList) =
      before := by
    rw [hscan, List.filter_append, List.filter_append, List.filter_eq_self.2 (by simpa using hbefore),
      List.filter_eq_nil_iff.2 fun t ht => ?_, List.filter_eq_nil_iff.2 fun t ht => ?_,
      List.append_nil, List.append_nil]
    · have := hlater t ht
      simp only [decide_eq_true_eq]
      omega
    · rw [offset_closing t ht, decide_eq_true_eq]
      exact Nat.not_lt.2 hle
  have hopen : openBefore (scanAll (u ++ "\\" ++ brk ++ v)) (byteLength u.toList) = blocks := by
    rw [openBefore, hfilter]
    omega
  have hnone : tokensAt before (byteLength (u ++ "\\" ++ brk).toList) = [] :=
    tokensAt_eq_nil fun t ht => Nat.ne_of_lt ((hbefore t ht).trans_le hle)
  have hnone' : tokensAt later (byteLength (u ++ "\\" ++ brk).toList) = [] :=
    tokensAt_eq_nil fun t ht => Nat.ne_of_gt (hlater t ht)
  rw [hopen, hscan, tokensAt_append, tokensAt_append, tokensAt_closing, hnone, hnone',
    List.nil_append, List.append_nil]

theorem tokensAt_space (h : Joint u v) :
    tokensAt (scanAll (u ++ " " ++ v)) (byteLength (u ++ " ").toList) = [] := by
  obtain ⟨s, found, c, rest, hbehind, hc, hv⟩ := h.exists_behind
  have hspaced : (u ++ " " ++ v).toList = u.toList ++ ' ' :: c :: rest := by simp [hv]
  have hread : readBlanks .start (byteLength u.toList) (' ' :: c :: rest) =
      ⟨some (Margin.start.widen 1), byteLength u.toList + 1, c :: rest⟩ :=
    readBlanks_solid hc _ _ rest
  have hlen : byteLength (u ++ " ").toList = byteLength u.toList + 1 := by
    rw [String.toList_append, byteLength_append]
    rfl
  obtain ⟨later, htokens, hlater⟩ := Stage.exists_tokens_run ⟨s, rest, _, found⟩
  rw [hbehind.scanAll hspaced, Stage.run_of_next? (Stage.next?_inline hbehind.settled hread rfl found),
    Stage.run_of_next? (Stage.next?_solid hbehind.settled hc found), htokens, tokensAt_append,
    tokensAt_eq_nil fun t ht => ?_, tokensAt_eq_nil fun t ht => ?_]
  · rfl
  · have hle := hlater t ht
    have hpos := c.utf8Size_pos
    have hspace : ' '.utf8Size = 1 := rfl
    dsimp only at hle
    omega
  · have := hbehind.offset_lt t (List.mem_reverse.1 ht)
    omega

/-- An escaped line break is scanned like any other: the line behind it closes all blocks that are
open, and there is a newline in front of it. Behind a space there is no token in its place. -/
theorem scanAll_escaped (h : Joint u v) (hbrk : brk ∈ lineBreaks) :
    kinds (u ++ "\\" ++ brk ++ v) = kinds (u ++ brk ++ v) ∧
      tokensAt (scanAll (u ++ "\\" ++ brk ++ v)) (byteLength (u ++ "\\" ++ brk).toList) =
        List.replicate
          (openBefore (scanAll (u ++ "\\" ++ brk ++ v)) (byteLength u.toList)) .dedent ++
            [.newline] ∧
      tokensAt (scanAll (u ++ " " ++ v)) (byteLength (u ++ " ").toList) = [] :=
  ⟨kinds_escaped h hbrk, tokensAt_escaped h hbrk, tokensAt_space h⟩

end

/-- A backslash does not join two lines. -/
theorem not_kinds_joined :
    ¬∀ u v brk, Joint u v → brk ∈ lineBreaks →
      kinds (u ++ "\\" ++ brk ++ v) = kinds (u ++ " " ++ v) := by
  intro h
  have hjoint : Joint "a" "b" := ⟨⟨'a', rfl, by decide⟩, ⟨'b', rfl, by decide⟩⟩
  have hbrk : "\n" ∈ lineBreaks := List.mem_cons_self
  have hjoined := h "a" "b" "\n" hjoint hbrk
  rw [kinds_escaped hjoint hbrk, kinds, kinds, scanAll_eq_outlineFrom (by decide),
    scanAll_eq_outlineFrom (by decide)] at hjoined
  exact absurd hjoined (by decide)

theorem scanAll_escaped_in_block :
    Joint "a\n  é" "c" ∧ "\r\n" ∈ lineBreaks ∧
      kinds "a\n  é\\\r\nc" = kinds "a\n  é\r\nc" ∧
      tokensAt (scanAll "a\n  é\\\r\nc") 9 = [.dedent, .newline] ∧
      tokensAt (scanAll "a\n  é c") 7 = [] := by
  have hjoint : Joint "a\n  é" "c" := ⟨⟨'é', rfl, by decide⟩, ⟨'c', rfl, by decide⟩⟩
  have hbrk : "\r\n" ∈ lineBreaks := List.mem_cons_of_mem _ List.mem_cons_self
  have hopen : openBefore (scanAll ("a\n  é" ++ "\\" ++ "\r\n" ++ "c"))
      (byteLength "a\n  é".toList) = 1 := by
    rw [Stage.scanAll_of_runWithin (r := ⟨[⟨.indent, 4⟩, ⟨.dedent, 9⟩, ⟨.newline, 9⟩], .initial⟩)
      (by decide)]
    decide
  obtain ⟨hkinds, htokens, hspace⟩ := scanAll_escaped hjoint hbrk
  rw [hopen] at htokens
  exact ⟨hjoint, hbrk, hkinds, htokens, hspace⟩

end GrammarLoader.Layout
