import GrammarLoader.Proofs.Layout.Continuation
import GrammarLoader.Proofs.Layout.History

/-! What the text behind a place can change in front of it. The tokens up to a solid character are
settled before that character is read. And a line feed in front of a character of the first column
closes every block, so a text that ends there and the text behind it can be scanned one by one. -/

namespace GrammarLoader.Layout

open StateTransition (Reaches)

/-- The tokens up to an offset. -/
def upTo (ts : List ScannedToken) (offset : Nat) : List ScannedToken :=
  ts.filter (·.offset ≤ offset)

theorem upTo_append {ts us : List ScannedToken} {offset : Nat} (hts : ∀ t ∈ ts, t.offset ≤ offset)
    (hus : ∀ t ∈ us, offset < t.offset) : upTo (ts ++ us) offset = ts := by
  unfold upTo
  rw [List.filter_append, List.filter_eq_self.2 fun t ht => decide_eq_true (hts t ht),
    List.filter_eq_nil_iff.2 fun t ht => ?_, List.append_nil]
  rw [decide_eq_true_eq]
  exact Nat.not_le.2 (hus t ht)

/-- What stands up to a solid character is found whatever this character is and what follows. -/
theorem exists_scanAll_push (u : String) :
    ∃ earlier : List ScannedToken, (∀ t ∈ earlier, t.offset ≤ byteLength u.toList) ∧
      ∀ c v, Solid c → ∃ later, scanAll (u.push c ++ v) = earlier ++ later ∧
        ∀ t ∈ later, byteLength u.toList < t.offset := by
  obtain ⟨last, hr, hp, hreach⟩ := Stage.exists_reaches_extend (Stage.start u)
  -- any solid character will do to see where the scan stands behind `u`
  have hfollows := Stage.follows_of_reaches (hreach 'a' [] (by decide))
  have hposition : last.position = byteLength u.toList := by
    have := hfollows.extent
    simp only [Stage.extend, Stage.start, hr, byteLength_append, List.nil_append] at this
    omega
  obtain ⟨found, hfound, hoffset⟩ := hfollows.found
  obtain rfl : last.found = found := hfound.trans (List.append_nil found)
  refine ⟨last.found.reverse, fun t ht => ?_, fun c v hc => ?_⟩
  · rw [← hposition]
    exact (hoffset t (List.mem_reverse.1 ht)).2
  · have htext : (u.push c ++ v).toList = u.toList ++ c :: v.toList := by simp
    have hstart : Stage.start (u.push c ++ v) = (Stage.start u).extend (c :: v.toList) := by
      rw [Stage.start, htext]
      rfl
    have hlast : last.extend (c :: v.toList) =
        ⟨last.scanner, c :: v.toList, last.position, last.found⟩ := by
      rw [Stage.extend, hr]
      rfl
    obtain ⟨later, htokens, hlater⟩ :=
      Stage.exists_tokens_run ⟨last.scanner, v.toList, last.position + c.utf8Size, last.found⟩
    refine ⟨later, ?_, fun t ht => ?_⟩
    · rw [scanAll, ← Stage.run_start, hstart, Stage.run_of_reaches (hreach c v.toList hc), hlast,
        Stage.run_of_next? (Stage.next?_solid hp hc last.found), htokens]
    · have hpos := c.utf8Size_pos
      have hle := hlater t ht
      dsimp only at hle
      omega

/-- The tokens up to a solid character do not depend on the text behind it. -/
theorem scanAll_upTo {c d : Char} (hc : Solid c) (hd : Solid d) (u v w : String) :
    upTo (scanAll (u.push c ++ v)) (byteLength u.toList) =
      upTo (scanAll (u.push d ++ w)) (byteLength u.toList) := by
  obtain ⟨earlier, hearlier, hscan⟩ := exists_scanAll_push u
  obtain ⟨later, hv, hlater⟩ := hscan c v hc
  obtain ⟨later', hw, hlater'⟩ := hscan d w hd
  rw [hv, hw, upTo_append hearlier hlater, upTo_append hearlier hlater']

/-- Nothing is closed in front of a backslash that continues nothing, whatever the line goes on
with. -/
theorem scanAll_upTo_backslash :
    Solid 'x' ∧ Solid 'c' ∧ upTo (scanAll "a\n  é\n\\x\n  d") 8 = [⟨.indent, 4⟩] ∧
      scanAll "a\n  é\n\\c" = [⟨.indent, 4⟩, ⟨.dedent, 9⟩] := by
  have hx : Solid 'x' := by decide
  have hc : Solid 'c' := by decide
  have hshort : scanAll "a\n  é\n\\c" = [⟨.indent, 4⟩, ⟨.dedent, 9⟩] :=
    Stage.scanAll_of_runWithin (r := ⟨_, .initial⟩) (by decide)
  refine ⟨hx, hc, (scanAll_upTo hx hc "a\n  é\n\\" "\n  d" "").trans ?_, hshort⟩
  exact (congrArg (upTo · 8) hshort).trans (by decide)

/-- No backslash at the end, and none in front of a carriage return at the end: a line feed behind
such a line is not escaped. -/
def Unescaped (line : List Char) : Prop := ¬['\\'] <:+ line ∧ ¬['\\', '\r'] <:+ line

instance (line : List Char) : Decidable (Unescaped line) := inferInstanceAs (Decidable (_ ∧ _))

theorem Unescaped.of_suffix {line rest : List Char} (h : Unescaped line) (hs : rest <:+ line) :
    Unescaped rest :=
  ⟨fun hb => h.1 (hb.trans hs), fun hb => h.2 (hb.trans hs)⟩

/-- The end of a text, or a solid character in the first column. -/
def AtMargin (rest : List Char) : Prop := ∀ c ∈ rest.head?, Solid c

instance : (rest : List Char) → Decidable (AtMargin rest)
  | [] => isTrue fun _ h => nomatch h
  | c :: rest => decidable_of_iff (Solid c) (by simp [AtMargin])

theorem readBlanks_atMargin {rest : List Char} (h : AtMargin rest) (m : Margin) (position : Nat) :
    readBlanks m position rest = ⟨some m, position, rest⟩ := by
  cases rest with
  | nil => rfl
  | cons c rest => exact readBlanks_solid (h c rfl) m position rest

/-- The blanks at the front of a line end before its line feed. -/
def StopsIn (line : List Char) (m : Margin) (position : Nat) : Prop :=
  line ≠ [] ∧ ∃ margin after behind, behind <:+ line ∧ ∀ rest,
    readBlanks m position (line ++ '\n' :: rest) = ⟨margin, after, behind ++ '\n' :: rest⟩

/-- The blanks at the front of a line go on to its end, and behind its line feed as on a new line. -/
def RunsThrough (line : List Char) (m : Margin) (position : Nat) : Prop :=
  ∀ rest, readBlanks m position (line ++ '\n' :: rest) =
    readBlanks ⟨true, 0⟩ (position + byteLength line + 1) rest

theorem stopsIn_or_runsThrough_append (read : List Char) {line : List Char} {m m' : Margin}
    {position : Nat} (hread : read ≠ [])
    (hrun : ∀ rest, readBlanks m position (read ++ (line ++ '\n' :: rest)) =
      readBlanks m' (position + byteLength read) (line ++ '\n' :: rest))
    (ih : Unescaped line → StopsIn line m' (position + byteLength read) ∨
      RunsThrough line m' (position + byteLength read)) (h : Unescaped (read ++ line)) :
    StopsIn (read ++ line) m position ∨ RunsThrough (read ++ line) m position := by
  rcases ih (h.of_suffix (List.suffix_append read line)) with
    ⟨-, margin, after, behind, hs, hstop⟩ | hthrough
  · refine .inl ⟨fun hnil => hread (List.append_eq_nil_iff.1 hnil).1, margin, after, behind,
      hs.trans (List.suffix_append read line), fun rest => ?_⟩
    rw [List.append_assoc, hrun, hstop rest]
  · refine .inr fun rest => ?_
    rw [List.append_assoc, hrun, hthrough rest, byteLength_append, Nat.add_assoc position]

/-- Blanks go on through the line feed of a line unless a character that is no blank, or a backslash
that continues no line, stops them before. -/
theorem stopsIn_or_runsThrough {line : List Char} (h : Unescaped line) (m : Margin)
    (position : Nat) : StopsIn line m position ∨ RunsThrough line m position := by
  have hone (c : Char) : [c] ≠ [] := List.cons_ne_nil c []
  fun_induction readBlanks m position line with
  | case1 m position line ih =>
    exact stopsIn_or_runsThrough_append ['\n'] (hone _) (fun _ => rfl) ih h
  | case2 m position line ih =>
    exact stopsIn_or_runsThrough_append [' '] (hone _) (fun _ => rfl) ih h
  | case3 m position line ih =>
    exact stopsIn_or_runsThrough_append ['\t'] (hone _) (fun _ => rfl) ih h
  | case4 m position line ih =>
    exact stopsIn_or_runsThrough_append ['\r'] (hone _) (fun _ => rfl) ih h
  | case5 m position line ih =>
    exact stopsIn_or_runsThrough_append ['\x0c'] (hone _) (fun _ => rfl) ih h
  | case6 m position line ih =>
    exact stopsIn_or_runsThrough_append ['\\', '\n'] (List.cons_ne_nil _ _) (fun _ => rfl) ih h
  | case7 m position line ih =>
    exact stopsIn_or_runsThrough_append ['\\', '\r', '\n'] (List.cons_ne_nil _ _) (fun _ => rfl)
      ih h
  | case8 m position => exact absurd (List.suffix_refl _) h.1
  | case9 m position => exact absurd (List.suffix_refl _) h.2
  | case10 m position line hlf hend =>
    refine .inl ⟨List.cons_ne_nil _ _, none, position + 2, line,
      List.suffix_append ['\\', '\r'] line, fun rest => ?_⟩
    cases line <;> simp_all [readBlanks]
  | case11 m position line =>
    refine .inl ⟨List.cons_ne_nil _ _, none, position + 1, line,
      List.suffix_append ['\\'] line, fun rest => ?_⟩
    cases line <;> simp_all [readBlanks]
  | case12 m position line =>
    cases line with
    | nil => exact .inr fun rest => rfl
    | cons c line =>
      refine .inl ⟨List.cons_ne_nil _ _, some m, position, c :: line, List.suffix_refl _,
        fun rest => ?_⟩
      simp_all [readBlanks]

theorem Scanner.eq_initial {s : Scanner} (hs : s.stack = [0]) (hp : s.pending = 0)
    (hf : s.finalNewline = false) : s = .initial := by
  obtain ⟨levels, pending, finalNewline⟩ := s
  obtain rfl : pending = 0 := hp
  obtain rfl : finalNewline = false := hf
  have hlevels : levels.map UInt16.toNat = [] := by simpa [stack] using hs
  rw [List.map_eq_nil_iff.1 hlevels]
  rfl

namespace Stage

theorem regular_next? {g g' : Stage} (hg : g.scanner.Regular) (h : g.next? = some g') :
    g'.scanner.Regular := by
  have hcall : g.call.scanner.Regular := hg.scan (.startAt g.rest g.position) .full
  rcases next?_cases h with ⟨token, -, rfl⟩ | ⟨c, rest, -, -, rfl⟩
  · exact hcall
  · exact hcall

theorem regular_of_reaches {g g' : Stage} (h : Reaches next? g g') (hg : g.scanner.Regular) :
    g'.scanner.Regular := by
  induction h with
  | refl => exact hg
  | tail _ hstep ih => exact regular_next? ih hstep

/-- A line that is read to its end closes all blocks, and the scanner is as it was at the start. -/
theorem exists_reaches_of_runsThrough {g : Stage} (hg : g.scanner.Regular)
    (hp : g.scanner.pending = 0) (hline : RunsThrough g.rest .start g.position) :
    ∃ position found, ∀ rest, AtMargin rest →
      Reaches next? (g.extend ('\n' :: rest)) ⟨.initial, rest, position, found⟩ := by
  refine ⟨g.position + byteLength g.rest + 1,
    (closing g.scanner.depth (g.position + byteLength g.rest + 1)).reverse ++ g.found,
    fun rest hrest => ?_⟩
  have hread := (hline rest).trans (readBlanks_atMargin hrest _ _)
  obtain ⟨s, hps, hstack, hreach⟩ := exists_reaches_line hp hg.nested hread rfl g.found
  have hzero : (⟨true, 0⟩ : Margin).width.toNat = 0 := rfl
  rw [hzero, hg.nested.outlineLine_zero] at hstack hreach
  obtain rfl := Scanner.eq_initial hstack hps (regular_of_reaches hreach hg).finalNewline
  exact hreach

/-- A turn that does not come to the end of a line leaves it unescaped, and looks no further. -/
theorem exists_next?_line {g : Stage} (hline : Unescaped g.rest)
    (h : g.scanner.pending ≠ 0 ∨ StopsIn g.rest .start g.position) :
    ∃ g' : Stage, Unescaped g'.rest ∧
      ∀ rest, (g.extend ('\n' :: rest)).next? = some (g'.extend ('\n' :: rest)) := by
  cases hd : g.scanner.drain? .full with
  | some due =>
    exact ⟨⟨due.2, g.rest, g.position, ⟨due.1, g.position⟩ :: g.found⟩, hline,
      fun _ => next?_due hd⟩
  | none =>
    obtain ⟨hne, margin, after, behind, hs, hread⟩ :=
      h.resolve_left (not_not.2 (Scanner.pending_eq_zero hd))
    obtain ⟨d, more, hr⟩ := List.exists_cons_of_ne_nil hne
    have hahead : ∀ rest,
        (g.extend ('\n' :: rest)).ahead = ⟨margin, after, behind ++ '\n' :: rest⟩ := hread
    have hmore : ∀ rest, (behind ++ '\n' :: rest).isEmpty = false := by simp
    cases ha : g.scanner.ahead? margin false with
    | some found =>
      refine ⟨⟨found.2, behind, after, ⟨found.1, after⟩ :: g.found⟩, hline.of_suffix hs,
        fun rest => ?_⟩
      rw [next?_eq, hahead rest]
      simp only [extend, hd, hmore, ha]
    | none =>
      refine ⟨⟨g.scanner, more, g.position + d.utf8Size, g.found⟩,
        hline.of_suffix (hr ▸ List.suffix_cons d more), fun rest => ?_⟩
      rw [next?_eq, hahead rest]
      simp only [extend, hd, hmore, ha, hr, List.cons_append]

/-- At the end of a line in front of the first column the scanner is as it was at the start. -/
theorem exists_reaches_atMargin {g : Stage} (hg : g.scanner.Regular) (hline : Unescaped g.rest) :
    ∃ position found, ∀ rest, AtMargin rest →
      Reaches next? (g.extend ('\n' :: rest)) ⟨.initial, rest, position, found⟩ := by
  induction hcost : g.cost using Nat.strongRecOn generalizing g with
  | ind n ih =>
    subst hcost
    by_cases h : g.scanner.pending ≠ 0 ∨ StopsIn g.rest .start g.position
    · obtain ⟨g', hline', hturn⟩ := exists_next?_line hline h
      have hg' : (g'.extend ['\n']).scanner.Regular :=
        regular_next? (g := g.extend ['\n']) hg (hturn [])
      obtain ⟨position, found, hreach⟩ :=
        ih g'.cost (cost_extend_lt (hturn [])) (g := g') hg' hline' rfl
      exact ⟨position, found, fun rest hrest => (hreach rest hrest).head (hturn rest)⟩
    · rw [not_or, not_not] at h
      exact exists_reaches_of_runsThrough hg h.1
        ((stopsIn_or_runsThrough hline .start g.position).resolve_left h.2)

end Stage

/-- A text that ends in a line feed that is not escaped. -/
def EndsLine (text : String) : Prop := ∃ line, text.toList = line ++ ['\n'] ∧ Unescaped line

/-- Behind the end of a line, a text that begins in the first column is scanned as on its own. -/
theorem scanAll_append {a b : String} (ha : EndsLine a) (hb : AtMargin b.toList) :
    scanAll (a ++ b) = scanAll a ++ (scanAll b).map (·.shift (byteLength a.toList)) := by
  obtain ⟨line, hline, hunescaped⟩ := ha
  obtain ⟨position, found, hreach⟩ := Stage.exists_reaches_atMargin
    (g := ⟨.initial, line, 0, []⟩) Scanner.regular_initial hunescaped
  have hposition : position = byteLength a.toList := by
    have := (Stage.follows_of_reaches (hreach [] fun _ h => by cases h)).extent
    simpa [Stage.extend, hline] using this
  have hscan : ∀ text : String, AtMargin text.toList →
      scanAll (a ++ text) = found.reverse ++ (scanAll text).map (·.shift position) := by
    intro text htext
    have hstart : Stage.start (a ++ text) =
        Stage.extend ('\n' :: text.toList) ⟨.initial, line, 0, []⟩ := by
      simp [Stage.start, Stage.extend, hline]
    have hmoved : (Stage.start text).moved position found =
        ⟨.initial, text.toList, position, found⟩ :=
      congrArg (Stage.mk .initial text.toList · found) (Nat.zero_add position)
    rw [scanAll, ← Stage.run_start, hstart, Stage.run_of_reaches (hreach _ htext), ← hmoved,
      Stage.run_moved, Stage.run_start, scanAll]
  have hempty : scanAll "" = [] := Stage.scanAll_of_runWithin (r := ⟨[], .initial⟩) (by decide)
  have halone := hscan "" fun _ h => by cases h
  rw [String.append_empty, hempty, List.map_nil, List.append_nil] at halone
  rw [hscan b hb, halone, hposition]

theorem scanAll_append_two_blocks :
    EndsLine "é\n b\n\tc\\\r\n\n" ∧ AtMargin "d\n e".toList ∧
      scanAll "é\n b\n\tc\\\r\n\nd\n e" =
        [⟨.indent, 4⟩, ⟨.indent, 7⟩, ⟨.dedent, 12⟩, ⟨.dedent, 12⟩, ⟨.newline, 12⟩,
          ⟨.indent, 15⟩, ⟨.dedent, 16⟩] := by
  have ha : EndsLine "é\n b\n\tc\\\r\n\n" :=
    ⟨"é\n b\n\tc\\\r\n".toList, by decide, by decide⟩
  have hb : AtMargin "d\n e".toList := by decide
  have hfirst : scanAll "é\n b\n\tc\\\r\n\n" =
      [⟨.indent, 4⟩, ⟨.indent, 7⟩, ⟨.dedent, 12⟩, ⟨.dedent, 12⟩, ⟨.newline, 12⟩] :=
    Stage.scanAll_of_runWithin (r := ⟨_, .initial⟩) (by decide)
  have hsecond : scanAll "d\n e" = [⟨.indent, 3⟩, ⟨.dedent, 4⟩] :=
    Stage.scanAll_of_runWithin (r := ⟨_, .initial⟩) (by decide)
  have happend := scanAll_append ha hb
  rw [hfirst, hsecond] at happend
  exact ⟨ha, hb, happend⟩

end GrammarLoader.Layout
