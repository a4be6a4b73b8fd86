import GrammarLoader.Proofs.Layout.Chunks
import GrammarLoader.Proofs.Layout.Respelling

/-! Blank lines between two lines of a text. A scan that begins in front of them reads the same
margin with them and without them. One that begins in them reads it too, so where the scan without
them has no token for the line behind it, none of these scans has one. Both scans come to the line
behind them with the same scanner, and there they differ in the offset alone. -/

namespace GrammarLoader.Layout

open StateTransition (Reaches)

/-- The token in a text that has `d` bytes more behind byte `offset`. -/
def ScannedToken.shiftBehind (offset d : Nat) (t : ScannedToken) : ScannedToken :=
  if offset < t.offset then t.shift d else t

theorem map_shiftBehind_of_le {offset : Nat} {ts : List ScannedToken}
    (h : ∀ t ∈ ts, t.offset ≤ offset) (d : Nat) : ts.map (·.shiftBehind offset d) = ts := by
  have hid : ts.map (·.shiftBehind offset d) = ts.map id :=
    List.map_congr_left fun t ht => if_neg (Nat.not_lt.2 (h t ht))
  rw [hid, List.map_id]

theorem map_shiftBehind_of_lt {offset : Nat} {ts : List ScannedToken}
    (h : ∀ t ∈ ts, offset < t.offset) (d : Nat) :
    ts.map (·.shiftBehind offset d) = ts.map (·.shift d) :=
  List.map_congr_left fun t ht => if_pos (h t ht)

theorem runsThrough_of_isBlank {w : List Char} (hw : ∀ c ∈ w, isBlank c = true) (m : Margin)
    (position : Nat) : RunsThrough w m position := by
  intro rest
  rw [readBlanks_blanks hw]
  rfl

namespace Stage

variable {offset d : Nat} {g g' h h' : Stage}

/-- Two scans that have the same tokens up to an offset and come to the same stage behind it, `d`
bytes further on in the second one. -/
structure Meet (offset d : Nat) (g g' : Stage) (before : List ScannedToken) (last : Stage) :
    Prop where
  first : Reaches next? g (last.moved 0 before)
  second : Reaches next? g' (last.moved d before)
  before_le : ∀ t ∈ before, t.offset ≤ offset
  lt_position : offset < last.position
  lt_found : ∀ t ∈ last.found, offset < t.offset

theorem Meet.head {before : List ScannedToken} {last : Stage} (hm : Meet offset d h h' before last)
    (hg : g.next? = some h) (hg' : g'.next? = some h') : Meet offset d g g' before last :=
  { hm with first := hm.first.head hg, second := hm.second.head hg' }

/-- The second scan finds what the first one finds. -/
theorem Meet.tokens_run {before : List ScannedToken} {last : Stage}
    (hm : Meet offset d g g' before last) :
    g'.run.tokens = g.run.tokens.map (·.shiftBehind offset d) := by
  obtain ⟨later, htokens, hlater⟩ := last.exists_tokens_run
  have hlast : ∀ t ∈ last.run.tokens, offset < t.offset := by
    intro t ht
    rw [htokens] at ht
    rcases List.mem_append.1 ht with ht | ht
    · exact hm.lt_found t (List.mem_reverse.1 ht)
    · exact Nat.lt_of_lt_of_le hm.lt_position (hlater t ht)
  have hbefore : ∀ t ∈ before.reverse, t.offset ≤ offset := fun t ht =>
    hm.before_le t (List.mem_reverse.1 ht)
  have hzero : last.run.tokens.map (·.shift 0) = last.run.tokens := List.map_id _
  rw [run_of_reaches hm.first, run_of_reaches hm.second, run_moved, run_moved, hzero,
    List.map_append, map_shiftBehind_of_le hbefore, map_shiftBehind_of_lt hlast]

section
variable {w rest : List Char}

def lineToken? (s : Scanner) (rest : List Char) : Option (Token × Scanner) :=
  s.ahead? (readBlanks ⟨true, 0⟩ 0 rest).margin (readBlanks ⟨true, 0⟩ 0 rest).rest.isEmpty

theorem ahead?_line {s : Scanner} {position : Nat}
    (hread : g.ahead = readBlanks ⟨true, 0⟩ position rest) :
    s.ahead? g.ahead.margin g.ahead.rest.isEmpty = lineToken? s rest := by
  have hadd := readBlanks_add ⟨true, 0⟩ 0 position rest
  rw [Nat.zero_add] at hadd
  rw [hread, hadd]
  rfl

/-- A character is stepped over if the line of `rest`, which is read with it, has no token. -/
theorem next?_noToken (hp : g.scanner.pending = 0) (hnone : lineToken? g.scanner rest = none)
    {c : Char} {more : List Char} (hr : g.rest = c :: more) {position : Nat}
    (hread : g.ahead = readBlanks ⟨true, 0⟩ position rest) :
    g.next? = some ⟨g.scanner, more, g.position + c.utf8Size, g.found⟩ :=
  next?_declined hp ((ahead?_line hread).trans hnone) hr

theorem reaches_blankLines (hw : ∀ c ∈ w, isBlank c = true) {s : Scanner} (hp : s.pending = 0)
    (hnone : lineToken? s rest = none) (position : Nat) (found : List ScannedToken) :
    Reaches next? ⟨s, w ++ '\n' :: rest, position, found⟩
      ⟨s, rest, position + (byteLength w + 1), found⟩ := by
  induction w generalizing position with
  | nil => exact .single (next?_noToken (g := ⟨s, _, position, found⟩) hp hnone rfl rfl)
  | cons c w ih =>
    have hread := runsThrough_of_isBlank hw .start position rest
    have hturn := next?_noToken (g := ⟨s, c :: w ++ '\n' :: rest, position, found⟩) hp hnone rfl
      hread
    have hreach := ih (fun b hb => hw b (List.mem_cons_of_mem c hb)) (position + c.utf8Size)
    rw [Nat.add_assoc, ← Nat.add_assoc c.utf8Size, ← byteLength_cons] at hreach
    exact hreach.head hturn

structure EndsAt (offset : Nat) (g : Stage) : Prop where
  extent : g.position + byteLength g.rest = offset
  found : ∀ t ∈ g.found, t.offset ≤ offset

theorem EndsAt.turn (hg : g.EndsAt offset) {tail : List Char}
    (hturn : (g.extend tail).next? = some (g'.extend tail)) : g'.EndsAt offset := by
  have hfollows := follows_next? hturn
  have hextent : g'.position + byteLength g'.rest = offset := by
    have hsame := hfollows.extent
    simp only [extend, byteLength_append] at hsame
    have := hg.extent
    omega
  refine ⟨hextent, fun t ht => ?_⟩
  obtain ⟨later, hlater, hoffset⟩ := hfollows.found
  change g'.found = later ++ g.found at hlater
  rw [hlater] at ht
  rcases List.mem_append.1 ht with ht | ht
  · have hle : t.offset ≤ g'.position := (hoffset t ht).2
    omega
  · exact hg.found t ht

/-- The two scans meet behind the token for the line of `rest`. -/
theorem meet_found (hg : g.EndsAt offset) (hp : g.scanner.pending = 0) {found : Token × Scanner}
    (ha : lineToken? g.scanner rest = some found)
    (hplain : (g.extend ('\n' :: rest)).ahead = readBlanks ⟨true, 0⟩ (offset + 1) rest)
    (hblank : (g.extend ('\n' :: (w ++ '\n' :: rest))).ahead =
      readBlanks ⟨true, 0⟩ (offset + 1 + d) rest) :
    Meet offset d (g.extend ('\n' :: rest)) (g.extend ('\n' :: (w ++ '\n' :: rest))) g.found
      ⟨found.2, (readBlanks ⟨true, 0⟩ (offset + 1) rest).rest,
        (readBlanks ⟨true, 0⟩ (offset + 1) rest).position,
        [⟨found.1, (readBlanks ⟨true, 0⟩ (offset + 1) rest).position⟩]⟩ := by
  have hturn := next?_found (g := g.extend ('\n' :: rest)) hp ((ahead?_line hplain).trans ha)
  have hturn' := next?_found (g := g.extend ('\n' :: (w ++ '\n' :: rest))) hp
    ((ahead?_line hblank).trans ha)
  rw [hplain] at hturn
  rw [hblank, readBlanks_add] at hturn'
  have hlt : offset < (readBlanks ⟨true, 0⟩ (offset + 1) rest).position :=
    le_position_readBlanks _ _ _
  exact ⟨.single hturn, .single hturn', hg.found, hlt, by simpa using hlt⟩

theorem meet_noToken (hw : ∀ c ∈ w, isBlank c = true) (hg : g.EndsAt offset) (hr : g.rest = [])
    (hp : g.scanner.pending = 0) (ha : lineToken? g.scanner rest = none) :
    Meet offset (byteLength w + 1) (g.extend ('\n' :: rest))
      (g.extend ('\n' :: (w ++ '\n' :: rest))) g.found ⟨g.scanner, rest, offset + 1, []⟩ := by
  obtain rfl : g.position = offset := by
    have := hg.extent
    rwa [hr] at this
  have hreach (w : List Char) (hw : ∀ c ∈ w, isBlank c = true) :
      Reaches next? (g.extend (w ++ '\n' :: rest))
        ⟨g.scanner, rest, g.position + (byteLength w + 1), g.found⟩ := by
    have := reaches_blankLines hw hp ha g.position g.found
    rwa [extend, hr, List.nil_append]
  have hblank := hreach ('\n' :: w) (by simpa [isBlank] using hw)
  rw [byteLength_cons, Nat.add_assoc, ← Nat.add_assoc] at hblank
  exact ⟨hreach [] (by simp), hblank, hg.found, Nat.lt_succ_self _, by simp⟩

/-- At the end of a line the two scans meet, or else they make the same turn. -/
theorem exists_meet_or_turn (hw : ∀ c ∈ w, isBlank c = true) (hline : Unescaped g.rest)
    (hg : g.EndsAt offset) (rest : List Char) :
    (∃ before last, Meet offset (byteLength w + 1) (g.extend ('\n' :: rest))
      (g.extend ('\n' :: (w ++ '\n' :: rest))) before last) ∨
    ∃ g' : Stage, Unescaped g'.rest ∧
      (g.extend ('\n' :: rest)).next? = some (g'.extend ('\n' :: rest)) ∧
      (g.extend ('\n' :: (w ++ '\n' :: rest))).next? =
        some (g'.extend ('\n' :: (w ++ '\n' :: rest))) := by
  -- a turn that does not come to the end of the line looks no further, and is made in both texts
  by_cases h : g.scanner.pending ≠ 0 ∨ StopsIn g.rest .start g.position
  · obtain ⟨g', hline', hturn⟩ := exists_next?_line hline h
    exact .inr ⟨g', hline', hturn _, hturn _⟩
  rw [not_or, not_not] at h
  obtain ⟨hp, hstops⟩ := h
  have hthrough := (stopsIn_or_runsThrough hline .start g.position).resolve_left hstops
  unfold RunsThrough at hthrough
  rw [hg.extent] at hthrough
  have hplain : (g.extend ('\n' :: rest)).ahead = _ := hthrough rest
  have hblank : (g.extend ('\n' :: (w ++ '\n' :: rest))).ahead = _ :=
    (hthrough _).trans (runsThrough_of_isBlank hw _ _ rest)
  cases ha : lineToken? g.scanner rest with
  | some found => exact .inl ⟨g.found, _, meet_found hg hp ha hplain hblank⟩
  | none =>
    cases hr : g.rest with
    | nil => exact .inl ⟨g.found, _, meet_noToken hw hg hr hp ha⟩
    | cons c more =>
      refine .inr ⟨⟨g.scanner, more, g.position + c.utf8Size, g.found⟩,
        hline.of_suffix (hr ▸ List.suffix_cons c more), ?_, ?_⟩
      · exact next?_noToken (g := g.extend _) hp ha (congrArg (· ++ _) hr) hplain
      · exact next?_noToken (g := g.extend _) hp ha (congrArg (· ++ _) hr) hblank

/-- A scan that comes to the end of a line goes on behind blank lines as it does without them. -/
theorem exists_meet (hw : ∀ c ∈ w, isBlank c = true) (hline : Unescaped g.rest)
    (hg : g.EndsAt offset) (rest : List Char) :
    ∃ before last, Meet offset (byteLength w + 1)
      (g.extend ('\n' :: rest)) (g.extend ('\n' :: (w ++ '\n' :: rest))) before last := by
  induction hcost : g.cost using Nat.strongRecOn generalizing g with
  | ind n ih =>
    subst hcost
    rcases exists_meet_or_turn hw hline hg rest with hmeet | ⟨g', hline', hturn, hturn'⟩
    · exact hmeet
    · obtain ⟨before, last, hmeet⟩ :=
        ih g'.cost (cost_extend_lt hturn) hline' (hg.turn hturn) rfl
      exact ⟨before, last, hmeet.head hturn hturn'⟩

end
end Stage

/-- Blank lines behind the end of a line are not seen: they only move what stands behind them. -/
theorem scanAll_blankLines {p w : String} (hp : Unescaped p.toList)
    (hw : ∀ c ∈ w.toList, isBlank c = true) (s : String) :
    scanAll (p ++ "\n" ++ w ++ "\n" ++ s) =
      (scanAll (p ++ "\n" ++ s)).map
        (·.shiftBehind (byteLength p.toList) (byteLength w.toList + 1)) := by
  obtain ⟨before, last, hmeet⟩ := Stage.exists_meet hw (g := ⟨.initial, p.toList, 0, []⟩) hp
    ⟨Nat.zero_add _, by simp⟩ s.toList
  have hplain : Stage.start (p ++ "\n" ++ s) =
      Stage.extend ('\n' :: s.toList) ⟨.initial, p.toList, 0, []⟩ := by
    simp [Stage.start, Stage.extend]
  have hblank : Stage.start (p ++ "\n" ++ w ++ "\n" ++ s) =
      Stage.extend ('\n' :: (w.toList ++ '\n' :: s.toList)) ⟨.initial, p.toList, 0, []⟩ := by
    simp [Stage.start, Stage.extend]
  rw [scanAll, scanAll, ← Stage.run_start, ← Stage.run_start, hplain, hblank, hmeet.tokens_run]

/-- Blank lines in front of a line that a broken continuation makes unreadable, and in front of the
end of a block. -/
theorem scanAll_blankLines_broken :
    Unescaped "a\n  é".toList ∧ (∀ c ∈ "\t\n \r".toList, isBlank c = true) ∧
      scanAll "a\n  é\n\t\n \r\n\\x\nb" =
        [⟨.indent, 4⟩, ⟨.dedent, 15⟩, ⟨.newline, 15⟩] := by
  have hp : Unescaped "a\n  é".toList := by decide
  have hw : ∀ c ∈ "\t\n \r".toList, isBlank c = true := List.all_eq_true.1 (by decide)
  have hplain : scanAll ("a\n  é" ++ "\n" ++ "\\x\nb") =
      [⟨.indent, 4⟩, ⟨.dedent, 10⟩, ⟨.newline, 10⟩] :=
    Stage.scanAll_of_runWithin (r := ⟨_, .initial⟩) (by decide)
  refine ⟨hp, hw, (scanAll_blankLines hp hw "\\x\nb").trans ?_⟩
  rw [hplain]
  decide

end GrammarLoader.Layout
