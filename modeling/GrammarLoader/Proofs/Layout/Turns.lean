import GrammarLoader.Proofs.Layout.ScanOutline
import Mathlib.Computability.StateTransition

/-! The turns of a scan of any text, backslashes included. A turn depends on neither the offset of the
text nor the tokens found before, and it looks no further than the next solid character: one that
ends the blanks in front of it without making them a broken line continuation. So the scan of what
comes before such a character is the same whatever comes behind it. -/

namespace GrammarLoader.Layout

open StateTransition (Reaches)

/-- Neither a blank nor the start of a line continuation. -/
def Solid (c : Char) : Prop := isBlank c = false ∧ c ≠ '\\'

instance (c : Char) : Decidable (Solid c) := inferInstanceAs (Decidable (_ ∧ _))

theorem readBlanks_solid {c : Char} (h : Solid c) (m : Margin) (position : Nat)
    (rest : List Char) : readBlanks m position (c :: rest) = ⟨some m, position, c :: rest⟩ :=
  readBlanks_of_not_blank h.1 h.2 m position rest

/-- The offset of a text makes no difference to its blanks. -/
theorem readBlanks_add (m : Margin) (position d : Nat) (text : List Char) :
    readBlanks m (position + d) text =
      { readBlanks m position text with
        position := (readBlanks m position text).position + d } := by
  fun_induction readBlanks m position text <;>
    simp_all [readBlanks, Nat.add_right_comm]

theorem position_readBlanks (m : Margin) (position : Nat) (text : List Char) :
    (readBlanks m position text).position + byteLength (readBlanks m position text).rest =
      position + byteLength text := by
  fun_induction readBlanks m position text <;> simp_all [Char.utf8Size] <;> omega

theorem le_position_readBlanks (m : Margin) (position : Nat) (text : List Char) :
    position ≤ (readBlanks m position text).position := by
  obtain ⟨blanks, hblanks⟩ := rest_readBlanks_suffix m position text
  have hextent := position_readBlanks m position text
  have := congrArg byteLength hblanks
  rw [byteLength_append] at this
  omega

/-- Reading blanks looks no further than the next solid character. -/
theorem exists_readBlanks_append (m : Margin) (position : Nat) (text : List Char) :
    ∃ margin after behind, ∀ c rest, Solid c →
      readBlanks m position (text ++ c :: rest) = ⟨margin, after, behind ++ c :: rest⟩ := by
  fun_induction readBlanks m position text with
  | case1 m position text ih | case2 m position text ih | case3 m position text ih
  | case4 m position text ih | case5 m position text ih | case6 m position text ih
  | case7 m position text ih => exact ih
  -- A backslash at the end continues no line, since a solid character comes behind it.
  | case8 m position =>
    refine ⟨none, position + 1, [], fun c rest hc => ?_⟩
    have hlf : c ≠ '\n' := by rintro rfl; exact absurd hc (by decide)
    have hcr : c ≠ '\r' := by rintro rfl; exact absurd hc (by decide)
    simp [readBlanks, hlf, hcr]
  | case9 m position =>
    refine ⟨none, position + 2, [], fun c rest hc => ?_⟩
    have hlf : c ≠ '\n' := by rintro rfl; exact absurd hc (by decide)
    simp [readBlanks, hlf]
  | case10 m position text =>
    refine ⟨none, position + 2, text, fun c rest _ => ?_⟩
    cases text <;> simp_all [readBlanks]
  | case11 m position text =>
    refine ⟨none, position + 1, text, fun c rest _ => ?_⟩
    cases text <;> simp_all [readBlanks]
  | case12 m position text =>
    refine ⟨some m, position, text, fun c rest hc => ?_⟩
    cases text with
    | nil => exact readBlanks_solid hc m position rest
    | cons d text => simp_all [readBlanks]

namespace Scanner

theorem drain?_eq_none {s : Scanner} (hp : s.pending = 0) : s.drain? .full = none := by
  rw [drain?_eq_none_iff, hp]
  exact ⟨fun h => absurd h (by decide), fun h => absurd h (by decide)⟩

def settle (s : Scanner) : Scanner := { s with pending := 0 }

theorem settle_of_drain? {s s' : Scanner} {valid : TokenSet} {t : Token}
    (h : s.drain? valid = some (t, s')) : s'.settle = s.settle := by
  unfold drain? at h
  split at h
  · obtain ⟨-, rfl⟩ := by simpa using h
    rfl
  · split at h
    · obtain ⟨-, rfl⟩ := by simpa using h
      rfl
    · cases h

/-- The token behind blanks, and the scanner after it, where nothing is pending. -/
def ahead? (s : Scanner) (margin : Option Margin) (atEnd : Bool) : Option (Token × Scanner) :=
  match margin with
  | none => none
  | some m => (s.place m atEnd .full).1.map (·, (s.place m atEnd .full).2)

theorem place_eq_none {s : Scanner} {m : Margin} {atEnd : Bool} {valid : TokenSet}
    (h : (s.place m atEnd valid).1 = none) : (s.place m atEnd valid).2 = s := by
  revert h
  unfold place startLine finish
  grind

end Scanner

def ScannedToken.shift (d : Nat) (t : ScannedToken) : ScannedToken :=
  { t with offset := t.offset + d }

namespace Stage

def ahead (g : Stage) : BlankRun := readBlanks .start g.position g.rest

theorem call_ahead {g : Stage} (hd : g.scanner.drain? .full = none) :
    g.call.token = (g.scanner.ahead? g.ahead.margin g.ahead.rest.isEmpty).map Prod.fst ∧
      g.call.scanner =
        ((g.scanner.ahead? g.ahead.margin g.ahead.rest.isEmpty).map Prod.snd).getD g.scanner ∧
      g.call.lexer.rest = g.ahead.rest ∧ g.call.lexer.position = g.ahead.position := by
  have hp := Scanner.with_pending_zero (Scanner.pending_eq_zero hd)
  cases hm : g.ahead.margin with
  | none =>
    have hcall : g.call = ⟨none, g.scanner, .startAt g.ahead.rest g.ahead.position⟩ := by
      unfold call Scanner.scan
      unfold ahead at hm ⊢
      rw [hd, Lexer.skipBlanks_startAt, hm, hp]
    rw [hcall]
    exact ⟨rfl, rfl, rfl, rfl⟩
  | some m =>
    have hcall : g.call =
        ⟨(g.scanner.place m g.ahead.rest.isEmpty .full).1,
          (g.scanner.place m g.ahead.rest.isEmpty .full).2,
          (Lexer.startAt g.ahead.rest g.ahead.position).mark⟩ := by
      rw [← hp]
      exact Lexer.scan_startAt hd hm
    rw [hcall, Scanner.ahead?]
    cases ht : (g.scanner.place m g.ahead.rest.isEmpty .full).1 with
    | some token => exact ⟨rfl, rfl, rfl, rfl⟩
    | none => exact ⟨rfl, Scanner.place_eq_none ht, rfl, rfl⟩

/-- What a turn does: it notes a token that is due or the one behind the blanks, or else steps over a
character. -/
theorem next?_eq (g : Stage) :
    g.next? =
      match g.scanner.drain? .full with
      | some (token, s) => some ⟨s, g.rest, g.position, ⟨token, g.position⟩ :: g.found⟩
      | none =>
        match g.scanner.ahead? g.ahead.margin g.ahead.rest.isEmpty with
        | some (token, s) =>
          some ⟨s, g.ahead.rest, g.ahead.position, ⟨token, g.ahead.position⟩ :: g.found⟩
        | none =>
          match g.rest with
          | c :: rest => some ⟨g.scanner, rest, g.position + c.utf8Size, g.found⟩
          | [] => none := by
  cases hd : g.scanner.drain? .full with
  | some due => exact next?_due hd
  | none =>
    obtain ⟨ht, hs, hrest, hposition⟩ := call_ahead hd
    cases ha : g.scanner.ahead? g.ahead.margin g.ahead.rest.isEmpty with
    | some found =>
      rw [ha] at ht hs
      rw [next?_of_token ht, hs, hrest, hposition]
      rfl
    | none =>
      rw [ha] at ht hs
      cases hr : g.rest with
      | nil => exact next?_eq_none_iff.2 ⟨ht, hr⟩
      | cons c rest => exact (next?_of_char ht hr).trans (by rw [hs]; rfl)

theorem run_of_reaches {g g' : Stage} (h : Reaches next? g g') : g.run = g'.run := by
  induction h with
  | refl => rfl
  | tail _ hstep ih => exact ih.trans (run_of_next? hstep)

theorem exists_end (g : Stage) : ∃ last, Reaches next? g last ∧ last.next? = none := by
  obtain ⟨last, hlast, hend, -⟩ := exists_last (P := Reaches next? g)
    (fun _ _ hstep h => h.tail hstep) g .refl
  exact ⟨last, hlast, hend⟩

theorem scanAll_of_runWithin {text : String} {r : Scanner.Run}
    (h : (start text).runWithin (2 * text.length + 1) = some r) : scanAll text = r.tokens := by
  have hcost : (start text).cost < 2 * text.length + 1 := by
    change 2 * text.toList.length + 0 < _
    rw [String.length_toList]
    omega
  rw [runWithin_eq hcost, run_start] at h
  rw [scanAll, Option.some.inj h]

/-- The stage of a text that begins `d` bytes later, behind the tokens `before`, the last one
first. -/
def moved (d : Nat) (before : List ScannedToken) (g : Stage) : Stage :=
  ⟨g.scanner, g.rest, g.position + d, g.found.map (·.shift d) ++ before⟩

theorem ahead_moved (d : Nat) (before : List ScannedToken) (g : Stage) :
    (g.moved d before).ahead = { g.ahead with position := g.ahead.position + d } :=
  readBlanks_add .start g.position d g.rest

theorem next?_moved (d : Nat) (before : List ScannedToken) (g : Stage) :
    (g.moved d before).next? = g.next?.map (moved d before) := by
  rw [next?_eq, next?_eq, ahead_moved]
  dsimp only [moved]
  cases g.scanner.drain? .full with
  | some due => rfl
  | none =>
    dsimp only
    cases g.scanner.ahead? g.ahead.margin g.ahead.rest.isEmpty with
    | some found => rfl
    | none =>
      cases g.rest with
      | nil => rfl
      | cons c rest => simp [moved, Nat.add_right_comm]

/-- Where a text begins and what was found before it makes no difference to its tokens. -/
theorem run_moved (d : Nat) (before : List ScannedToken) (g : Stage) :
    (g.moved d before).run =
      ⟨before.reverse ++ g.run.tokens.map (·.shift d), g.run.scanner⟩ := by
  obtain ⟨last, hlast, hend⟩ := g.exists_end
  have hmoved : Reaches next? (g.moved d before) (last.moved d before) := by
    refine hlast.lift (moved d before) fun a b hab => ?_
    change moved d before b ∈ (a.moved d before).next?
    rw [next?_moved, Option.mem_def.1 hab]
    rfl
  have hend' : (last.moved d before).next? = none := by rw [next?_moved, hend]; rfl
  rw [run_of_reaches hmoved, run_of_next?_none hend', run_of_reaches hlast, run_of_next?_none hend,
    result, result, (scanner_of_next?_none hend).2.2, (scanner_of_next?_none hend').2.2]
  simp [moved]

theorem kinds_run (s : Scanner) (rest : List Char) (position : Nat) (found : List ScannedToken) :
    (run ⟨s, rest, position, found⟩).tokens.map (·.token) =
      found.reverse.map (·.token) ++ (run ⟨s, rest, 0, []⟩).tokens.map (·.token) := by
  have hmoved : moved position found ⟨s, rest, 0, []⟩ = ⟨s, rest, position, found⟩ :=
    congrArg (Stage.mk s rest · found) (Nat.zero_add position)
  rw [← hmoved, run_moved, List.map_append, List.map_map]
  rfl

def extend (tail : List Char) (g : Stage) : Stage := { g with rest := g.rest ++ tail }

/-- A turn that leaves what follows alone lowers the cost without it too. -/
theorem cost_extend_lt {g g' : Stage} {tail : List Char}
    (h : (g.extend tail).next? = some (g'.extend tail)) : g'.cost < g.cost := by
  have := cost_next?_lt h
  simp only [cost, extend, List.length_append] at this ⊢
  omega

/-- A turn looks no further than the next solid character. -/
theorem exists_next?_extend {g : Stage} (h : g.rest ≠ [] ∨ g.scanner.pending ≠ 0) :
    ∃ g' : Stage, ∀ c rest, Solid c →
      (g.extend (c :: rest)).next? = some (g'.extend (c :: rest)) := by
  cases hd : g.scanner.drain? .full with
  | some due =>
    exact ⟨⟨due.2, g.rest, g.position, ⟨due.1, g.position⟩ :: g.found⟩, fun _ _ _ => next?_due hd⟩
  | none =>
    have hne : g.rest ≠ [] := h.resolve_right (not_not.2 (Scanner.pending_eq_zero hd))
    obtain ⟨d, more, hr⟩ := List.exists_cons_of_ne_nil hne
    obtain ⟨margin, after, behind, hread⟩ := exists_readBlanks_append .start g.position g.rest
    have hahead : ∀ c rest, Solid c →
        (g.extend (c :: rest)).ahead = ⟨margin, after, behind ++ c :: rest⟩ := hread
    have hmore : ∀ c rest, (behind ++ c :: rest).isEmpty = false := by simp
    cases ha : g.scanner.ahead? margin false with
    | some found =>
      refine ⟨⟨found.2, behind, after, ⟨found.1, after⟩ :: g.found⟩, fun c rest hc => ?_⟩
      rw [next?_eq, hahead c rest hc]
      simp only [extend, hd, hmore, ha]
    | none =>
      refine ⟨⟨g.scanner, more, g.position + d.utf8Size, g.found⟩, fun c rest hc => ?_⟩
      rw [next?_eq, hahead c rest hc]
      simp only [extend, hd, hmore, ha, hr, List.cons_append]

/-- What comes before a solid character is scanned up to there in the same way, whatever comes
behind it. -/
theorem exists_reaches_extend (g : Stage) :
    ∃ last : Stage, last.rest = [] ∧ last.scanner.pending = 0 ∧ ∀ c rest, Solid c →
      Reaches next? (g.extend (c :: rest)) (last.extend (c :: rest)) := by
  induction hcost : g.cost using Nat.strongRecOn generalizing g with
  | ind n ih =>
    subst hcost
    by_cases h : g.rest ≠ [] ∨ g.scanner.pending ≠ 0
    · obtain ⟨g', hturn⟩ := exists_next?_extend h
      have hlt : g'.cost < g.cost := cost_extend_lt (hturn 'a' [] (by decide))
      obtain ⟨last, hr, hp, hreach⟩ := ih g'.cost hlt g' rfl
      exact ⟨last, hr, hp, fun c rest hc => (hreach c rest hc).head (hturn c rest hc)⟩
    · rw [not_or, not_not, not_not] at h
      exact ⟨g, h.1, h.2, fun _ _ _ => .refl⟩

/-- What turns keep, one or many. -/
structure Follows (g g' : Stage) : Prop where
  accounted : g.Accounted → g'.Accounted
  extent : g'.position + byteLength g'.rest = g.position + byteLength g.rest
  position_le : g.position ≤ g'.position
  found : ∃ later, g'.found = later ++ g.found ∧
    ∀ t ∈ later, g.position ≤ t.offset ∧ t.offset ≤ g'.position

theorem Follows.refl (g : Stage) : Follows g g := ⟨id, rfl, le_rfl, [], rfl, by simp⟩

theorem follows_next? {g g' : Stage} (h : g.next? = some g') : Follows g g' := by
  have hacc : g.Accounted → g'.Accounted := (·.next? h)
  have hend : g.ahead.position + byteLength g.ahead.rest = g.position + byteLength g.rest :=
    position_readBlanks .start g.position g.rest
  have hle : g.position ≤ g.ahead.position := le_position_readBlanks .start g.position g.rest
  rw [next?_eq] at h
  split at h
  · obtain rfl := Option.some.inj h
    exact ⟨hacc, rfl, le_rfl, [_], rfl, by simp⟩
  · split at h
    · obtain rfl := Option.some.inj h
      exact ⟨hacc, hend, hle, [_], rfl, by simpa using hle⟩
    · split at h
      · next c rest hr =>
        obtain rfl := Option.some.inj h
        refine ⟨hacc, ?_, Nat.le_add_right _ _, [], rfl, by simp⟩
        rw [hr, byteLength_cons, Nat.add_assoc]
      · cases h

theorem Follows.trans {g g' g'' : Stage} (h : Follows g g') (h' : Follows g' g'') :
    Follows g g'' := by
  obtain ⟨later, hfound, hlater⟩ := h.found
  obtain ⟨later', hfound', hlater'⟩ := h'.found
  refine ⟨h'.accounted ∘ h.accounted, h'.extent.trans h.extent, h.position_le.trans h'.position_le,
    later' ++ later, by rw [hfound', hfound, List.append_assoc], fun t ht => ?_⟩
  have hle := h.position_le
  have hle' := h'.position_le
  rcases List.mem_append.1 ht with ht | ht
  · have := hlater' t ht
    omega
  · have := hlater t ht
    omega

theorem follows_of_reaches {g g' : Stage} (h : Reaches next? g g') : Follows g g' := by
  induction h with
  | refl => exact .refl g
  | tail _ hstep ih => exact ih.trans (follows_next? hstep)

/-- The tokens of a scan are those that were found before, and later ones that stand no earlier than
the position. -/
theorem exists_tokens_run (g : Stage) :
    ∃ later, g.run.tokens = g.found.reverse ++ later ∧ ∀ t ∈ later, g.position ≤ t.offset := by
  obtain ⟨last, hlast, hend⟩ := g.exists_end
  obtain ⟨later, hfound, hlater⟩ := (follows_of_reaches hlast).found
  refine ⟨later.reverse, ?_, fun t ht => (hlater t (List.mem_reverse.1 ht)).1⟩
  rw [run_of_reaches hlast, run_of_next?_none hend, result, hfound, List.reverse_append]

/-- What is pending is found first, at the position. -/
theorem reaches_settle (s : Scanner) (rest : List Char) (position : Nat)
    (found : List ScannedToken) :
    Reaches next? ⟨s, rest, position, found⟩
      ⟨s.settle, rest, position, (s.dues position).reverse ++ found⟩ := by
  induction hdebt : s.debt using Nat.strongRecOn generalizing s found with
  | ind n ih =>
    subst hdebt
    cases hd : s.drain? .full with
    | none =>
      have hp := Scanner.pending_eq_zero hd
      rw [Scanner.settle, Scanner.with_pending_zero hp, Scanner.dues, if_pos hp]
      exact .refl
    | some due =>
      have hreach := ih due.2.debt (Scanner.debt_drain?_lt hd) due.2
        (⟨due.1, position⟩ :: found) rfl
      rw [(Scanner.dues_of_drain? hd position).1, ← Scanner.settle_of_drain? hd,
        List.reverse_cons, List.append_assoc]
      exact hreach.head (next?_due hd)

section
variable {s : Scanner} {m : Margin} {position after : Nat} {rest : List Char}

/-- A character is stepped over if the next one that is not skipped stands on the same line. -/
theorem next?_inline (hp : s.pending = 0) {c d : Char} {behind : List Char}
    (hread : readBlanks .start position (c :: rest) = ⟨some m, after, d :: behind⟩)
    (hm : m.newLine = false) (found : List ScannedToken) :
    next? ⟨s, c :: rest, position, found⟩ = some ⟨s, rest, position + c.utf8Size, found⟩ := by
  have hahead : s.ahead? (some m) false = none := by
    simp [Scanner.ahead?, Scanner.place, hm]
  rw [next?_eq]
  simp only [Scanner.drain?_eq_none hp, ahead, hread, List.isEmpty_cons, hahead]

theorem next?_solid (hp : s.pending = 0) {c : Char} (hc : Solid c) (found : List ScannedToken) :
    next? ⟨s, c :: rest, position, found⟩ = some ⟨s, rest, position + c.utf8Size, found⟩ :=
  next?_inline hp (readBlanks_solid hc .start position rest) rfl found

/-- In front of a character on a new line there are the tokens that the outline has for a line of its
width, and then nothing is pending. -/
theorem exists_reaches_line (hp : s.pending = 0) (hn : s.Nested) {behind : List Char}
    (hread : readBlanks .start position rest = ⟨some m, after, behind⟩) (hm : m.newLine = true)
    (found : List ScannedToken) :
    ∃ s', s'.pending = 0 ∧ s'.stack = (outlineLine s.stack m.width.toNat after).2 ∧
      Reaches next? ⟨s, rest, position, found⟩
        ⟨s', behind, after, (outlineLine s.stack m.width.toNat after).1.reverse ++ found⟩ := by
  obtain ⟨t, s', hline, houtline⟩ := Scanner.outlineLine_startLine hn hp m.width after
  have hahead : s.ahead? (some m) behind.isEmpty = some (t, s') := by
    simp [Scanner.ahead?, Scanner.place, hm, hline]
  have hnext : next? ⟨s, rest, position, found⟩ =
      some ⟨s', behind, after, ⟨t, after⟩ :: found⟩ := by
    rw [next?_eq]
    simp only [Scanner.drain?_eq_none hp, ahead, hread, hahead]
  rw [houtline, List.reverse_cons, List.append_assoc]
  exact ⟨s'.settle, rfl, rfl, (reaches_settle s' behind after (⟨t, after⟩ :: found)).head hnext⟩

end

structure Behind (text : List Char) (s : Scanner) (found : List ScannedToken) : Prop where
  settled : s.pending = 0
  nested : s.Nested
  balance : dedents found + s.depth = indents found
  offset_lt : ∀ t ∈ found, t.offset < byteLength text
  reaches : ∀ rest, Reaches next? ⟨.initial, text ++ rest, 0, []⟩
    ⟨s, rest, byteLength text, found⟩

theorem Behind.scanAll {before rest : List Char} {s : Scanner} {found : List ScannedToken}
    (h : Behind before s found) {text : String} (htext : text.toList = before ++ rest) :
    scanAll text = (run ⟨s, rest, byteLength before, found⟩).tokens := by
  rw [Layout.scanAll, ← run_start, start, htext, run_of_reaches (h.reaches rest)]

/-- What is found in a text that ends in a solid character does not depend on what follows. -/
theorem exists_behind {text : List Char} (h : ∃ c ∈ text.getLast?, Solid c) :
    ∃ s found, Behind text s found := by
  obtain ⟨c, hlast, hc⟩ := h
  obtain ⟨before, rfl⟩ := List.getLast?_eq_some_iff.1 hlast
  obtain ⟨last, hr, hp, hreach⟩ := exists_reaches_extend ⟨.initial, before, 0, []⟩
  have hfollows := follows_of_reaches (hreach c [] hc)
  have hposition : last.position = byteLength before := by
    have := hfollows.extent
    simp only [extend, hr, byteLength_append, List.nil_append] at this
    omega
  have hlen : byteLength (before ++ [c]) = last.position + c.utf8Size := by
    rw [hposition, byteLength_append, byteLength_cons, byteLength_nil, Nat.add_zero]
  obtain ⟨later, hfound, hlater⟩ := hfollows.found
  obtain rfl : last.found = later := hfound.trans (List.append_nil later)
  have hacc : (last.extend [c]).Accounted :=
    hfollows.accounted ⟨Scanner.nested_initial, (accounted_start "").covered, rfl⟩
  refine ⟨last.scanner, last.found, hp, hacc.nested, ?_, fun t ht => ?_, fun rest => ?_⟩
  · have := hacc.balance
    simp only [extend, Scanner.unclosed, hp] at this
    simpa using this
  · have hle : t.offset ≤ last.position := (hlater t ht).2
    have hpos := c.utf8Size_pos
    omega
  · rw [hlen, List.append_assoc]
    refine (hreach c rest hc).tail ?_
    rw [extend, hr]
    exact next?_solid hp hc last.found

end Stage
end GrammarLoader.Layout
