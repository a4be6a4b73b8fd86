import GrammarLoader.Proofs.Layout.BlankItems
import GrammarLoader.Proofs.Layout.Loop
import GrammarLoader.Proofs.Layout.Stack

/-! One call of the scanner, told by the text in front of it. The rules say what is due, what the
longest blanks are and which token their margin gives; no two of them apply to the same call, and
one of them always does. -/

namespace GrammarLoader.Layout

/-- The lexer has stopped in front of `more` at a byte offset, where its token is empty and ends. -/
structure Lexer.StopsAt (l : Lexer) (more : List Char) (offset : Nat) : Prop where
  rest : l.rest = more
  position : l.position = offset
  tokenStart : l.tokenStart = offset
  markedEnd : l.markedEnd = some offset
  tokenRange : l.tokenRange = (offset, offset)

theorem Lexer.stopsAt_iff {l : Lexer} {more : List Char} {offset : Nat} :
    l.StopsAt more offset ↔ l = (startAt more offset).mark := by
  constructor
  · intro h
    obtain ⟨hrest, hposition, hstart, hmarked, -⟩ := h
    cases l
    simp_all [mark, startAt]
  · rintro rfl
    refine ⟨rfl, rfl, rfl, rfl, ?_⟩
    simp [tokenRange, tokenEnd, mark, startAt]

namespace Scanner

/-- The token that is due for blocks that are closed already. -/
inductive Due (s : Scanner) (valid : TokenSet) : Token → Prop
  | newline (hp : s.pending.toNat = 1) (hv : .newline ∈ valid) : Due s valid .newline
  | dedent (hp : 1 < s.pending.toNat) (hv : .dedent ∈ valid) : Due s valid .dedent

/-- The token behind blanks of width `w`, and the scanner after it, if nothing is due. There is a
line feed among the blanks if `line`, and they end the text if `atEnd`. -/
inductive Answers (s : Scanner) (valid : TokenSet) (line : Prop) (w : UInt16) (atEnd : Prop) :
    Option Token → Scanner → Prop
  | indent (hl : line) (hw : s.indent < w) (hv : .indent ∈ valid) :
      Answers s valid line w atEnd (some .indent) { s with levels := w :: s.levels }
  | dedent {closed kept : List UInt16} {pending : UInt16} (hl : line) (hw : w < s.indent)
      (hv : .dedent ∈ valid) (hlevels : s.levels = closed ++ kept) (hclosed : ∀ v ∈ closed, w < v)
      (hkept : ∀ v ∈ kept.head?, v ≤ w) (hp : pending.toNat = min 65535 closed.length) :
      Answers s valid line w atEnd (some .dedent) { s with levels := kept, pending }
  | newline (hl : line) (hi : s.indent < w → .indent ∉ valid) (hd : w < s.indent → .dedent ∉ valid)
      (hv : .newline ∈ valid) : Answers s valid line w atEnd (some .newline) s
  | refused (hl : line) (hi : s.indent < w → .indent ∉ valid) (hd : w < s.indent → .dedent ∉ valid)
      (hn : .newline ∉ valid) : Answers s valid line w atEnd none s
  | ended {v : UInt16} {levels : List UInt16} (hl : ¬line) (he : atEnd) (hv : .dedent ∈ valid)
      (hlevels : s.levels = v :: levels) :
      Answers s valid line w atEnd (some .dedent) { s with levels }
  | inline (hl : ¬line) (h : atEnd → .dedent ∈ valid → s.levels = []) :
      Answers s valid line w atEnd none s

/-- What a call gives for the text `text`, which begins at byte `position`. -/
inductive Prescribed (s : Scanner) (text : List Char) (position : Nat) (valid : TokenSet) :
    Scan → Prop
  | due {t : Token} (h : s.Due valid t) :
      Prescribed s text position valid
        ⟨some t, { s with pending := s.pending - 1 }, .startAt text position⟩
  | broken {items : List BlankItem} {cr : Bool} {more : List Char} (hd : ∀ t, ¬s.Due valid t)
      (hb : LongestBlanks items text (BlankItem.escape cr ++ more))
      (hcr : cr = true ∨ more.head? ≠ some '\r') :
      Prescribed s text position valid ⟨none, { s with pending := 0 },
        .startAt more (position + byteLength (spell items ++ BlankItem.escape cr))⟩
  | read {items : List BlankItem} {rest : List Char} {w : UInt16} {t : Option Token} {s' : Scanner}
      {l : Lexer} (hd : ∀ t, ¬s.Due valid t) (hb : LongestBlanks items text rest)
      (hrest : rest.head? ≠ some '\\') (hw : w.toNat = runWidth (plains items))
      (hl : l.StopsAt rest (position + byteLength (spell items)))
      (ha : Answers { s with pending := 0 } valid ('\n' ∈ plains items) w (rest = []) t s') :
      Prescribed s text position valid ⟨t, s', l⟩

variable {s s' : Scanner} {valid : TokenSet} {t : Option Token} {w : UInt16}

theorem drain?_eq_some_iff {t : Token} :
    s.drain? valid = some (t, s') ↔ s.Due valid t ∧ s' = { s with pending := s.pending - 1 } := by
  have hone : s.pending = 1 ↔ s.pending.toNat = 1 := UInt16.toNat_inj.symm
  have hmore : 1 < s.pending ↔ 1 < s.pending.toNat := UInt16.lt_iff_toNat_lt
  constructor
  · intro h
    unfold drain? at h
    split at h
    · next hn =>
      obtain ⟨rfl, rfl⟩ := by simpa using h
      refine ⟨.newline (hone.1 hn.1) hn.2, ?_⟩
      rw [hn.1]
      rfl
    · split at h
      · next hn =>
        obtain ⟨rfl, rfl⟩ := by simpa using h
        exact ⟨.dedent (hmore.1 hn.1) hn.2, rfl⟩
      · cases h
  · rintro ⟨hdue, rfl⟩
    cases hdue with
    | newline hp hv =>
      have hp := hone.2 hp
      rw [drain?, if_pos ⟨hp, hv⟩, hp]
      rfl
    | dedent hp hv =>
      have hne : ¬(s.pending = 1 ∧ .newline ∈ valid) := fun h => by
        have := hone.1 h.1
        omega
      rw [drain?, if_neg hne, if_pos ⟨hmore.2 hp, hv⟩]

theorem not_due_iff : (∀ t, ¬s.Due valid t) ↔ s.drain? valid = none := by
  rw [Option.eq_none_iff_forall_ne_some]
  constructor
  · rintro h ⟨t, s'⟩ hd
    exact h t (drain?_eq_some_iff.1 hd).1
  · intro h t ht
    exact h _ (drain?_eq_some_iff.2 ⟨ht, rfl⟩)

theorem dropWhile_closed {closed kept : List UInt16} (hclosed : ∀ v ∈ closed, w < v)
    (hkept : ∀ v ∈ kept.head?, v ≤ w) : (closed ++ kept).dropWhile (w < ·) = kept := by
  rw [List.dropWhile_append_of_pos fun v hv => decide_eq_true (hclosed v hv)]
  cases kept with
  | nil => rfl
  | cons v kept =>
    have hle : ¬w < v := UInt16.not_lt.2 (hkept v rfl)
    rw [List.dropWhile_cons, if_neg (mt of_decide_eq_true hle)]

theorem closeBlocks_append {closed kept : List UInt16} (hlevels : s.levels = closed ++ kept)
    (hclosed : ∀ v ∈ closed, w < v) (hkept : ∀ v ∈ kept.head?, v ≤ w) :
    s.closeBlocks w =
      { s with levels := kept, pending := UInt16.ofNat (min 65535 closed.length) } := by
  have hdrop : s.levels.dropWhile (w < ·) = kept := by
    rw [hlevels, dropWhile_closed hclosed hkept]
  have hlength : s.levels.length - kept.length = closed.length := by
    rw [hlevels, List.length_append, Nat.add_sub_cancel]
  simp only [closeBlocks, hdrop, hlength]
  rfl

/-- The blocks that a line of width `w` closes are the innermost ones that are wider. -/
theorem exists_closed (s : Scanner) (w : UInt16) :
    ∃ closed kept, s.levels = closed ++ kept ∧ (∀ v ∈ closed, w < v) ∧
      ∀ v ∈ kept.head?, v ≤ w := by
  refine ⟨s.levels.takeWhile (w < ·), s.levels.dropWhile (w < ·),
    List.takeWhile_append_dropWhile.symm, fun v hv => ?_, fun v hv => ?_⟩
  · have hwider := List.mem_takeWhile_imp hv
    exact of_decide_eq_true hwider
  · have hfalse := List.head?_dropWhile_not (fun v => decide (w < v)) s.levels
    rw [Option.mem_def.1 hv] at hfalse
    exact UInt16.not_lt.1 (of_decide_eq_false hfalse)

section
variable {line atEnd : Prop}

theorem answers_startLine (hl : line) :
    s.Answers valid line w atEnd (s.startLine w valid).1 (s.startLine w valid).2 := by
  unfold startLine
  split
  · next hi => exact .indent hl hi.2 hi.1
  · next hi =>
    split
    · next hd =>
      obtain ⟨closed, kept, hlevels, hclosed, hkept⟩ := s.exists_closed w
      rw [closeBlocks_append hlevels hclosed hkept]
      exact .dedent hl hd.2 hd.1 hlevels hclosed hkept (toNat_counted _)
    · next hd =>
      have hi : s.indent < w → .indent ∉ valid := fun hw hv => hi ⟨hv, hw⟩
      have hd : w < s.indent → .dedent ∉ valid := fun hw hv => hd ⟨hv, hw⟩
      split
      · next hv => exact .newline hl hi hd hv
      · next hv => exact .refused hl hi hd hv

theorem answers_finish (hl : ¬line) (he : atEnd) :
    s.Answers valid line w atEnd (s.finish valid).1 (s.finish valid).2 := by
  unfold finish
  split
  · next hlevels =>
    split
    · next hv => exact .ended hl he hv hlevels
    · next hv => exact .inline hl fun _ h => absurd h hv
  · next hlevels => exact .inline hl fun _ _ => hlevels

theorem answers_place (s : Scanner) (m : Margin) (atEnd : Bool) (valid : TokenSet) :
    s.Answers valid (m.newLine = true) m.width (atEnd = true) (s.place m atEnd valid).1
      (s.place m atEnd valid).2 := by
  unfold place
  split
  · next hl => exact answers_startLine hl
  · next hl =>
    split
    · next he => exact answers_finish hl he
    · next he => exact .inline hl fun h => absurd h he

end

theorem Answers.place_eq {m : Margin} {atEnd : Bool}
    (h : s.Answers valid (m.newLine = true) m.width (atEnd = true) t s') :
    s.place m atEnd valid = (t, s') := by
  unfold place
  cases h with
  | indent hl hw hv =>
    rw [if_pos hl, startLine, if_pos ⟨hv, hw⟩]
    rfl
  | @dedent closed kept pending hl hw hv hlevels hclosed hkept hp =>
    have hi : ¬(.indent ∈ valid ∧ s.indent < m.width) := fun h => UInt16.lt_asymm hw h.2
    have hp : pending = UInt16.ofNat (min 65535 closed.length) :=
      UInt16.toNat_inj.1 (hp.trans (toNat_counted _).symm)
    rw [if_pos hl, startLine, if_neg hi, if_pos ⟨hv, hw⟩,
      closeBlocks_append hlevels hclosed hkept, hp]
  | newline hl hi hd hv =>
    rw [if_pos hl, startLine, if_neg fun h => hi h.2 h.1, if_neg fun h => hd h.2 h.1, if_pos hv]
  | refused hl hi hd hn =>
    rw [if_pos hl, startLine, if_neg fun h => hi h.2 h.1, if_neg fun h => hd h.2 h.1, if_neg hn]
  | ended hl he hv hlevels => simp [hl, he, finish, hlevels, hv]
  | inline hl h =>
    rw [if_neg hl]
    split
    · next he =>
      cases hlevels : s.levels with
      | nil => simp [finish, hlevels]
      | cons v levels =>
        have hv : .dedent ∉ valid := fun hv => by simp [h he hv] at hlevels
        simp [finish, hlevels, hv]
    · rfl

theorem scan_of_due {t : Token} (h : s.Due valid t) (l : Lexer) :
    s.scan l valid = ⟨some t, { s with pending := s.pending - 1 }, l⟩ := by
  unfold scan
  rw [drain?_eq_some_iff.2 ⟨h, rfl⟩]

theorem scan_of_broken (hd : s.drain? valid = none) {text : List Char} {position : Nat}
    (hm : (readBlanks .start position text).margin = none) :
    s.scan (.startAt text position) valid =
      ⟨none, { s with pending := 0 },
        .startAt (readBlanks .start position text).rest (readBlanks .start position text).position⟩
    := by
  unfold scan
  rw [hd, Lexer.skipBlanks_startAt, hm]

variable {text rest : List Char} {items : List BlankItem} {position : Nat}

theorem scan_of_longestBlanks (hd : s.drain? valid = none) (hb : LongestBlanks items text rest)
    (hrest : rest.head? ≠ some '\\') (position : Nat) :
    s.scan (.startAt text position) valid =
      ⟨(place { s with pending := 0 } (.ofRun (plains items)) rest.isEmpty valid).1,
        (place { s with pending := 0 } (.ofRun (plains items)) rest.isEmpty valid).2,
        (Lexer.startAt rest (position + byteLength (spell items))).mark⟩ := by
  have hread := hb.readBlanks hrest position
  have hm : (readBlanks .start position text).margin = some (.ofRun (plains items)) := by
    rw [hread]
  rw [Lexer.scan_startAt hd hm, hread]

theorem prescribed_broken (hd : s.drain? valid = none) {more : List Char}
    (hb : LongestBlanks items text ('\\' :: more)) :
    s.Prescribed text position valid (s.scan (.startAt text position) valid) := by
  obtain ⟨cr, behind, hmore, hcr⟩ := BlankItem.exists_escape more
  rw [hmore] at hb
  have hread := hb.readBlanks_broken hcr position
  rw [scan_of_broken hd (by rw [hread]), hread]
  exact .broken (not_due_iff.2 hd) hb hcr

theorem prescribed_read (hd : s.drain? valid = none) (hb : LongestBlanks items text rest)
    (hrest : rest.head? ≠ some '\\') :
    s.Prescribed text position valid (s.scan (.startAt text position) valid) := by
  have hanswer := answers_place { s with pending := 0 } (.ofRun (plains items)) rest.isEmpty valid
  rw [propext (Margin.newLine_ofRun _), propext List.isEmpty_iff] at hanswer
  rw [scan_of_longestBlanks hd hb hrest]
  exact .read (not_due_iff.2 hd) hb hrest (Margin.width_ofRun hb.itemized.isBlank_plains)
    (Lexer.stopsAt_iff.2 rfl) hanswer

theorem prescribed_scan (s : Scanner) (text : List Char) (position : Nat) (valid : TokenSet) :
    s.Prescribed text position valid (s.scan (.startAt text position) valid) := by
  cases hd : s.drain? valid with
  | some found =>
    obtain ⟨t, s'⟩ := found
    have hdue := (drain?_eq_some_iff.1 hd).1
    rw [scan_of_due hdue]
    exact .due hdue
  | none =>
    obtain ⟨items, rest, hb⟩ := exists_longestBlanks text
    by_cases hrest : rest.head? = some '\\'
    · obtain ⟨more, rfl⟩ := List.head?_eq_some_iff.1 hrest
      exact prescribed_broken hd hb
    · exact prescribed_read hd hb hrest

theorem Prescribed.scan_eq {r : Scan} (h : s.Prescribed text position valid r) :
    s.scan (.startAt text position) valid = r := by
  cases h with
  | due hdue => exact scan_of_due hdue _
  | broken hd hb hcr =>
    have hread := hb.readBlanks_broken hcr position
    rw [scan_of_broken (not_due_iff.1 hd) (by rw [hread]), hread]
  | @read items rest w t s' l hd hb hrest hw hl ha =>
    have hwidth : w = (Margin.ofRun (plains items)).width := UInt16.toNat_inj.1
      (hw.trans (Margin.width_ofRun hb.itemized.isBlank_plains).symm)
    rw [hwidth, ← propext (Margin.newLine_ofRun _), ← propext List.isEmpty_iff] at ha
    rw [scan_of_longestBlanks (not_due_iff.1 hd) hb hrest, ha.place_eq, Lexer.stopsAt_iff.1 hl]

end Scanner

/-- Seeking an offset skips characters as long as they end at or before it. -/
theorem Lexer.exists_seek {offset : Nat} (cs : List Char) {position : Nat} (hle : position ≤ offset) :
    ∃ before rest, cs = before ++ rest ∧ position + byteLength before ≤ offset ∧
      (∀ c ∈ rest.head?, offset < position + byteLength before + c.utf8Size) ∧
      seek offset position cs = startAt rest (position + byteLength before) := by
  induction cs generalizing position with
  | nil => exact ⟨[], [], rfl, hle, by simp, rfl⟩
  | cons c cs ih =>
    by_cases hc : position + c.utf8Size ≤ offset
    · obtain ⟨before, rest, rfl, hbefore, hnext, hseek⟩ := ih hc
      refine ⟨c :: before, rest, rfl, ?_, ?_, ?_⟩
      · rwa [byteLength_cons, ← Nat.add_assoc]
      · rwa [byteLength_cons, ← Nat.add_assoc]
      · rw [seek, if_pos hc, hseek, byteLength_cons, Nat.add_assoc]
    · refine ⟨[], c :: cs, rfl, hle, ?_, ?_⟩
      · rintro d hd
        obtain rfl := Option.some.inj hd
        exact Nat.not_le.1 hc
      · rw [seek, if_neg hc]
        rfl

theorem Lexer.exists_ofText (text : String) (offset : Nat) :
    ∃ before rest, text.toList = before ++ rest ∧ byteLength before ≤ offset ∧
      (∀ c ∈ rest.head?, offset < byteLength before + c.utf8Size) ∧
      ofText text offset = startAt rest (byteLength before) := by
  obtain ⟨before, rest, htext, hbefore, hnext, hseek⟩ :=
    exists_seek text.toList (Nat.zero_le offset)
  simp only [Nat.zero_add] at hbefore hnext hseek
  exact ⟨before, rest, htext, hbefore, hnext, hseek⟩

/-- A call at an offset of a text does what the rules say for the text from there on, and nothing
else. -/
theorem Scanner.scan_prescribed (s : Scanner) (text : String) (offset : Nat) (valid : TokenSet) :
    ∃ before rest, text.toList = before ++ rest ∧ byteLength before ≤ offset ∧
      (∀ c ∈ rest.head?, offset < byteLength before + c.utf8Size) ∧
      Lexer.ofText text offset = .startAt rest (byteLength before) ∧
      ∀ r, s.scan (.ofText text offset) valid = r ↔
        s.Prescribed rest (byteLength before) valid r := by
  obtain ⟨before, rest, htext, hbefore, hnext, hlexer⟩ := Lexer.exists_ofText text offset
  refine ⟨before, rest, htext, hbefore, hnext, hlexer, fun r => ?_⟩
  rw [hlexer]
  constructor
  · rintro rfl
    exact prescribed_scan s rest (byteLength before) valid
  · exact Prescribed.scan_eq

end GrammarLoader.Layout
