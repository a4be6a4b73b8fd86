import GrammarLoader.Proofs.Layout.BlankItems
import GrammarLoader.Proofs.Layout.Lines
import GrammarLoader.Proofs.Layout.Respelling

/-! Where the tokens of a text stand. The scan never leaves the boundaries between characters. Each
line has one group of tokens, behind blanks with a line feed among them, and each group stands
further on than the one before it. The end of the text may have a group like any other line, and
then a dedent for each block that is still open. -/

namespace GrammarLoader.Layout

open StateTransition (Reaches)

/-- A lexer at the end of some of the characters of a text stands in front of the others. -/
theorem Lexer.ofText_byteLength {text : String} {before rest : List Char}
    (h : text.toList = before ++ rest) :
    ofText text (byteLength before) = startAt rest (byteLength before) := by
  have walk (position : Nat) :
      seek (position + byteLength before) position (before ++ rest) =
        startAt rest (position + byteLength before) := by
    clear h
    induction before generalizing position with
    | nil =>
      cases rest with
      | nil => rfl
      | cons c rest =>
        have hpos := c.utf8Size_pos
        exact if_neg (by rw [byteLength_nil]; omega)
    | cons c before ih =>
      rw [byteLength_cons, ← Nat.add_assoc, List.cons_append, seek,
        if_pos (Nat.le_add_right _ _), ih]
  have hwalk := walk 0
  rw [Nat.zero_add] at hwalk
  rw [ofText, h, hwalk]

/-- The kinds of the tokens of one line. -/
inductive LineTokens : List Token → Prop
  | indent : LineTokens [.indent]
  | newline : LineTokens [.newline]
  | dedents (more : Nat) : LineTokens (List.replicate (more + 1) .dedent ++ [.newline])

/-- In front of the offset there are blanks with a line feed, and behind it there are no more. -/
def BeginsLine (text : List Char) (offset : Nat) : Prop :=
  ∃ before items rest, before ++ (spell items ++ rest) = text ∧
    byteLength (before ++ spell items) = offset ∧ Itemized items rest ∧ '\n' ∈ plains items ∧
      ∀ c ∈ rest.head?, Solid c

/-- The tokens that a scan finds behind an offset: those of one line after the other, and at the end
of the text the dedents for open blocks. -/
inductive LineByLine (text : List Char) : Nat → List ScannedToken → Prop
  | atEnd {offset : Nat} (hle : offset ≤ byteLength text) (blocks : Nat) :
      LineByLine text offset (List.replicate blocks ⟨.dedent, byteLength text⟩)
  | line {offset next : Nat} {kinds : List Token} {ts : List ScannedToken} (hlt : offset < next)
      (hnext : BeginsLine text next) (hkinds : LineTokens kinds) (hts : LineByLine text next ts) :
      LineByLine text offset (kinds.map (⟨·, next⟩) ++ ts)

/-- What is known of the places of the tokens of a text. -/
structure Placed (text : List Char) (ts : List ScannedToken) : Prop where
  ascending : ts.Pairwise (·.offset ≤ ·.offset)
  inFront : ∀ t ∈ ts, t.offset = byteLength text ∨
    ∃ before c rest, before ++ c :: rest = text ∧ byteLength before = t.offset ∧ Solid c
  oneLine : ∀ t ∈ ts, t.offset < byteLength text → LineTokens (tokensAt ts t.offset)
  behind : ∀ t ∈ ts, t.offset < byteLength text →
    ∃ before items rest, before ++ (spell items ++ rest) = text ∧
      byteLength (before ++ spell items) = t.offset ∧ Itemized items rest ∧ '\n' ∈ plains items
  atEnd : ∃ line blocks, (line = [] ∨ LineTokens line) ∧
    tokensAt ts (byteLength text) = line ++ List.replicate blocks .dedent

theorem lineTokens_outlineLine (stack : List Nat) (w offset : Nat) :
    ∃ kinds, LineTokens kinds ∧ (outlineLine stack w offset).1 = kinds.map (⟨·, offset⟩) := by
  unfold outlineLine
  split
  · exact ⟨_, .indent, rfl⟩
  · next hwider =>
    split
    · exact ⟨_, .newline, rfl⟩
    · next hsame =>
      obtain ⟨more, hmore⟩ : ∃ more,
          stack.length - (stack.dropWhile (w < ·)).length = more + 1 := by
        cases stack with
        | nil =>
          rw [List.headD_nil] at hwider hsame
          omega
        | cons top stack =>
          rw [List.headD_cons] at hwider hsame
          have hle := (List.dropWhile_suffix (l := stack) (decide <| w < ·)).length_le
          rw [List.dropWhile_cons, if_pos (decide_eq_true (by omega)), List.length_cons]
          exact ⟨stack.length - (stack.dropWhile (w < ·)).length, by omega⟩
      refine ⟨_, .dedents more, ?_⟩
      dsimp only
      rw [hmore, List.map_append, List.map_replicate]
      rfl

theorem tokensAt_map (kinds : List Token) (offset : Nat) :
    tokensAt (kinds.map (⟨·, offset⟩)) offset = kinds := by
  simp [tokensAt, List.filter_map, Function.comp_def]

theorem tokensAt_map_of_ne (kinds : List Token) {offset other : Nat} (h : offset ≠ other) :
    tokensAt (kinds.map (⟨·, offset⟩)) other = [] := by
  refine tokensAt_eq_nil fun t ht => ?_
  obtain ⟨kind, -, rfl⟩ := List.mem_map.1 ht
  exact h

theorem byteLength_spell_pos {items : List BlankItem} (h : '\n' ∈ plains items) :
    0 < byteLength (spell items) := by
  cases items with
  | nil => cases h
  | cons item items =>
    obtain ⟨c, more, hchars⟩ :=
      List.exists_cons_of_ne_nil (List.ne_nil_of_length_pos item.length_chars_pos)
    have hpos := c.utf8Size_pos
    rw [spell_cons, hchars, List.cons_append, byteLength_cons]
    omega

theorem BeginsLine.le {text : List Char} {offset : Nat} (h : BeginsLine text offset) :
    offset ≤ byteLength text := by
  obtain ⟨before, items, rest, rfl, rfl, -⟩ := h
  rw [← List.append_assoc, byteLength_append (before ++ spell items)]
  exact Nat.le_add_right _ _

theorem BeginsLine.inFront {text : List Char} {offset : Nat} (h : BeginsLine text offset) :
    offset = byteLength text ∨
      ∃ before c rest, before ++ c :: rest = text ∧ byteLength before = offset ∧ Solid c := by
  obtain ⟨before, items, rest, rfl, rfl, -, -, hsolid⟩ := h
  rw [← List.append_assoc]
  cases rest with
  | nil => exact .inl (by rw [List.append_nil])
  | cons c rest => exact .inr ⟨before ++ spell items, c, rest, rfl, rfl, hsolid c rfl⟩

namespace LineByLine

variable {text : List Char} {offset : Nat} {ts : List ScannedToken}

theorem weaken {earlier : Nat} (hle : earlier ≤ offset) (h : LineByLine text offset ts) :
    LineByLine text earlier ts := by
  cases h with
  | atEnd hend blocks => exact .atEnd (hle.trans hend) blocks
  | line hlt hnext hkinds hts => exact .line (hle.trans_lt hlt) hnext hkinds hts

theorem le_offset (h : LineByLine text offset ts) :
    ∀ t ∈ ts, offset ≤ t.offset ∧ t.offset ≤ byteLength text := by
  induction h with
  | atEnd hle blocks =>
    intro t ht
    rw [List.eq_of_mem_replicate ht]
    exact ⟨hle, le_rfl⟩
  | line hlt hnext _ _ ih =>
    intro t ht
    rcases List.mem_append.1 ht with ht | ht
    · obtain ⟨kind, -, rfl⟩ := List.mem_map.1 ht
      exact ⟨hlt.le, hnext.le⟩
    · exact ⟨hlt.le.trans (ih t ht).1, (ih t ht).2⟩

/-- Within the text the next tokens stand further on. -/
theorem lt_offset (h : LineByLine text offset ts) (hlt : offset < byteLength text) :
    ∀ t ∈ ts, offset < t.offset := by
  cases h with
  | atEnd hle blocks =>
    intro t ht
    rw [List.eq_of_mem_replicate ht]
    exact hlt
  | line hoffset _ _ hts =>
    intro t ht
    rcases List.mem_append.1 ht with ht | ht
    · obtain ⟨kind, -, rfl⟩ := List.mem_map.1 ht
      exact hoffset
    · exact hoffset.trans_le (hts.le_offset t ht).1

theorem eq_replicate (h : LineByLine text (byteLength text) ts) :
    ∃ blocks, ts = List.replicate blocks ⟨.dedent, byteLength text⟩ := by
  cases h with
  | atEnd hle blocks => exact ⟨blocks, rfl⟩
  | line hlt hnext => exact absurd hnext.le (Nat.not_le.2 hlt)

theorem ascending (h : LineByLine text offset ts) : ts.Pairwise (·.offset ≤ ·.offset) := by
  induction h with
  | atEnd hle blocks => exact List.pairwise_replicate.2 (.inr le_rfl)
  | line hlt hnext _ hts ih =>
    refine List.pairwise_append.2 ⟨?_, ih, fun t ht u hu => ?_⟩
    · exact List.pairwise_map.2 (List.pairwise_of_forall fun _ _ => le_rfl)
    · obtain ⟨kind, -, rfl⟩ := List.mem_map.1 ht
      exact (hts.le_offset u hu).1

/-- Each token stands at the beginning of a line, or is a dedent at the end of the text. -/
theorem beginsLine (h : LineByLine text offset ts) :
    ∀ t ∈ ts, t.offset = byteLength text ∨ BeginsLine text t.offset := by
  induction h with
  | atEnd hle blocks =>
    intro t ht
    rw [List.eq_of_mem_replicate ht]
    exact .inl rfl
  | line _ hnext _ _ ih =>
    intro t ht
    rcases List.mem_append.1 ht with ht | ht
    · obtain ⟨kind, -, rfl⟩ := List.mem_map.1 ht
      exact .inr hnext
    · exact ih t ht

theorem oneLine (h : LineByLine text offset ts) :
    ∀ t ∈ ts, t.offset < byteLength text → LineTokens (tokensAt ts t.offset) := by
  induction h with
  | atEnd hle blocks =>
    intro t ht hlt
    rw [List.eq_of_mem_replicate ht] at hlt
    exact absurd hlt (lt_irrefl _)
  | @line offset next kinds ts _ hnext hkinds hts ih =>
    intro t ht hlt
    rw [tokensAt_append]
    rcases List.mem_append.1 ht with ht | ht
    · obtain ⟨kind, -, rfl⟩ := List.mem_map.1 ht
      have hnone : tokensAt ts next = [] :=
        tokensAt_eq_nil fun u hu => (hts.lt_offset hlt u hu).ne'
      rw [tokensAt_map, hnone, List.append_nil]
      exact hkinds
    · have hne : next ≠ t.offset :=
        (hts.lt_offset ((hts.le_offset t ht).1.trans_lt hlt) t ht).ne
      rw [tokensAt_map_of_ne kinds hne, List.nil_append]
      exact ih t ht hlt

theorem tokensAt_end (h : LineByLine text offset ts) :
    ∃ line blocks, (line = [] ∨ LineTokens line) ∧
      tokensAt ts (byteLength text) = line ++ List.replicate blocks .dedent := by
  have hdedents (blocks : Nat) :
      tokensAt (List.replicate blocks ⟨.dedent, byteLength text⟩) (byteLength text) =
        List.replicate blocks .dedent := by
    have hmap := tokensAt_map (List.replicate blocks .dedent) (byteLength text)
    rwa [List.map_replicate] at hmap
  induction h with
  | atEnd hle blocks => exact ⟨[], blocks, .inl rfl, hdedents blocks⟩
  | @line offset next kinds ts _ hnext hkinds hts ih =>
    rw [tokensAt_append]
    rcases hnext.le.eq_or_lt with rfl | hlt
    · obtain ⟨blocks, rfl⟩ := hts.eq_replicate
      exact ⟨kinds, blocks, .inr hkinds, by rw [tokensAt_map, hdedents]⟩
    · rw [tokensAt_map_of_ne kinds hlt.ne, List.nil_append]
      exact ih

theorem placed (h : LineByLine text offset ts) : Placed text ts where
  ascending := h.ascending
  inFront t ht := (h.beginsLine t ht).elim .inl BeginsLine.inFront
  oneLine := h.oneLine
  behind := by
    intro t ht hlt
    obtain ⟨before, items, rest, htext, hoffset, hitems, hlf, -⟩ :=
      (h.beginsLine t ht).resolve_left hlt.ne
    exact ⟨before, items, rest, htext, hoffset, hitems, hlf⟩
  atEnd := h.tokensAt_end

end LineByLine

/-- On the line of the last character that was read there can only be the end of a block, at the end
of the text. -/
theorem Scanner.ahead?_inline {s s' : Scanner} {m : Margin} {atEnd : Bool} {t : Token}
    (hm : m.newLine = false) (h : s.ahead? (some m) atEnd = some (t, s')) :
    atEnd = true ∧ t = .dedent ∧ s'.pending = s.pending := by
  unfold ahead? place at h
  simp only [hm, Bool.false_eq_true, if_false] at h
  cases atEnd with
  | false => cases h
  | true =>
    simp only [if_true, finish] at h
    cases hl : s.levels with
    | nil => simp [hl] at h
    | cons w levels =>
      rw [hl] at h
      obtain ⟨rfl, rfl⟩ := by simpa using h
      exact ⟨rfl, rfl, rfl⟩

namespace Stage

variable {text : List Char} {g : Stage}

theorem Inside.exists_before (h : g.Inside text) :
    ∃ before, before ++ g.rest = text ∧ byteLength before = g.position := by
  obtain ⟨before, hbefore⟩ := h.rest
  refine ⟨before, hbefore, ?_⟩
  have hextent := h.extent
  rw [← hbefore, byteLength_append] at hextent
  omega

theorem exists_items {m : Margin} (hm : g.ahead.margin = some m) :
    ∃ items, LongestBlanks items g.rest g.ahead.rest ∧
      g.ahead.position = g.position + byteLength (spell items) ∧
        (m.newLine = true ↔ '\n' ∈ plains items) ∧ ∀ c ∈ g.ahead.rest.head?, Solid c := by
  obtain ⟨items, rest, hb⟩ := exists_longestBlanks g.rest
  by_cases hrest : rest.head? = some '\\'
  · obtain ⟨more, rfl⟩ := List.head?_eq_some_iff.1 hrest
    obtain ⟨cr, behind, hmore, hcr⟩ := BlankItem.exists_escape more
    rw [hmore] at hb
    have hahead : g.ahead = _ := hb.readBlanks_broken hcr g.position
    rw [hahead] at hm
    cases hm
  · have hahead : g.ahead = _ := hb.readBlanks hrest g.position
    rw [hahead] at hm ⊢
    obtain rfl := Option.some.inj hm
    refine ⟨items, hb, rfl, Margin.newLine_ofRun _, fun c hc => ⟨hb.not_isBlank c hc, ?_⟩⟩
    rintro rfl
    exact hrest hc

/-- A margin on a new line is read up to the beginning of a line. -/
theorem Inside.beginsLine (h : g.Inside text) {m : Margin} (hm : g.ahead.margin = some m)
    (hlf : m.newLine = true) : BeginsLine text g.ahead.position ∧ g.position < g.ahead.position := by
  obtain ⟨before, htext, hposition⟩ := h.exists_before
  obtain ⟨items, hb, hahead, hplain, hsolid⟩ := exists_items hm
  have hpos := byteLength_spell_pos (hplain.1 hlf)
  refine ⟨⟨before, items, g.ahead.rest, ?_, ?_, hb.itemized, hplain.1 hlf, hsolid⟩, by omega⟩
  · rw [hb.split, htext]
  · rw [byteLength_append, hposition, hahead]

theorem tokens_run_atEnd (hn : g.scanner.Nested) (hp : g.scanner.pending = 0) (hr : g.rest = []) :
    g.run.tokens = g.found.reverse ++ List.replicate g.scanner.depth ⟨.dedent, g.position⟩ := by
  rw [tokens_run hn (by simp [hr]), expected, Scanner.dues, if_pos hp, hr, outlineFrom_nil,
    Scanner.length_stack, List.append_nil, Nat.add_sub_cancel]

/-- On a new line the tokens of one line are found, and then nothing is pending. -/
theorem exists_reaches_lineTokens (hn : g.scanner.Nested) (hp : g.scanner.pending = 0) {m : Margin}
    (hm : g.ahead.margin = some m) (hlf : m.newLine = true) :
    ∃ s' kinds, LineTokens kinds ∧ s'.pending = 0 ∧ Reaches next? g
      ⟨s', g.ahead.rest, g.ahead.position,
        (kinds.map (⟨·, g.ahead.position⟩)).reverse ++ g.found⟩ := by
  have hread : readBlanks .start g.position g.rest = ⟨some m, g.ahead.position, g.ahead.rest⟩ := by
    rw [← hm]
    rfl
  obtain ⟨s', hp', -, hreach⟩ := exists_reaches_line hp hn hread hlf g.found
  obtain ⟨kinds, hkinds, hline⟩ :=
    lineTokens_outlineLine g.scanner.stack m.width.toNat g.ahead.position
  rw [hline] at hreach
  exact ⟨s', kinds, hkinds, hp', hreach⟩

/-- The end of a block on the line of the last character is the first of the dedents at the end. -/
theorem tokens_run_inline (hg : g.Inside text) (hacc : g.Accounted) (hp : g.scanner.pending = 0)
    {m : Margin} (hm : g.ahead.margin = some m) (hlf : m.newLine = false) {t : Token} {s : Scanner}
    (ha : g.scanner.ahead? g.ahead.margin g.ahead.rest.isEmpty = some (t, s)) :
    g.run.tokens =
      g.found.reverse ++ List.replicate (s.depth + 1) ⟨.dedent, byteLength text⟩ := by
  have hnext := next?_found hp ha
  rw [hm] at ha
  obtain ⟨hempty, rfl, hp'⟩ := Scanner.ahead?_inline hlf ha
  have hrest := List.isEmpty_iff.1 hempty
  have hend : g.ahead.position = byteLength text := by simpa [hrest] using (inside_ahead hg).2
  rw [run_of_next? hnext, tokens_run_atEnd (hacc.next? hnext).nested (hp'.trans hp) hrest, hend,
    List.replicate_succ, List.reverse_cons, List.append_assoc]
  rfl

/-- From a stage where nothing is pending the scan goes on line by line. -/
theorem exists_lineByLine (hg : g.Inside text) (hacc : g.Accounted) (hp : g.scanner.pending = 0) :
    ∃ ts, g.run.tokens = g.found.reverse ++ ts ∧ LineByLine text g.position ts := by
  -- the blanks in front of a line are read as a whole, so the induction is on the length
  induction hlen : g.rest.length using Nat.strongRecOn generalizing g with
  | ind n ih =>
    subst hlen
    have hle : g.position ≤ byteLength text := Nat.le.intro hg.extent
    cases hr : g.rest with
    | nil =>
      have hend : g.position = byteLength text := by simpa [hr] using hg.extent
      refine ⟨_, tokens_run_atEnd hacc.nested hp hr, ?_⟩
      rw [hend]
      exact .atEnd le_rfl _
    | cons c rest =>
      cases ha : g.scanner.ahead? g.ahead.margin g.ahead.rest.isEmpty with
      | none =>
        have hnext := next?_declined hp ha hr
        obtain ⟨ts, htokens, hts⟩ := ih rest.length (by rw [hr]; exact Nat.lt_succ_self _)
          (hg.next? hnext) (hacc.next? hnext) hp rfl
        refine ⟨ts, ?_, hts.weaken (Nat.le_add_right _ _)⟩
        rw [run_of_next? hnext, htokens]
      | some found =>
        cases hm : g.ahead.margin with
        | none =>
          rw [hm] at ha
          cases ha
        | some m =>
          by_cases hlf : m.newLine = true
          · obtain ⟨hbegins, hlt⟩ := hg.beginsLine hm hlf
            obtain ⟨s', kinds, hkinds, hp', hreach⟩ :=
              exists_reaches_lineTokens hacc.nested hp hm hlf
            obtain ⟨hrest, hextent⟩ := inside_ahead hg
            obtain ⟨ts, htokens, hts⟩ := ih _ (length_rest_readBlanks_lt rfl hm hlf)
              (g := ⟨s', g.ahead.rest, g.ahead.position, _⟩) ⟨hrest, hextent⟩
              ((follows_of_reaches hreach).accounted hacc) hp' rfl
            refine ⟨kinds.map (⟨·, g.ahead.position⟩) ++ ts, ?_, .line hlt hbegins hkinds hts⟩
            rw [run_of_reaches hreach, htokens, List.reverse_append, List.reverse_reverse,
              List.append_assoc]
          · exact ⟨_, tokens_run_inline hg hacc hp hm (Bool.eq_false_iff.2 hlf) ha, .atEnd hle _⟩

theorem inside_of_reaches {g' : Stage} (h : Reaches next? g g') (hg : g.Inside text) :
    g'.Inside text := by
  induction h with
  | refl => exact hg
  | tail _ hstep ih => exact ih.next? hstep

end Stage

/-- The scan of a text stands at boundaries between characters throughout, and leaves its tokens in
ascending order: in front of each line that has any, those of one line. -/
theorem scanAll_placed (text : String) :
    (∀ g, Reaches Stage.next? (.start text) g →
      g.position ≤ byteLength text.toList ∧
      (∃ before, before ++ g.rest = text.toList ∧ byteLength before = g.position) ∧
      Lexer.ofText text g.position = .startAt g.rest g.position) ∧
    (∃ last, Reaches Stage.next? (.start text) last ∧ last.next? = none ∧
      scanAll text = last.found.reverse) ∧
    Placed text.toList (scanAll text) := by
  refine ⟨fun g hreach => ?_, ?_, ?_⟩
  · have hg := Stage.inside_of_reaches hreach (Stage.inside_start text)
    obtain ⟨before, htext, hposition⟩ := hg.exists_before
    refine ⟨Nat.le.intro hg.extent, ⟨before, htext, hposition⟩, ?_⟩
    rw [← hposition]
    exact Lexer.ofText_byteLength htext.symm
  · obtain ⟨last, hreach, hend⟩ := (Stage.start text).exists_end
    refine ⟨last, hreach, hend, ?_⟩
    rw [scanAll, ← Stage.run_start, Stage.run_of_reaches hreach, Stage.run_of_next?_none hend]
    rfl
  · obtain ⟨ts, htokens, hts⟩ := Stage.exists_lineByLine (Stage.inside_start text)
      (Stage.accounted_start text) rfl
    have hscan : scanAll text = ts := by
      rw [scanAll, ← Stage.run_start, htokens]
      rfl
    rw [hscan]
    exact hts.placed

end GrammarLoader.Layout
