import GrammarLoader.Proofs.Layout.Turns

/-! Texts that spell a blank differently: a line feed with a carriage return in front of it, a tab
as four spaces. The scan of such a text makes more turns, since it begins anew inside of what stands
for one character, but what it reads from there has the same lines, so it finds the same tokens. -/

namespace GrammarLoader.Layout

open StateTransition (Reaches)

/-- The characters of a text, but `ys` for each `x`. -/
def spelled (x : Char) (ys text : List Char) : List Char :=
  text.flatMap fun c => if c = x then ys else [c]

def respell (x : Char) (ys text : String) : String :=
  .ofList (spelled x ys.toList text.toList)

def charsBefore (offset : Nat) : List Char → List Char
  | [] => []
  | c :: rest => if offset = 0 then [] else c :: charsBefore (offset - c.utf8Size) rest

theorem charsBefore_append (done rest : List Char) :
    charsBefore (byteLength done) (done ++ rest) = done := by
  induction done with
  | nil => cases rest <;> rfl
  | cons c done ih =>
    have hpos := c.utf8Size_pos
    have hne : c.utf8Size + byteLength done ≠ 0 := by omega
    rw [List.cons_append, byteLength_cons, charsBefore, if_neg hne, Nat.add_sub_cancel_left, ih]

/-- The text behind a line continuation whose backslash stands in front of `rest`. -/
def continued? : List Char → Option (List Char)
  | [] => some []
  | '\n' :: rest => some rest
  | ['\r'] => some []
  | '\r' :: '\n' :: rest => some rest
  | _ => none

theorem continued?_suffix {rest more : List Char} (h : continued? rest = some more) :
    more <:+ rest := by
  unfold continued? at h
  split at h <;> simp_all [List.suffix_cons_iff]

theorem readBlanks_continued {rest more : List Char} (h : continued? rest = some more) (m : Margin)
    (position : Nat) : ∃ after, readBlanks m position ('\\' :: rest) = readBlanks m after more := by
  unfold continued? at h
  split at h
  · obtain rfl := Option.some.inj h
    exact ⟨position + 1, rfl⟩
  · obtain rfl := Option.some.inj h
    exact ⟨position + 2, rfl⟩
  · obtain rfl := Option.some.inj h
    exact ⟨position + 2, rfl⟩
  · obtain rfl := Option.some.inj h
    exact ⟨position + 3, rfl⟩
  · cases h

theorem margin_readBlanks_broken {rest : List Char} (h : continued? rest = none) (m : Margin)
    (position : Nat) : (readBlanks m position ('\\' :: rest)).margin = none := by
  cases rest with
  | nil => cases h
  | cons c rest =>
    by_cases hlf : c = '\n'
    · subst hlf
      cases h
    by_cases hcr : c = '\r'
    · subst hcr
      cases rest with
      | nil => cases h
      | cons d rest =>
        have hd : d ≠ '\n' := by rintro rfl; cases h
        simp [readBlanks, hd]
    · simp [readBlanks, hlf, hcr]

theorem readBlanks_blanks {run : List Char} (h : ∀ c ∈ run, isBlank c = true) (m : Margin)
    (position : Nat) (rest : List Char) :
    readBlanks m position (run ++ rest) =
      readBlanks (run.foldl Margin.past m) (position + byteLength run) rest := by
  induction run generalizing m position with
  | nil => rfl
  | cons c run ih =>
    obtain ⟨hc, hrun⟩ := List.forall_mem_cons.1 h
    rw [List.cons_append, readBlanks_cons hc, ih hrun, byteLength_cons, Nat.add_assoc]
    rfl

/-- How far blanks are read depends on none of the margin before them, and neither does whether a
line begins in them that has not begun before. -/
theorem readBlanks_newLine (m m' : Margin) (h : m.newLine = m'.newLine)
    (position position' : Nat) (text : List Char) :
    (readBlanks m position text).margin.map (·.newLine) =
        (readBlanks m' position' text).margin.map (·.newLine) ∧
      (readBlanks m position text).rest = (readBlanks m' position' text).rest := by
  fun_induction readBlanks m position text generalizing m' position' with
  | case1 m position text ih => exact ih m'.lineFeed rfl (position' + 1)
  | case2 m position text ih => exact ih (m'.widen 1) h (position' + 1)
  | case3 m position text ih => exact ih (m'.widen Margin.tabWidth) h (position' + 1)
  | case4 m position text ih | case5 m position text ih => exact ih m'.rewind h (position' + 1)
  | case6 m position text ih => exact ih m' h (position' + 2)
  | case7 m position text ih => exact ih m' h (position' + 3)
  | case8 | case9 | case10 | case11 | case12 => simp_all [readBlanks]

variable {x : Char} {ys text : List Char}

theorem spelled_cons (c : Char) (rest : List Char) :
    spelled x ys (c :: rest) = (if c = x then ys else [c]) ++ spelled x ys rest :=
  List.flatMap_cons

@[simp] theorem spelled_append (done rest : List Char) :
    spelled x ys (done ++ rest) = spelled x ys done ++ spelled x ys rest :=
  List.flatMap_append

/-- The other spelling of a text has the same blanks and the same line continuations. -/
structure Transparent (x : Char) (ys text : List Char) : Prop where
  blank : isBlank x = true
  blanks : ∀ c ∈ ys, isBlank c = true
  ne_nil : ys ≠ []
  margin : ∀ m : Margin, ys.foldl Margin.past m = m.past x
  newLine : ∀ part ∈ ys.tails, part ≠ [] →
    (part.foldl Margin.past .start).newLine = (Margin.start.past x).newLine
  continued : ∀ rest, rest <:+ text →
    continued? (spelled x ys rest) = (continued? rest).map (spelled x ys)

namespace Transparent

theorem isEmpty_spelled (h : Transparent x ys text) (rest : List Char) :
    (spelled x ys rest).isEmpty = rest.isEmpty := by
  cases rest with
  | nil => rfl
  | cons c rest =>
    rw [spelled_cons]
    split <;> simp [h.ne_nil]

theorem readBlanks_blank (h : Transparent x ys text) {c : Char} (hc : isBlank c = true)
    (m : Margin) (position position' : Nat) (rest : List Char) :
    ∃ after after', readBlanks m position (c :: rest) = readBlanks (m.past c) after rest ∧
      readBlanks m position' (spelled x ys (c :: rest)) =
        readBlanks (m.past c) after' (spelled x ys rest) := by
  rw [spelled_cons]
  by_cases hx : c = x
  · subst hx
    rw [if_pos rfl, readBlanks_blanks h.blanks, h.margin]
    exact ⟨_, _, readBlanks_cons hc m position rest, rfl⟩
  · rw [if_neg hx]
    exact ⟨_, _, readBlanks_cons hc m position rest, readBlanks_cons hc m position' _⟩

/-- The blanks of a text have the same margin in the other spelling, and end at the same place. -/
theorem readBlanks_spelled (h : Transparent x ys text) {rest : List Char} (hs : rest <:+ text)
    (m : Margin) (position position' : Nat) :
    (readBlanks m position' (spelled x ys rest)).margin = (readBlanks m position rest).margin ∧
      ((readBlanks m position rest).margin ≠ none →
        (readBlanks m position' (spelled x ys rest)).rest =
          spelled x ys (readBlanks m position rest).rest) := by
  -- a continuation is read as a whole, so the induction is on the length
  induction hlen : rest.length using Nat.strongRecOn generalizing rest m position position' with
  | ind n ih =>
    subst hlen
    cases rest with
    | nil => exact ⟨rfl, fun _ => rfl⟩
    | cons c rest =>
      have htail : rest <:+ text := (List.suffix_cons c rest).trans hs
      by_cases hc : isBlank c = true
      · obtain ⟨after, after', hplain, hspelled⟩ :=
          h.readBlanks_blank hc m position position' rest
        rw [hplain, hspelled]
        exact ih rest.length (Nat.lt_succ_self _) htail _ _ _ rfl
      have hx : c ≠ x := fun hx => hc (hx ▸ h.blank)
      rw [spelled_cons, if_neg hx, List.singleton_append]
      by_cases hb : c = '\\'
      · subst hb
        have hcontinued := h.continued rest htail
        cases hmore : continued? rest with
        | none =>
          rw [hmore] at hcontinued
          rw [margin_readBlanks_broken hmore, margin_readBlanks_broken hcontinued]
          exact ⟨rfl, fun hne => absurd rfl hne⟩
        | some more =>
          rw [hmore] at hcontinued
          have hsuffix := continued?_suffix hmore
          obtain ⟨after, hplain⟩ := readBlanks_continued hmore m position
          obtain ⟨after', hspelled⟩ := readBlanks_continued hcontinued m position'
          rw [hplain, hspelled]
          exact ih more.length (Nat.lt_succ_of_le hsuffix.length_le) (hsuffix.trans htail) _ _ _ rfl
      · have hc : isBlank c = false := Bool.eq_false_iff.2 hc
        rw [readBlanks_of_not_blank hc hb, readBlanks_of_not_blank hc hb]
        refine ⟨rfl, fun _ => ?_⟩
        rw [spelled_cons, if_neg hx]
        rfl

end Transparent

theorem byteLength_spelled {extra : Nat} (hys : byteLength ys = x.utf8Size + extra)
    (rest : List Char) :
    byteLength (spelled x ys rest) = byteLength rest + extra * rest.count x := by
  induction rest with
  | nil => rfl
  | cons c rest ih =>
    rw [spelled_cons, byteLength_append, ih, byteLength_cons, List.count_cons]
    by_cases hc : c = x
    · subst hc
      rw [if_pos rfl, hys, if_pos (beq_self_eq_true c), Nat.mul_succ]
      omega
    · rw [if_neg hc, if_neg (by simpa using hc), byteLength_cons, byteLength_nil, Nat.add_zero,
        Nat.add_zero, Nat.add_assoc]

/-- Where an offset of `text` lies in the other spelling, in which each `x` takes `extra` bytes
more. -/
def spelledOffset (x : Char) (extra : Nat) (text : List Char) (offset : Nat) : Nat :=
  offset + extra * (charsBefore offset text).count x

theorem spelledOffset_add {extra : Nat} (hys : byteLength ys = x.utf8Size + extra)
    {rest : List Char} (hs : rest <:+ text) {position : Nat}
    (hp : position + byteLength rest = byteLength text) :
    spelledOffset x extra text position + byteLength (spelled x ys rest) =
      byteLength (spelled x ys text) := by
  obtain ⟨done, rfl⟩ := hs
  obtain rfl : position = byteLength done := by
    rw [byteLength_append] at hp
    omega
  rw [spelledOffset, charsBefore_append, ← byteLength_spelled hys, spelled_append,
    byteLength_append]

namespace Scanner

theorem isSome_startLine (s : Scanner) (w : UInt16) : (s.startLine w .full).1.isSome = true := by
  unfold startLine
  split
  · rfl
  · split
    · rfl
    · rw [if_pos (TokenSet.mem_full _)]
      rfl

/-- Whether there is a token behind blanks does not depend on the width of their margin. -/
theorem ahead?_eq_none {s : Scanner} {margin margin' : Option Margin} {atEnd : Bool}
    (hm : margin.map (·.newLine) = margin'.map (·.newLine)) (h : s.ahead? margin atEnd = none) :
    s.ahead? margin' atEnd = none := by
  cases margin with
  | none =>
    obtain rfl : margin' = none := by simpa using hm.symm
    rfl
  | some m =>
    obtain ⟨m', rfl, hm'⟩ := Option.map_eq_some_iff.1 hm.symm
    dsimp only [ahead?, place] at h ⊢
    rw [hm']
    split at h
    · have hsome := s.isSome_startLine m.width
      rw [Option.map_eq_none_iff.1 h] at hsome
      cases hsome
    · next hline =>
      rw [if_neg hline]
      exact h

end Scanner

namespace Stage

structure Inside (text : List Char) (g : Stage) : Prop where
  rest : g.rest <:+ text
  extent : g.position + byteLength g.rest = byteLength text

theorem inside_start (text : String) : (start text).Inside text.toList :=
  ⟨List.suffix_refl _, Nat.zero_add _⟩

theorem Inside.next? {g g' : Stage} (h : g.Inside text) (hnext : g.next? = some g') :
    g'.Inside text := by
  refine ⟨List.IsSuffix.trans ?_ h.rest, (follows_next? hnext).extent.trans h.extent⟩
  rw [next?_eq] at hnext
  split at hnext
  · obtain rfl := Option.some.inj hnext
    exact List.suffix_refl _
  · split at hnext
    · obtain rfl := Option.some.inj hnext
      exact rest_readBlanks_suffix .start g.position g.rest
    · split at hnext
      · next c rest hr =>
        obtain rfl := Option.some.inj hnext
        exact hr ▸ List.suffix_cons c rest
      · cases hnext

def respelt (x : Char) (ys : List Char) (extra : Nat) (text : List Char) (g : Stage) : Stage :=
  ⟨g.scanner, spelled x ys g.rest, spelledOffset x extra text g.position,
    g.found.map fun t => { t with offset := spelledOffset x extra text t.offset }⟩

section
variable {extra : Nat} {g : Stage}

theorem ahead?_respelt (h : Transparent x ys text) (hg : g.Inside text) (extra : Nat)
    (s : Scanner) :
    s.ahead? (g.respelt x ys extra text).ahead.margin
        (g.respelt x ys extra text).ahead.rest.isEmpty =
      s.ahead? g.ahead.margin g.ahead.rest.isEmpty := by
  obtain ⟨hmargin, hrest⟩ := h.readBlanks_spelled hg.rest .start g.position
    (spelledOffset x extra text g.position)
  unfold ahead respelt
  dsimp only
  rw [hmargin]
  cases hm : (readBlanks .start g.position g.rest).margin with
  | none => rfl
  | some m =>
    rw [hrest (by rw [hm]; exact Option.some_ne_none m), h.isEmpty_spelled]

theorem inside_ahead (hg : g.Inside text) :
    g.ahead.rest <:+ text ∧ g.ahead.position + byteLength g.ahead.rest = byteLength text :=
  ⟨(rest_readBlanks_suffix .start g.position g.rest).trans hg.rest,
    (position_readBlanks .start g.position g.rest).trans hg.extent⟩

theorem ahead_respelt (h : Transparent x ys text) (hys : byteLength ys = x.utf8Size + extra)
    (hg : g.Inside text) (hm : g.ahead.margin ≠ none) :
    (g.respelt x ys extra text).ahead.rest = spelled x ys g.ahead.rest ∧
      (g.respelt x ys extra text).ahead.position = spelledOffset x extra text g.ahead.position := by
  have hrest : (g.respelt x ys extra text).ahead.rest = spelled x ys g.ahead.rest :=
    (h.readBlanks_spelled hg.rest .start g.position
      (spelledOffset x extra text g.position)).2 hm
  have hposition : (g.respelt x ys extra text).ahead.position +
      byteLength (g.respelt x ys extra text).ahead.rest =
        spelledOffset x extra text g.position + byteLength (spelled x ys g.rest) :=
    position_readBlanks .start _ _
  have hoffset := spelledOffset_add hys hg.rest hg.extent
  have hoffset' := spelledOffset_add hys (inside_ahead hg).1 (inside_ahead hg).2
  refine ⟨hrest, ?_⟩
  rw [hrest] at hposition
  omega

theorem next?_found (hp : g.scanner.pending = 0) {t : Token} {s : Scanner}
    (h : g.scanner.ahead? g.ahead.margin g.ahead.rest.isEmpty = some (t, s)) :
    g.next? = some ⟨s, g.ahead.rest, g.ahead.position, ⟨t, g.ahead.position⟩ :: g.found⟩ := by
  rw [next?_eq]
  simp only [Scanner.drain?_eq_none hp, h]

theorem next?_declined (hp : g.scanner.pending = 0)
    (h : g.scanner.ahead? g.ahead.margin g.ahead.rest.isEmpty = none) {c : Char} {rest : List Char}
    (hr : g.rest = c :: rest) :
    g.next? = some ⟨g.scanner, rest, g.position + c.utf8Size, g.found⟩ := by
  rw [next?_eq]
  simp only [Scanner.drain?_eq_none hp, h, hr]

/-- If there is no token in front of `x`, there is none in front of a part of what stands for it. -/
theorem ahead?_part (h : Transparent x ys text) {s : Scanner} {rest : List Char}
    (hs : x :: rest <:+ text) {position : Nat}
    (hnone : s.ahead? (readBlanks .start position (x :: rest)).margin
      (readBlanks .start position (x :: rest)).rest.isEmpty = none)
    {part : List Char} (hne : part ≠ []) (hpart : part <:+ ys) (position' : Nat) :
    s.ahead? (readBlanks .start position' (part ++ spelled x ys rest)).margin
      (readBlanks .start position' (part ++ spelled x ys rest)).rest.isEmpty = none := by
  obtain ⟨hmargin, hrest⟩ := h.readBlanks_spelled ((List.suffix_cons x rest).trans hs)
    (Margin.start.past x) (position + x.utf8Size) (position' + byteLength part)
  have hline := h.newLine part ((List.mem_tails part ys).2 hpart) hne
  obtain ⟨hnew, hsame⟩ := readBlanks_newLine _ _ hline
    (position' + byteLength part) (position' + byteLength part) (spelled x ys rest)
  rw [readBlanks_cons h.blank] at hnone
  rw [readBlanks_blanks fun d hd => h.blanks d (hpart.subset hd), hsame]
  rw [hmargin] at hnew
  refine Scanner.ahead?_eq_none hnew.symm ?_
  cases hm : (readBlanks (Margin.start.past x) (position + x.utf8Size) rest).margin with
  | none => rfl
  | some m =>
    rw [hrest (by rw [hm]; exact Option.some_ne_none m), h.isEmpty_spelled, ← hm]
    exact hnone

theorem reaches_spelled (h : Transparent x ys text) {s : Scanner} {rest : List Char}
    (hs : x :: rest <:+ text) (hp : s.pending = 0) {position : Nat}
    (hnone : s.ahead? (readBlanks .start position (x :: rest)).margin
      (readBlanks .start position (x :: rest)).rest.isEmpty = none)
    {part : List Char} (hpart : part <:+ ys) (position' : Nat) (found : List ScannedToken) :
    Reaches next? ⟨s, part ++ spelled x ys rest, position', found⟩
      ⟨s, spelled x ys rest, position' + byteLength part, found⟩ := by
  induction part generalizing position' with
  | nil => exact .refl
  | cons c part ih =>
    have hstep := ih ((List.suffix_cons c part).trans hpart) (position' + c.utf8Size)
    rw [Nat.add_assoc, ← byteLength_cons] at hstep
    refine hstep.head ?_
    have hahead := ahead?_part h hs hnone (List.cons_ne_nil c part) hpart position'
    exact next?_declined hp hahead rfl

theorem reaches_respelt_declined (h : Transparent x ys text)
    (hys : byteLength ys = x.utf8Size + extra) (hg : g.Inside text) (hp : g.scanner.pending = 0)
    (ha : g.scanner.ahead? g.ahead.margin g.ahead.rest.isEmpty = none) {c : Char}
    {rest : List Char} (hr : g.rest = c :: rest) :
    Reaches next? (g.respelt x ys extra text)
      (respelt x ys extra text ⟨g.scanner, rest, g.position + c.utf8Size, g.found⟩) := by
  have hg' := hg.next? (next?_declined hp ha hr)
  have hposition : spelledOffset x extra text g.position +
      byteLength (if c = x then ys else [c]) =
        spelledOffset x extra text (g.position + c.utf8Size) := by
    have hoffset := spelledOffset_add hys hg.rest hg.extent
    have hoffset' := spelledOffset_add hys hg'.rest hg'.extent
    rw [hr, spelled_cons, byteLength_append] at hoffset
    dsimp only at hoffset'
    omega
  by_cases hc : c = x
  · subst hc
    have hs : c :: rest <:+ text := hr ▸ hg.rest
    rw [if_pos rfl] at hposition
    unfold ahead at ha
    rw [hr] at ha
    have hreach := reaches_spelled h hs hp ha (List.suffix_refl ys)
      (spelledOffset c extra text g.position) (g.respelt c ys extra text).found
    rw [hposition] at hreach
    unfold respelt
    rw [hr, spelled_cons, if_pos rfl]
    exact hreach
  · rw [if_neg hc, byteLength_cons, byteLength_nil, Nat.add_zero] at hposition
    have hrest : (g.respelt x ys extra text).rest = c :: spelled x ys rest := by
      dsimp only [respelt]
      rw [hr, spelled_cons, if_neg hc, List.singleton_append]
    have hahead := (ahead?_respelt h hg extra g.scanner).trans ha
    have hturn := next?_declined (g := g.respelt x ys extra text) hp hahead hrest
    dsimp only [respelt] at hturn
    rw [hposition] at hturn
    exact .single hturn

/-- A turn is made in the other spelling too, in one turn or in several. -/
theorem reaches_respelt (h : Transparent x ys text) (hys : byteLength ys = x.utf8Size + extra)
    {g' : Stage} (hg : g.Inside text) (hnext : g.next? = some g') :
    Reaches next? (g.respelt x ys extra text) (g'.respelt x ys extra text) := by
  cases hd : g.scanner.drain? .full with
  | some due =>
    obtain rfl := Option.some.inj ((next?_due hd).symm.trans hnext)
    exact .single (next?_due hd)
  | none =>
    have hp := Scanner.pending_eq_zero hd
    cases ha : g.scanner.ahead? g.ahead.margin g.ahead.rest.isEmpty with
    | some found =>
      have hm : g.ahead.margin ≠ none := by
        intro hnone
        rw [hnone] at ha
        cases ha
      obtain ⟨hrest, hposition⟩ := ahead_respelt h hys hg hm
      obtain rfl := Option.some.inj ((next?_found hp ha).symm.trans hnext)
      have hturn := next?_found (g := g.respelt x ys extra text) hp
        ((ahead?_respelt h hg extra g.scanner).trans ha)
      rw [hrest, hposition] at hturn
      exact .single hturn
    | none =>
      cases hr : g.rest with
      | nil =>
        rw [next?_eq] at hnext
        simp only [hd, ha, hr] at hnext
        cases hnext
      | cons c rest =>
        obtain rfl := Option.some.inj ((next?_declined hp ha hr).symm.trans hnext)
        exact reaches_respelt_declined h hys hg hp ha hr

theorem next?_respelt_eq_none (hend : g.next? = none) :
    (g.respelt x ys extra text).next? = none := by
  obtain ⟨hl, hp, -⟩ := scanner_of_next?_none hend
  have hr : (g.respelt x ys extra text).rest = [] := by
    rw [respelt, (next?_eq_none_iff.1 hend).2]
    rfl
  have hahead : (g.respelt x ys extra text).scanner.ahead? (some .start) true = none := by
    simp [respelt, Scanner.ahead?, Scanner.place, Scanner.finish, Margin.start, hl]
  rw [next?_eq, ahead, hr]
  have hdrain := Scanner.drain?_eq_none (s := (g.respelt x ys extra text).scanner) hp
  simp only [readBlanks, List.isEmpty_nil, hahead, hdrain]

theorem reaches_respelt_of_reaches (h : Transparent x ys text)
    (hys : byteLength ys = x.utf8Size + extra) (hg : g.Inside text) {g' : Stage}
    (hreach : Reaches next? g g') :
    Reaches next? (g.respelt x ys extra text) (g'.respelt x ys extra text) ∧ g'.Inside text := by
  induction hreach with
  | refl => exact ⟨.refl, hg⟩
  | tail _ hstep ih => exact ⟨ih.1.trans (reaches_respelt h hys ih.2 hstep), ih.2.next? hstep⟩

end
end Stage

/-- A text is scanned in the other spelling to the same tokens, at the offsets that they have there.
-/
theorem Transparent.scanAll_respell {x : Char} (ys : String) {text : String} (extra : Nat)
    (h : Transparent x ys.toList text.toList)
    (hys : byteLength ys.toList = x.utf8Size + extra) :
    scanAll (respell x ys text) = (scanAll text).map fun t =>
      { t with offset := spelledOffset x extra text.toList t.offset } := by
  obtain ⟨last, hreach, hend⟩ := (Stage.start text).exists_end
  have hstart : Stage.start (respell x ys text) =
      (Stage.start text).respelt x ys.toList extra text.toList := by
    have hzero : spelledOffset x extra text.toList 0 = 0 := by
      cases text.toList <;> rfl
    rw [Stage.respelt, Stage.start, respell, String.toList_ofList]
    exact congrArg (Stage.mk .initial _ · _) hzero.symm
  have hrespelt := Stage.reaches_respelt_of_reaches h hys (Stage.inside_start text) hreach
  rw [scanAll, scanAll, ← Stage.run_start, ← Stage.run_start, hstart,
    Stage.run_of_reaches hrespelt.1, Stage.run_of_reaches hreach, Stage.run_of_next?_none hend,
    Stage.run_of_next?_none (Stage.next?_respelt_eq_none hend)]
  exact List.map_reverse.symm

/-- A line feed may have a carriage return in front of it, if no carriage return is in front of it
already. -/
theorem transparent_lineFeed {text : List Char} (h : '\r' ∉ text) :
    Transparent '\n' ['\r', '\n'] text where
  blank := rfl
  blanks := List.all_eq_true.1 rfl
  ne_nil := List.cons_ne_nil _ _
  margin _ := rfl
  newLine := by decide
  continued rest hs := by
    cases rest with
    | nil => rfl
    | cons c rest =>
      have hcr : c ≠ '\r' := fun hc => h (hs.subset (hc ▸ List.mem_cons_self))
      rw [spelled_cons]
      by_cases hlf : c = '\n'
      · subst hlf
        rfl
      · simp [continued?, hlf, hcr]

theorem widen_widen (m : Margin) (a b : Nat) : (m.widen a).widen b = m.widen (a + b) := by
  have hwidth : ((m.widen a).widen b).width = (m.widen (a + b)).width := by
    apply UInt16.toNat_inj.1
    rw [Margin.toNat_width_widen, Margin.toNat_width_widen, Margin.toNat_width_widen]
    omega
  exact congrArg (Margin.mk m.newLine) hwidth

theorem transparent_tab (text : List Char) : Transparent '\t' [' ', ' ', ' ', ' '] text where
  blank := rfl
  blanks := List.all_eq_true.1 rfl
  ne_nil := List.cons_ne_nil _ _
  margin m := by
    change (((m.widen 1).widen 1).widen 1).widen 1 = m.widen 4
    rw [widen_widen, widen_widen, widen_widen]
  newLine := by decide
  continued rest _ := by
    cases rest with
    | nil => rfl
    | cons c rest =>
      rw [spelled_cons]
      by_cases hlf : c = '\n'
      · subst hlf
        rfl
      by_cases hcr : c = '\r'
      · subst hcr
        cases rest with
        | nil => rfl
        | cons d rest =>
          rw [spelled_cons]
          by_cases hlf : d = '\n'
          · subst hlf
            rfl
          · by_cases htab : d = '\t' <;> simp [continued?, hlf, htab]
      · by_cases htab : c = '\t' <;> simp [continued?, hlf, hcr, htab]

/-- A text keeps its layout if its line feeds get carriage returns in front of them, and if its tabs
become four spaces each. -/
theorem scanAll_respelled (text : String) :
    ('\r' ∉ text.toList →
      scanAll (respell '\n' "\r\n" text) = (scanAll text).map fun t =>
        t.shift ((charsBefore t.offset text.toList).count '\n')) ∧
    scanAll (respell '\t' "    " text) = (scanAll text).map fun t =>
      t.shift (3 * (charsBefore t.offset text.toList).count '\t') := by
  refine ⟨fun hcr => ?_, ?_⟩
  · have hscan := Transparent.scanAll_respell "\r\n" 1 (transparent_lineFeed hcr) rfl
    simpa only [spelledOffset, ScannedToken.shift, Nat.one_mul] using hscan
  · exact Transparent.scanAll_respell "    " 3 (transparent_tab text.toList) rfl

/-- A continuation, a tab that begins a block, and a backslash that continues nothing. -/
theorem scanAll_respelled_continued :
    '\r' ∉ "a\n  b\\\n\tc\n\td\\\te".toList ∧
      scanAll (respell '\n' "\r\n" "a\n  b\\\n\tc\n\td\\\te") =
        [⟨.indent, 5⟩, ⟨.indent, 10⟩, ⟨.newline, 14⟩, ⟨.dedent, 18⟩, ⟨.dedent, 18⟩] := by
  have hcr : '\r' ∉ "a\n  b\\\n\tc\n\td\\\te".toList := by decide
  have hplain : scanAll "a\n  b\\\n\tc\n\td\\\te" =
      [⟨.indent, 4⟩, ⟨.indent, 8⟩, ⟨.newline, 11⟩, ⟨.dedent, 15⟩, ⟨.dedent, 15⟩] :=
    Stage.scanAll_of_runWithin (r := ⟨_, .initial⟩) (by decide)
  refine ⟨hcr, ((scanAll_respelled _).1 hcr).trans ?_⟩
  rw [hplain]
  decide

end GrammarLoader.Layout
