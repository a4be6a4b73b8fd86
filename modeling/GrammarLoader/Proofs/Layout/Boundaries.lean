import GrammarLoader.Proofs.Layout.Procedure
import Mathlib.Order.Bounds.Basic
import Mathlib.Order.MinMax

/-! Where a lexer can be in a text. It starts at a boundary between characters and each move takes it
to the next one, so its place is known from the number of moves. The token that it reads begins
behind the character that was skipped last, and ends where its end was marked last. -/

namespace GrammarLoader.Layout

/-- A byte offset at which the text can be cut. -/
def IsBoundary (text : String) (offset : Nat) : Prop := String.Pos.Raw.IsValid text ⟨offset⟩

/-- The byte offset behind the first `n` characters, or behind all if there are no more. -/
def place (text : List Char) (n : Nat) : Nat := byteLength (text.take n)

section
variable {text : List Char} {n : Nat}

theorem place_succ_of_cons {c : Char} {rest : List Char} (h : text.drop n = c :: rest) :
    place text (n + 1) = place text n + c.utf8Size := by
  have hc : text[n]? = some c := by
    rw [← List.head?_drop, h]
    rfl
  rw [place, List.take_add_one, hc, byteLength_append]
  rfl

theorem place_succ_of_nil (h : text.drop n = []) : place text (n + 1) = place text n := by
  have hlen := List.drop_eq_nil_iff.1 h
  rw [place, place, List.take_of_length_le hlen, List.take_of_length_le (by omega)]

theorem place_mono (text : List Char) : Monotone (place text) := by
  refine monotone_nat_of_le_succ fun n => ?_
  cases h : text.drop n with
  | nil => exact (place_succ_of_nil h).ge
  | cons c rest =>
    rw [place_succ_of_cons h]
    exact Nat.le_add_right _ _

theorem place_add_byteLength_drop (text : List Char) (n : Nat) :
    place text n + byteLength (text.drop n) = byteLength text := by
  rw [place, ← byteLength_append, List.take_append_drop]

theorem place_le (text : List Char) (n : Nat) : place text n ≤ byteLength text :=
  Nat.le.intro (place_add_byteLength_drop text n)

theorem place_eq_byteLength_iff : place text n = byteLength text ↔ text.drop n = [] := by
  have hall := place_add_byteLength_drop text n
  cases h : text.drop n with
  | nil =>
    rw [h] at hall
    simpa using hall
  | cons c rest =>
    have hpos := c.utf8Size_pos
    rw [h, byteLength_cons] at hall
    simp only [reduceCtorEq, iff_false]
    omega

end

theorem utf8ByteSize_eq_byteLength (cs : List Char) :
    (String.ofList cs).utf8ByteSize = byteLength cs := by
  induction cs with
  | nil => rfl
  | cons c cs ih =>
    have hsplit : String.ofList (c :: cs) = String.singleton c ++ String.ofList cs := by
      rw [String.singleton_eq_ofList, ← String.ofList_append]
      rfl
    rw [hsplit, String.utf8ByteSize_append, String.utf8ByteSize_singleton, ih, byteLength_cons]

theorem byteLength_toList (text : String) : byteLength text.toList = text.utf8ByteSize := by
  rw [← utf8ByteSize_eq_byteLength, String.ofList_toList]

/-- A text can be cut behind any number of its characters, and nowhere else. -/
theorem isBoundary_iff {text : String} {offset : Nat} :
    IsBoundary text offset ↔ ∃ n, place text.toList n = offset := by
  rw [IsBoundary, String.Pos.Raw.isValid_iff_exists_append]
  constructor
  · rintro ⟨before, rest, rfl, hoffset⟩
    refine ⟨before.toList.length, ?_⟩
    rw [place, String.toList_append, List.take_left, byteLength_toList]
    exact (congrArg String.Pos.Raw.byteIdx hoffset).symm
  · rintro ⟨n, rfl⟩
    refine ⟨.ofList (text.toList.take n), .ofList (text.toList.drop n), ?_, ?_⟩
    · rw [← String.ofList_append, List.take_append_drop, String.ofList_toList]
    · exact congrArg String.Pos.Raw.mk (utf8ByteSize_eq_byteLength _).symm

namespace Lexer

inductive Move
  | advance
  | skip
  | mark
  deriving DecidableEq

def move (l : Lexer) : Move → Lexer
  | .advance => l.advance
  | .skip => l.skip
  | .mark => l.mark

def after (l : Lexer) (moves : List Move) : Lexer := moves.foldl move l

/-- How many characters the moves step over, if there are as many. -/
def steps (moves : List Move) : Nat := moves.countP (· ≠ .mark)

/-- The moves up to the last one of the kind; none if there is no such move. -/
def upToLast (m : Move) (moves : List Move) : List Move := moves.rdropWhile (· ≠ m)

/-- The place behind `n` characters and those that the moves step over. -/
def placeAfter (text : List Char) (n : Nat) (moves : List Move) : Nat := place text (n + steps moves)

/-- The lexer that began behind `n` characters of the text and has made the moves. -/
def moved (text : List Char) (n : Nat) (moves : List Move) : Lexer where
  rest := text.drop (n + steps moves)
  position := placeAfter text n moves
  tokenStart := placeAfter text n (upToLast .skip moves)
  markedEnd :=
    if .mark ∈ moves then some (placeAfter text n (upToLast .mark moves)) else none

variable {text : List Char} {n : Nat} {moves : List Move}

theorem moved_nil : moved text n [] = startAt (text.drop n) (place text n) := rfl

theorem steps_concat (moves : List Move) (m : Move) :
    steps (moves ++ [m]) = steps moves + if m = .mark then 0 else 1 := by
  unfold steps
  cases m <;> simp

theorem upToLast_concat_self (moves : List Move) (m : Move) :
    upToLast m (moves ++ [m]) = moves ++ [m] := by
  unfold upToLast
  rw [List.rdropWhile_concat_neg]
  simp

theorem upToLast_concat_of_ne (moves : List Move) {m m' : Move} (h : m' ≠ m) :
    upToLast m (moves ++ [m']) = upToLast m moves := by
  unfold upToLast
  rw [List.rdropWhile_concat_pos]
  simpa using h

theorem advance_eq {l : Lexer} (hrest : l.rest = text.drop n) (hposition : l.position = place text n) :
    l.advance = { l with rest := text.drop (n + 1), position := place text (n + 1) } := by
  have htail : text.drop (n + 1) = l.rest.tail := by rw [hrest, List.tail_drop]
  unfold advance
  split
  · next hnil =>
    rw [htail, place_succ_of_nil (hrest ▸ hnil), ← hposition, hnil]
    cases l
    subst hnil
    rfl
  · next c rest hcons =>
    rw [htail, place_succ_of_cons (hrest ▸ hcons), ← hposition, hcons]
    rfl

theorem move_moved (text : List Char) (n : Nat) (moves : List Move) (m : Move) :
    (moved text n moves).move m = moved text n (moves ++ [m]) := by
  have hstep : (moved text n moves).advance = _ := advance_eq rfl rfl
  cases m with
  | advance =>
    rw [move, hstep]
    unfold moved
    rw [upToLast_concat_of_ne moves (by decide), upToLast_concat_of_ne moves (by decide)]
    simp [placeAfter, steps_concat, Nat.add_assoc]
  | skip =>
    rw [move, skip, hstep]
    unfold moved
    rw [upToLast_concat_self, upToLast_concat_of_ne moves (by decide)]
    simp [placeAfter, steps_concat, Nat.add_assoc]
  | mark =>
    rw [move, mark]
    unfold moved
    rw [upToLast_concat_self, upToLast_concat_of_ne moves (by decide)]
    simp [placeAfter, steps_concat]

theorem after_startAt (text : List Char) (n : Nat) (moves : List Move) :
    (startAt (text.drop n) (place text n)).after moves = moved text n moves := by
  induction moves using List.reverseRecOn with
  | nil => rfl
  | append_singleton moves m ih =>
    unfold after at ih ⊢
    rw [List.foldl_append, ih]
    exact move_moved text n moves m

/-- The moves up to where the token ends: its end was marked last there, or it is where they lead. -/
def upToTokenEnd (moves : List Move) : List Move :=
  if .mark ∈ moves then upToLast .mark moves else moves

theorem tokenRange_moved (text : List Char) (n : Nat) (moves : List Move) :
    (moved text n moves).tokenRange =
      (min (placeAfter text n (upToLast .skip moves)) (placeAfter text n (upToTokenEnd moves)),
        placeAfter text n (upToTokenEnd moves)) := by
  have hend : (moved text n moves).tokenEnd = placeAfter text n (upToTokenEnd moves) := by
    unfold tokenEnd moved upToTokenEnd
    split <;> rfl
  rw [tokenRange, hend]
  rfl

theorem place_add_utf8Size_le {c : Char} (h : text[n]? = some c) :
    place text n + c.utf8Size ≤ byteLength text := by
  obtain ⟨rest, hdrop⟩ := List.head?_eq_some_iff.1 (List.head?_drop.trans h)
  rw [← place_succ_of_cons hdrop]
  exact place_le _ _

/-- What is known of a lexer that has made the moves in the text, from behind `n` characters on. -/
structure Stands (text : String) (n : Nat) (moves : List Move) (l : Lexer) : Prop where
  position : l.position = place text.toList (n + steps moves)
  lookahead : l.lookahead = text.toList[n + steps moves]?
  atEnd : l.lookahead = none ↔ l.position = text.utf8ByteSize
  tokenRange : l.tokenRange =
    (min (placeAfter text.toList n (upToLast .skip moves))
      (placeAfter text.toList n (upToTokenEnd moves)),
      placeAfter text.toList n (upToTokenEnd moves))
  boundaries : IsBoundary text l.position ∧ IsBoundary text l.tokenRange.1 ∧
    IsBoundary text l.tokenRange.2
  ordered : l.tokenRange.1 ≤ l.tokenRange.2 ∧ l.tokenRange.2 ≤ text.utf8ByteSize
  counts : l.position ≤ text.utf8ByteSize ∧ l.tokenStart ≤ text.utf8ByteSize ∧
    ∀ e ∈ l.markedEnd, e ≤ text.utf8ByteSize
  next : ∀ c ∈ l.lookahead, l.position + c.utf8Size ≤ text.utf8ByteSize

theorem stands_moved (text : String) (n : Nat) (moves : List Move) :
    (moved text.toList n moves).Stands text n moves := by
  have hboundary (k : Nat) : IsBoundary text (place text.toList k) := isBoundary_iff.2 ⟨k, rfl⟩
  have hle (k : Nat) : place text.toList k ≤ text.utf8ByteSize :=
    (place_le _ _).trans_eq (byteLength_toList text)
  have hlookahead : (moved text.toList n moves).lookahead = text.toList[n + steps moves]? :=
    List.head?_drop
  refine ⟨rfl, hlookahead, ?_, tokenRange_moved _ _ _, ?_, ?_, ⟨hle _, hle _, ?_⟩, ?_⟩
  · rw [← byteLength_toList]
    exact List.head?_eq_none_iff.trans place_eq_byteLength_iff.symm
  · rw [tokenRange_moved]
    refine ⟨hboundary _, ?_, hboundary _⟩
    dsimp only [placeAfter]
    rw [← (place_mono _).map_min]
    exact hboundary _
  · rw [tokenRange_moved]
    exact ⟨min_le_right _ _, hle _⟩
  · intro e he
    obtain ⟨-, he⟩ := Option.ite_none_right_eq_some.1 he
    rw [← Option.some.inj he]
    exact hle _
  · intro c hc
    rw [hlookahead] at hc
    rw [← byteLength_toList]
    exact place_add_utf8Size_le hc

/-- A lexer starts where the characters end that end at its offset or before it. -/
theorem exists_start (text : String) (offset : Nat) :
    ∃ n, ofText text offset = moved text.toList n [] ∧
      IsGreatest {b | IsBoundary text b ∧ b ≤ min offset text.utf8ByteSize}
        (ofText text offset).position := by
  obtain ⟨before, rest, htext, hbefore, hnext, hlexer⟩ := exists_ofText text offset
  have hplace : byteLength before = place text.toList before.length := by
    rw [place, htext, List.take_left]
  have hdrop : rest = text.toList.drop before.length := by rw [htext, List.drop_left]
  have hle : place text.toList before.length ≤ text.utf8ByteSize :=
    (place_le _ _).trans_eq (byteLength_toList text)
  rw [hplace] at hbefore hnext hlexer
  rw [hlexer]
  refine ⟨before.length, by rw [hdrop, moved_nil],
    ⟨isBoundary_iff.2 ⟨_, rfl⟩, le_min hbefore hle⟩, ?_⟩
  rintro b ⟨hb, hbound⟩
  obtain ⟨k, rfl⟩ := isBoundary_iff.1 hb
  rcases le_or_gt k before.length with hk | hk
  · exact place_mono _ hk
  -- One character more would end behind the offset, unless there is none.
  · cases hrest : rest with
    | nil =>
      rw [startAt, place_eq_byteLength_iff.2 (hdrop.symm.trans hrest)]
      exact place_le _ _
    | cons c more =>
      have hbehind := hnext c (by rw [hrest]; rfl)
      have hfurther := place_mono text.toList hk
      rw [place_succ_of_cons (hdrop.symm.trans hrest)] at hfurther
      exact absurd (hbehind.trans_le hfurther) (Nat.not_lt.2 (hbound.trans (min_le_left _ _)))

/-- A lexer starts at the last boundary that is not behind its offset, and whatever is done with it
then, it is at the boundary behind as many characters as it has stepped over, or at the end of the
text. The text can be cut there and at both ends of the token, and nothing is counted that lies
behind the end. -/
theorem stands_after_ofText (text : String) (offset : Nat) :
    IsGreatest {b | IsBoundary text b ∧ b ≤ min offset text.utf8ByteSize}
      (ofText text offset).position ∧
    ∃ n, ∀ moves, ((ofText text offset).after moves).Stands text n moves := by
  obtain ⟨n, hstart, hgreatest⟩ := exists_start text offset
  refine ⟨hgreatest, n, fun moves => ?_⟩
  rw [hstart, moved_nil, after_startAt]
  exact stands_moved text n moves

-- A token whose end is marked before what leads up to it is skipped is empty.
example : ((ofText "né" 2).after [.mark, .skip]).tokenRange = (1, 1) := by decide +kernel

end Lexer
end GrammarLoader.Layout
