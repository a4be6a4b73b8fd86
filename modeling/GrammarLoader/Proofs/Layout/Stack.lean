import GrammarLoader.Layout.Snapshot

/-! The scanner on one stack of widths, with the width of the text itself as its lowest entry. Here
the guards of each step alone keep that entry on the stack, and a closing line takes one width after
the other off it. It does what the scanner does that keeps the open blocks only. -/

namespace GrammarLoader.Layout

/-- A scanner with one stack of widths, the innermost first. -/
structure StackScanner where
  stack : List UInt16
  pending : UInt16
  finalNewline : Bool

namespace StackScanner

def initial : StackScanner := ⟨[0], 0, false⟩

def indent (t : StackScanner) : UInt16 := t.stack.headD 0

/-- The number of open blocks; none if the stack has lost its lowest entry. -/
def depth? (t : StackScanner) : Option Nat :=
  match t.stack with
  | [] => none
  | _ :: below => some below.length

/-- Takes widths above `width` off a stack and counts them, as long as one is left below. -/
def closeWider (width : UInt16) (closed : UInt16) : List UInt16 → List UInt16 × UInt16
  | top :: below :: stack =>
    if width < top then closeWider width (.ofNat (min 65535 (closed.toNat + 1))) (below :: stack)
    else (top :: below :: stack, closed)
  | stack => (stack, closed)

def place (t : StackScanner) (margin : Margin) (atEnd : Bool) (valid : TokenSet) :
    Option Token × StackScanner :=
  if margin.newLine then
    if .indent ∈ valid ∧ t.indent < margin.width then
      (some .indent, { t with stack := margin.width :: t.stack })
    else if .dedent ∈ valid ∧ margin.width < t.indent then
      let (stack, pending) := closeWider margin.width t.pending t.stack
      (some .dedent, { t with stack, pending })
    else if .newline ∈ valid then (some .newline, t)
    else (none, t)
  else if atEnd ∧ .dedent ∈ valid ∧ 1 < t.stack.length then
    (some .dedent, { t with stack := t.stack.tail })
  else (none, t)

def drain? (t : StackScanner) (valid : TokenSet) : Option (Token × StackScanner) :=
  if t.pending = 1 ∧ .newline ∈ valid then some (.newline, { t with pending := 0 })
  else if 1 < t.pending ∧ .dedent ∈ valid then some (.dedent, { t with pending := t.pending - 1 })
  else none

def scan (t : StackScanner) (l : Lexer) (valid : TokenSet) :
    Option Token × StackScanner × Lexer :=
  match t.drain? valid with
  | some (token, t) => (some token, t, l)
  | none =>
    let t := { t with pending := 0 }
    match l.skipBlanks with
    | (l, none) => (none, t, l)
    | (l, some margin) =>
      let (token, t) := t.place margin l.atEnd valid
      (token, t, l.mark)

/-- The bytes of widths, one width after the other until `limit` is reached. -/
def widthsWithin (limit size : Nat) : List UInt16 → List UInt8
  | [] => []
  | w :: ws =>
    if limit < size + 2 then [] else Scanner.widthBytes w ++ widthsWithin limit (size + 2) ws

def serialize (t : StackScanner) (size : Nat) : List UInt8 :=
  let limit := min size Scanner.maxSnapshot
  if limit < 2 then []
  else
    UInt8.ofNat (min 255 t.pending.toNat) :: t.finalNewline.toUInt8 ::
      widthsWithin limit 2 (t.stack.reverse.drop 1)

def deserialize (bytes : List UInt8) : StackScanner :=
  match bytes.take Scanner.maxSnapshot with
  | pending :: flag :: widths =>
    ⟨(initial.stack.reverse ++ Scanner.widthsOfBytes widths).reverse, pending.toUInt16, flag != 0⟩
  | _ => initial

end StackScanner

namespace Scanner

/-- The scanner with the width of the text itself at the bottom of its stack. -/
def onStack (s : Scanner) : StackScanner := ⟨s.levels ++ [0], s.pending, s.finalNewline⟩

theorem onStack_initial : initial.onStack = .initial := rfl

theorem indent_onStack (s : Scanner) : s.onStack.indent = s.indent := by
  unfold StackScanner.indent indent onStack
  cases s.levels <;> rfl

theorem toNat_counted (n : Nat) : (UInt16.ofNat (min 65535 n)).toNat = min 65535 n :=
  UInt16.toNat_ofNat_of_lt' (Nat.lt_of_le_of_lt (Nat.min_le_left _ _) (by decide))

theorem ofNat_counted (n : UInt16) : UInt16.ofNat (min 65535 n.toNat) = n := by
  apply UInt16.toNat_inj.1
  rw [toNat_counted, Nat.min_eq_right (Nat.le_of_lt_succ n.toNat_lt)]

theorem closeWider_cons (w closed top : UInt16) (levels : List UInt16) :
    StackScanner.closeWider w closed (top :: levels ++ [0]) =
      if w < top then
        StackScanner.closeWider w (.ofNat (min 65535 (closed.toNat + 1))) (levels ++ [0])
      else (top :: levels ++ [0], closed) := by
  cases levels <;> rfl

theorem closeWider_append (w closed : UInt16) (levels : List UInt16) :
    StackScanner.closeWider w closed (levels ++ [0]) =
      (levels.dropWhile (w < ·) ++ [0], .ofNat (min 65535
        (closed.toNat + (levels.length - (levels.dropWhile (w < ·)).length)))) := by
  induction levels generalizing closed with
  | nil => exact Prod.ext rfl (ofNat_counted closed).symm
  | cons top levels ih =>
    have hle := (List.dropWhile_suffix (l := levels) (decide <| w < ·)).length_le
    rw [closeWider_cons]
    split
    · next h =>
      have hdrop : (top :: levels).dropWhile (w < ·) = levels.dropWhile (w < ·) := by
        rw [List.dropWhile_cons, if_pos (decide_eq_true h)]
      -- One count stops at 65535 after each width, the other only at the end.
      have hcount : min 65535 (min 65535 (closed.toNat + 1) +
          (levels.length - (levels.dropWhile (w < ·)).length)) =
        min 65535 (closed.toNat +
          ((top :: levels).length - (levels.dropWhile (w < ·)).length)) := by
        rw [List.length_cons]
        omega
      rw [ih, toNat_counted, hdrop, hcount]
    · next h =>
      have hdrop : (top :: levels).dropWhile (w < ·) = top :: levels := by
        rw [List.dropWhile_cons, if_neg (mt of_decide_eq_true h)]
      rw [hdrop, Nat.sub_self, Nat.add_zero, ofNat_counted]

theorem closeBlocks_onStack (s : Scanner) (hp : s.pending = 0) (w : UInt16) :
    (s.closeBlocks w).onStack =
      ⟨(StackScanner.closeWider w s.pending s.onStack.stack).1,
        (StackScanner.closeWider w s.pending s.onStack.stack).2, s.finalNewline⟩ := by
  rw [onStack, onStack, closeWider_append, hp, UInt16.toNat_zero, Nat.zero_add]
  rfl

theorem place_onStack (s : Scanner) (hp : s.pending = 0) (margin : Margin) (atEnd : Bool)
    (valid : TokenSet) :
    s.onStack.place margin atEnd valid =
      ((s.place margin atEnd valid).1, (s.place margin atEnd valid).2.onStack) := by
  unfold StackScanner.place place
  rw [indent_onStack]
  split
  · unfold startLine
    split
    · rfl
    · split
      · rw [closeBlocks_onStack s hp]
        rfl
      · split <;> rfl
  · unfold finish
    cases atEnd with
    | false => rfl
    | true =>
      cases hl : s.levels with
      | nil => simp [onStack, hl]
      | cons w levels =>
        by_cases hv : .dedent ∈ valid <;> simp [onStack, hl, hv]

theorem drain?_onStack (s : Scanner) (valid : TokenSet) :
    s.onStack.drain? valid = (s.drain? valid).map fun found => (found.1, found.2.onStack) := by
  unfold StackScanner.drain? drain? onStack
  dsimp only
  split
  · rfl
  · split <;> rfl

theorem scan_onStack (s : Scanner) (l : Lexer) (valid : TokenSet) :
    s.onStack.scan l valid =
      ((s.scan l valid).token, (s.scan l valid).scanner.onStack, (s.scan l valid).lexer) := by
  unfold StackScanner.scan scan
  rw [drain?_onStack]
  cases s.drain? valid with
  | some found => rfl
  | none =>
    dsimp only [Option.map_none]
    change (match l.skipBlanks with | (l, none) => _ | (l, some margin) => _) = _
    cases l.skipBlanks with
    | mk l' margin? =>
      cases margin? with
      | none => rfl
      | some margin =>
        have hplace := place_onStack { s with pending := 0 } rfl margin l'.atEnd valid
        exact congrArg (fun r : Option Token × StackScanner => (r.1, r.2, l'.mark)) hplace

/-- Writing one width after the other keeps as many as there is room for. -/
theorem widthsWithin_eq (limit size : Nat) (ws : List UInt16) :
    StackScanner.widthsWithin limit size ws =
      (ws.take ((limit - size) / 2)).flatMap widthBytes := by
  induction ws generalizing size with
  | nil => rw [List.take_nil]; rfl
  | cons w ws ih =>
    unfold StackScanner.widthsWithin
    split
    · next h =>
      have hroom : (limit - size) / 2 = 0 := by omega
      rw [hroom, List.take_zero]
      rfl
    · next h =>
      have hroom : (limit - size) / 2 = (limit - (size + 2)) / 2 + 1 := by omega
      rw [hroom, List.take_succ_cons, List.flatMap_cons, ih]

theorem serialize_onStack (s : Scanner) (size : Nat) :
    s.onStack.serialize size = s.serialize size := by
  unfold StackScanner.serialize serialize
  rw [onStack]
  simp only [widthsWithin_eq, List.reverse_append, List.reverse_singleton, List.singleton_append,
    List.drop_succ_cons, List.drop_zero]

theorem deserialize_onStack (bytes : List UInt8) :
    (deserialize bytes).onStack = .deserialize bytes := by
  unfold StackScanner.deserialize deserialize
  match bytes.take maxSnapshot with
  | [] => rfl
  | [_] => rfl
  | pending :: flag :: widths =>
    dsimp only
    rw [List.reverse_append]
    rfl

end Scanner
end GrammarLoader.Layout
