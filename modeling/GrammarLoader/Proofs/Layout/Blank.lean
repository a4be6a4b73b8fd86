import GrammarLoader.Layout.Margin
import Mathlib.Algebra.GroupWithZero.Nat
import Mathlib.Data.List.DropRight

/-! Runs of blank characters, and the margin that is read from one: whether there is a line feed in
it, and how many columns follow the last character that returns to the first column. -/

namespace GrammarLoader.Layout

/-- Line feed, space, carriage return, form feed and tab. -/
def isBlank (c : Char) : Bool := c = '\n' || c = ' ' || c = '\r' || c = '\x0c' || c = '\t'

def returns (c : Char) : Bool := c = '\n' || c = '\r' || c = '\x0c'

/-- The columns behind a run of blanks: a space is one and a tab is four, as far as `65535`. -/
def runWidth (run : List Char) : Nat :=
  let line := run.rtakeWhile (!returns ·)
  min 65535 (line.count ' ' + 4 * line.count '\t')

def byteLength (cs : List Char) : Nat := (cs.map Char.utf8Size).sum

@[simp] theorem byteLength_nil : byteLength [] = 0 := rfl

@[simp] theorem byteLength_cons (c : Char) (cs : List Char) :
    byteLength (c :: cs) = c.utf8Size + byteLength cs := by
  simp [byteLength]

@[simp] theorem byteLength_append (cs ds : List Char) :
    byteLength (cs ++ ds) = byteLength cs + byteLength ds := by
  simp [byteLength]

theorem isBlank_iff {c : Char} :
    isBlank c = true ↔ c = '\n' ∨ c = ' ' ∨ c = '\r' ∨ c = '\x0c' ∨ c = '\t' := by
  simp [isBlank, or_assoc]

def Margin.past (m : Margin) (c : Char) : Margin :=
  if c = '\n' then m.lineFeed
  else if c = ' ' then m.widen 1
  else if c = '\t' then m.widen tabWidth
  else m.rewind

theorem readBlanks_cons {c : Char} (hc : isBlank c = true) (m : Margin) (position : Nat)
    (rest : List Char) :
    readBlanks m position (c :: rest) = readBlanks (m.past c) (position + c.utf8Size) rest := by
  rcases isBlank_iff.1 hc with rfl | rfl | rfl | rfl | rfl <;> rfl

theorem readBlanks_of_not_blank {c : Char} (hc : isBlank c = false) (hb : c ≠ '\\') (m : Margin)
    (position : Nat) (rest : List Char) :
    readBlanks m position (c :: rest) = ⟨some m, position, c :: rest⟩ := by
  have hn : ¬ (c = '\n' ∨ c = ' ' ∨ c = '\r' ∨ c = '\x0c' ∨ c = '\t') := by
    rw [← isBlank_iff, hc]
    exact Bool.false_ne_true
  unfold readBlanks
  split <;> simp_all

theorem readBlanks_append {run rest : List Char} (hrun : ∀ c ∈ run, isBlank c = true)
    (hrest : ∀ c ∈ rest.head?, isBlank c = false ∧ c ≠ '\\') (m : Margin) (position : Nat) :
    readBlanks m position (run ++ rest) =
      ⟨some (run.foldl Margin.past m), position + byteLength run, rest⟩ := by
  induction run generalizing m position with
  | nil =>
    cases rest with
    | nil => rfl
    | cons c rest =>
      obtain ⟨hc, hb⟩ := hrest c rfl
      exact readBlanks_of_not_blank hc hb m position rest
  | cons c run ih =>
    rw [List.cons_append, readBlanks_cons (hrun c List.mem_cons_self),
      ih (fun d hd => hrun d (List.mem_cons_of_mem c hd)), byteLength_cons, Nat.add_assoc]
    rfl

namespace Margin

def ofRun (run : List Char) : Margin := run.foldl past start

theorem ofRun_concat (run : List Char) (c : Char) : ofRun (run ++ [c]) = (ofRun run).past c := by
  rw [ofRun, List.foldl_append]
  rfl

theorem newLine_ofRun (run : List Char) : (ofRun run).newLine = true ↔ '\n' ∈ run := by
  induction run using List.reverseRecOn with
  | nil => simp [ofRun, start]
  | append_singleton run c ih =>
    rw [ofRun_concat, List.mem_append, List.mem_singleton, ← ih]
    unfold past
    by_cases hc : c = '\n'
    · simp [hc, lineFeed]
    · have hc' : ¬ '\n' = c := fun h => hc h.symm
      rw [if_neg hc]
      split
      · simp [widen, hc']
      · split <;> simp [widen, rewind, hc']

theorem width_ofRun {run : List Char} (h : ∀ c ∈ run, isBlank c = true) :
    (ofRun run).width.toNat = runWidth run := by
  induction run using List.reverseRecOn with
  | nil => rfl
  | append_singleton run c ih =>
    have ih := ih fun d hd => h d (List.mem_append_left _ hd)
    have hc := isBlank_iff.1 (h c (List.mem_append_right _ List.mem_cons_self))
    rw [ofRun_concat]
    unfold runWidth at ih ⊢
    rcases hc with rfl | rfl | rfl | rfl | rfl
    · simp [past, lineFeed, returns]
    · have hw := toNat_width_widen (ofRun run) 1
      simp [past, hw, returns, ih, maxWidth]
      omega
    · simp [past, rewind, returns]
    · simp [past, rewind, returns]
    · have hw := toNat_width_widen (ofRun run) 4
      simp [past, tabWidth, hw, returns, ih, maxWidth]
      omega

end Margin
end GrammarLoader.Layout
