import GrammarLoader.Proofs.Layout.Balance
import GrammarLoader.Proofs.Layout.Blank
import Mathlib.Data.List.SplitBy

/-! The outline of a text: its layout tokens as they are read off its runs of blanks, one run after
the other. A text without backslashes is scanned to exactly its outline, although the scan stops at
every character and spreads the end of several blocks over as many calls. -/

namespace GrammarLoader.Layout

/-- The longest runs of characters that are all blank, or all not. -/
def runs (text : List Char) : List (List Char) := text.splitBy fun a b => isBlank a == isBlank b

/-- The tokens of a line of width `w` at `offset`, and the widths of the open blocks after them. The
innermost width comes first. -/
def outlineLine (stack : List Nat) (w offset : Nat) : List ScannedToken × List Nat :=
  if stack.headD 0 < w then ([⟨.indent, offset⟩], w :: stack)
  else if w = stack.headD 0 then ([⟨.newline, offset⟩], stack)
  else
    let kept := stack.dropWhile (w < ·)
    (List.replicate (stack.length - kept.length) ⟨.dedent, offset⟩ ++ [⟨.newline, offset⟩], kept)

/-- The tokens of runs that begin at `offset`. Behind the last run each block is closed. -/
def outlineRuns (stack : List Nat) (offset : Nat) : List (List Char) → List ScannedToken
  | [] => List.replicate (stack.length - 1) ⟨.dedent, offset⟩
  | run :: more =>
    let after := offset + byteLength run
    if '\n' ∈ run then
      let line := outlineLine stack (runWidth run) after
      line.1 ++ outlineRuns line.2 after more
    else outlineRuns stack after more

/-- The layout tokens of a text, read off its runs of blanks. -/
def outline (text : String) : List ScannedToken := outlineRuns [0] 0 (runs text.toList)

theorem runs_append {run rest : List Char} (hne : run ≠ []) (hrun : ∀ c ∈ run, isBlank c = true)
    (hrest : ∀ c ∈ rest.head?, isBlank c = false) : runs (run ++ rest) = run :: runs rest := by
  have hsplit : runs (run ++ rest) = runs run ++ runs rest := by
    refine List.splitBy_append fun c hc d hd => ?_
    rw [hrun c (List.mem_of_mem_getLast? hc), hrest d hd]
    rfl
  have hchain : run.IsChain fun a b => (isBlank a == isBlank b) = true := by
    refine List.Pairwise.isChain (List.pairwise_iff_forall_sublist.2 fun {a b} hab => ?_)
    rw [hrun a (hab.subset List.mem_cons_self),
      hrun b (hab.subset (List.mem_cons_of_mem a List.mem_cons_self))]
    rfl
  rw [hsplit, runs, List.splitBy_of_isChain hne hchain]
  rfl

theorem runs_cons_of_ne {c d : Char} (h : isBlank c ≠ isBlank d) (rest : List Char) :
    runs (c :: d :: rest) = [c] :: runs (d :: rest) := by
  refine List.splitBy_append_cons (l := [c]) rest fun x hx => ?_
  obtain rfl : c = x := by simpa using hx
  exact beq_false_of_ne h

theorem runs_cons_of_eq {c d : Char} (h : isBlank c = isBlank d) (rest : List Char) :
    ∃ run more, runs (d :: rest) = run :: more ∧ runs (c :: d :: rest) = (c :: run) :: more := by
  obtain ⟨hflat, hnil, hchain, hsep⟩ := List.splitBy_eq_iff.1 (Eq.refl (runs (d :: rest)))
  cases hr : runs (d :: rest) with
  | nil => rw [hr] at hflat; cases hflat
  | cons run more =>
    rw [hr] at hflat hnil hchain hsep
    cases run with
    | nil => exact absurd List.mem_cons_self hnil
    | cons x run =>
      obtain ⟨rfl, -⟩ := List.cons.inj hflat
      refine ⟨d :: run, more, rfl, List.splitBy_eq_iff.2 ⟨?_, ?_, ?_, ?_⟩⟩
      · rw [hflat]
        rfl
      · intro hmem
        rcases List.mem_cons.1 hmem with h0 | hmem
        · cases h0
        · exact hnil (List.mem_cons_of_mem _ hmem)
      · intro m hm
        rcases List.mem_cons.1 hm with rfl | hm
        · exact List.isChain_cons_cons.2 ⟨by rw [h, beq_self_eq_true], hchain _ List.mem_cons_self⟩
        · exact hchain m (List.mem_cons_of_mem _ hm)
      · rw [List.isChain_cons] at hsep ⊢
        refine ⟨fun m hm => ?_, hsep.2⟩
        obtain ⟨ha, hb, hlast⟩ := hsep.1 m hm
        exact ⟨List.cons_ne_nil _ _, hb, by rwa [List.getLast_cons ha]⟩

def outlineFrom (stack : List Nat) (offset : Nat) (text : List Char) : List ScannedToken :=
  outlineRuns stack offset (runs text)

theorem outlineFrom_nil (stack : List Nat) (offset : Nat) :
    outlineFrom stack offset [] = List.replicate (stack.length - 1) ⟨.dedent, offset⟩ := rfl

theorem outlineFrom_line {run rest : List Char} (hrun : ∀ c ∈ run, isBlank c = true)
    (hrest : ∀ c ∈ rest.head?, isBlank c = false) (hlf : '\n' ∈ run) (stack : List Nat)
    (offset : Nat) :
    outlineFrom stack offset (run ++ rest) =
      (outlineLine stack (runWidth run) (offset + byteLength run)).1 ++
        outlineFrom (outlineLine stack (runWidth run) (offset + byteLength run)).2
          (offset + byteLength run) rest := by
  unfold outlineFrom
  rw [runs_append (List.ne_nil_of_mem hlf) hrun hrest, outlineRuns, if_pos hlf]

theorem runWidth_cons (c : Char) {run : List Char} (hlf : '\n' ∈ run) :
    runWidth (c :: run) = runWidth run := by
  have htake : (c :: run).rtakeWhile (!returns ·) = run.rtakeWhile (!returns ·) := by
    unfold List.rtakeWhile
    rw [List.reverse_cons, List.takeWhile_append, if_neg]
    intro hlen
    have hall := List.takeWhile_prefix (l := run.reverse) (!returns ·) |>.eq_of_length hlen
    have hr := List.mem_takeWhile_imp (hall ▸ List.mem_reverse.2 hlf)
    simp [returns] at hr
  unfold runWidth
  rw [htake]

theorem outlineFrom_cons {c : Char} (hc : c ≠ '\n') (stack : List Nat) (offset : Nat)
    (rest : List Char) :
    outlineFrom stack offset (c :: rest) = outlineFrom stack (offset + c.utf8Size) rest := by
  have hmem : ∀ run : List Char, '\n' ∈ c :: run ↔ '\n' ∈ run := by
    intro run
    rw [List.mem_cons, or_iff_right (Ne.symm hc)]
  unfold outlineFrom
  cases rest with
  | nil =>
    have hlf : '\n' ∉ [c] := by simpa using Ne.symm hc
    change outlineRuns stack offset [[c]] = _
    rw [outlineRuns, if_neg hlf, byteLength_cons, byteLength_nil, Nat.add_zero]
    rfl
  | cons d rest =>
    by_cases h : isBlank c = isBlank d
    · obtain ⟨run, more, hd, hcd⟩ := runs_cons_of_eq h rest
      rw [hd, hcd, outlineRuns, outlineRuns, byteLength_cons, ← Nat.add_assoc]
      by_cases hlf : '\n' ∈ run
      · rw [if_pos hlf, if_pos ((hmem run).2 hlf), runWidth_cons c hlf]
      · rw [if_neg hlf, if_neg (fun h => hlf ((hmem run).1 h))]
    · have hlf : '\n' ∉ [c] := by simpa using Ne.symm hc
      rw [runs_cons_of_ne h, outlineRuns, if_neg hlf, byteLength_cons, byteLength_nil, Nat.add_zero]

theorem outlineFrom_append {run : List Char} (hlf : '\n' ∉ run) (stack : List Nat) (offset : Nat)
    (rest : List Char) :
    outlineFrom stack offset (run ++ rest) = outlineFrom stack (offset + byteLength run) rest := by
  induction run generalizing offset with
  | nil => rfl
  | cons c run ih =>
    rw [List.mem_cons, not_or] at hlf
    rw [List.cons_append, outlineFrom_cons (Ne.symm hlf.1), ih hlf.2, byteLength_cons,
      Nat.add_assoc]

end GrammarLoader.Layout
