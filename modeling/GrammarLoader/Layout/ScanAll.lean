import GrammarLoader.Layout.Scanner

/-!
Scanning a whole text for its layout tokens. Every token is acceptable everywhere, and a character
at which no token starts is stepped over. The scan ends because each call reads a character, closes
a block or emits a pending token.
-/

namespace GrammarLoader.Layout

structure ScannedToken where
  token : Token
  offset : Nat
  deriving DecidableEq, Repr

namespace Scanner

/-- What the scanner still owes at the end of a text. -/
def debt (s : Scanner) : Nat := s.pending.toNat + s.levels.length

theorem debt_drain?_lt {s s' : Scanner} {valid : TokenSet} {t : Token}
    (h : s.drain? valid = some (t, s')) : s'.debt < s.debt := by
  simp only [drain?] at h
  split at h
  · rename_i hp
    obtain ⟨rfl, rfl⟩ := by simpa using h
    simp [debt, hp.1]
  · split at h
    · rename_i hp
      obtain ⟨rfl, rfl⟩ := by simpa using h
      have hpos : (1 : UInt16).toNat < s.pending.toNat := UInt16.lt_iff_toNat_lt.1 hp.1
      simp only [debt, UInt16.toNat_sub_of_le _ _ (UInt16.le_of_lt hp.1)]
      change 1 < s.pending.toNat at hpos
      change s.pending.toNat - 1 + _ < _
      omega
    · cases h

theorem debt_finish_lt {s : Scanner} {valid : TokenSet} {t : Token}
    (h : (s.finish valid).1 = some t) : (s.finish valid).2.debt < s.debt := by
  revert h
  fun_cases finish s valid <;> simp_all [debt]

/-- A call that finds a token reads a character, or leaves less owing. -/
theorem scan_progress {s : Scanner} {l : Lexer} {valid : TokenSet} {t : Token}
    (h : (s.scan l valid).token = some t) :
    (s.scan l valid).lexer.rest.length < l.rest.length ∨
      (s.scan l valid).lexer.rest.length = l.rest.length ∧
        (s.scan l valid).scanner.debt < s.debt := by
  revert h
  fun_cases scan s l valid with
  | case1 t s' hd => exact fun _ => .inr ⟨rfl, debt_drain?_lt hd⟩
  | case2 hd s' l' hb => simp
  | case3 hd s' l' margin hb t' s'' hp =>
    intro h
    have hl : l'.rest = l.skipBlanks.1.rest := by rw [hb]
    have hle := length_rest_skipBlanks_le l
    change l'.rest.length < _ ∨ l'.rest.length = _ ∧ s''.debt < _
    rw [hl]
    by_cases hm : margin.newLine = true
    · exact .inl (length_rest_skipBlanks_lt (by rw [hb]) hm)
    · rw [place, if_neg hm] at hp
      split at hp
      · have hlt : (s'.finish valid).2.debt < s'.debt :=
          debt_finish_lt (t := t) (by rw [hp]; exact h)
        have hs : s'.debt ≤ s.debt := by simp [s', debt]
        rw [hp] at hlt
        exact (Nat.lt_or_eq_of_le hle).imp id fun heq => ⟨heq, Nat.lt_of_lt_of_le hlt hs⟩
      · obtain ⟨rfl, -⟩ := by simpa using hp
        cases h

structure Run where
  tokens : List ScannedToken
  scanner : Scanner
  deriving DecidableEq, Repr

/--
Scans from the position of `l` to the end of the text, where `found` are the tokens so far, the last
one first. A layout token has no characters of its own: it stands behind the blanks read for it.
-/
def runFrom (s : Scanner) (l : Lexer) (found : List ScannedToken) : Run :=
  match _ : s.scan l .full with
  | ⟨some token, s', l'⟩ =>
    runFrom s' (.startAt l'.rest l'.position) (⟨token, l'.position⟩ :: found)
  | ⟨none, s', _⟩ =>
    match _ : l.rest with
    | c :: rest => runFrom s' (.startAt rest (l.position + c.utf8Size)) found
    | [] => ⟨found.reverse, s'⟩
termination_by (l.rest.length, s.debt)
decreasing_by
  · rename_i h
    have progress := @scan_progress s l .full token (by rw [h])
    rw [h] at progress
    simpa [Prod.lex_def, Lexer.startAt] using progress
  · rename_i h
    simp [Prod.lex_def, Lexer.startAt, h]

end Scanner

def run (text : String) : Scanner.Run := Scanner.initial.runFrom (.ofText text 0) []

def scanAll (text : String) : List ScannedToken := (run text).tokens

end GrammarLoader.Layout
