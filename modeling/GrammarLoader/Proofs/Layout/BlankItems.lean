import GrammarLoader.Proofs.Layout.Blank
import Mathlib.Order.WellFounded

/-! Blanks as a sequence of items: blank characters and line continuations. The longest such sequence
at the front of a text is what is read as its blanks, and the margin is that of the blank characters
alone, since a continuation counts for nothing. -/

namespace GrammarLoader.Layout

inductive BlankItem
  | plain (c : Char)
  /-- A backslash, a carriage return if `cr`, and a line feed. -/
  | continuation (cr : Bool)
  /-- A backslash, and a carriage return if `cr`, at the end of the text. -/
  | ending (cr : Bool)

namespace BlankItem

/-- The backslash of a continuation, and the carriage return if there is one. -/
def escape (cr : Bool) : List Char := '\\' :: if cr then ['\r'] else []

def chars : BlankItem → List Char
  | plain c => [c]
  | continuation cr => escape cr ++ ['\n']
  | ending cr => escape cr

/-- The item may stand in front of `rest`. -/
def Fits (rest : List Char) : BlankItem → Prop
  | plain c => isBlank c = true
  | continuation _ => True
  | ending _ => rest = []

def plain? : BlankItem → Option Char
  | plain c => some c
  | _ => none

theorem length_chars_pos (item : BlankItem) : 0 < item.chars.length := by
  cases item <;> simp [chars, escape]

end BlankItem

def spell (items : List BlankItem) : List Char := items.flatMap BlankItem.chars

def plains (items : List BlankItem) : List Char := items.filterMap BlankItem.plain?

@[simp] theorem spell_cons (item : BlankItem) (items : List BlankItem) :
    spell (item :: items) = item.chars ++ spell items := rfl

theorem spell_concat (items : List BlankItem) (item : BlankItem) :
    spell (items ++ [item]) = spell items ++ item.chars := by
  simp [spell]

/-- The items may stand one after the other in front of `rest`. -/
inductive Itemized : List BlankItem → List Char → Prop
  | nil (rest : List Char) : Itemized [] rest
  | cons {item : BlankItem} {items : List BlankItem} {rest : List Char}
      (h : item.Fits (spell items ++ rest)) (hs : Itemized items rest) :
      Itemized (item :: items) rest

/-- The text begins with the items, `rest` is behind them, and no more of the text is blank. -/
structure LongestBlanks (items : List BlankItem) (text rest : List Char) : Prop where
  split : spell items ++ rest = text
  itemized : Itemized items rest
  longest : ∀ items' rest', spell items' ++ rest' = text → Itemized items' rest' →
    rest.length ≤ rest'.length

theorem exists_longestBlanks (text : List Char) :
    ∃ items rest, LongestBlanks items text rest := by
  obtain ⟨⟨items, rest⟩, ⟨hsplit, hitems⟩, hmin⟩ := WellFounded.has_min
    (measure fun found : List BlankItem × List Char => found.2.length).wf
    {found | spell found.1 ++ found.2 = text ∧ Itemized found.1 found.2}
    ⟨([], text), rfl, .nil text⟩
  refine ⟨items, rest, hsplit, hitems, fun items' rest' hsplit' hitems' => ?_⟩
  exact Nat.not_lt.1 (hmin (items', rest') ⟨hsplit', hitems'⟩)

theorem Itemized.concat {items : List BlankItem} {item : BlankItem} {rest : List Char}
    (h : Itemized items (item.chars ++ rest)) (hitem : item.Fits rest) :
    Itemized (items ++ [item]) rest := by
  generalize htext : item.chars ++ rest = text at h
  induction h with
  | nil => exact .cons hitem (.nil rest)
  | @cons first items text hfirst _ ih =>
    subst htext
    have hsame : spell (items ++ [item]) ++ rest = spell items ++ (item.chars ++ rest) := by
      rw [spell_concat, List.append_assoc]
    exact .cons (hsame ▸ hfirst) (ih rfl)

namespace LongestBlanks

variable {items : List BlankItem} {text rest : List Char}

theorem not_fits (h : LongestBlanks items text rest) (item : BlankItem) {more : List Char}
    (hrest : rest = item.chars ++ more) : ¬item.Fits more := by
  intro hitem
  subst hrest
  have hle := h.longest (items ++ [item]) more
    (by rw [spell_concat, List.append_assoc, h.split]) (h.itemized.concat hitem)
  have hpos := item.length_chars_pos
  rw [List.length_append] at hle
  omega

theorem not_isBlank (h : LongestBlanks items text rest) :
    ∀ c ∈ rest.head?, isBlank c = false := by
  intro c hc
  obtain ⟨more, hrest⟩ := List.head?_eq_some_iff.1 hc
  exact Bool.eq_false_iff.2 (h.not_fits (.plain c) hrest)

end LongestBlanks

theorem readBlanks_spell {items : List BlankItem} {rest : List Char} (h : Itemized items rest)
    (m : Margin) (position : Nat) :
    readBlanks m position (spell items ++ rest) =
      readBlanks ((plains items).foldl Margin.past m) (position + byteLength (spell items))
        rest := by
  induction h generalizing m position with
  | nil => rfl
  | @cons item items rest hitem _ ih =>
    rw [spell_cons, List.append_assoc, byteLength_append, ← Nat.add_assoc]
    cases item with
    | plain c => exact (readBlanks_cons hitem m position _).trans (ih _ _)
    | continuation cr =>
      refine Eq.trans ?_ (ih m _)
      cases cr <;> rfl
    | ending cr =>
      -- Nothing is behind this item, so there is nothing left to read.
      have hnil : spell items ++ rest = [] := hitem
      refine Eq.trans ?_ (ih m _)
      rw [hnil]
      cases cr <;> rfl

variable {items : List BlankItem} {text rest : List Char}

/-- Items in front of a text at which nothing is read are the longest blanks. -/
theorem Itemized.longestBlanks (h : Itemized items rest)
    (hrest : ∀ m position, (readBlanks m position rest).rest = rest) :
    LongestBlanks items (spell items ++ rest) rest := by
  refine ⟨rfl, h, fun items' rest' hsplit hitems => ?_⟩
  have hread := readBlanks_spell h .start 0
  rw [← hsplit, readBlanks_spell hitems] at hread
  have hsuffix := rest_readBlanks_suffix ((plains items').foldl Margin.past .start)
    (0 + byteLength (spell items')) rest'
  rw [hread, hrest] at hsuffix
  exact hsuffix.length_le

/-- The margin behind the longest blanks is that of their blank characters. -/
theorem LongestBlanks.readBlanks (h : LongestBlanks items text rest) (hrest : rest.head? ≠ some '\\')
    (position : Nat) :
    readBlanks .start position text =
      ⟨some (Margin.ofRun (plains items)), position + byteLength (spell items), rest⟩ := by
  rw [← h.split, readBlanks_spell h.itemized]
  cases rest with
  | nil => rfl
  | cons c more =>
    have hc : isBlank c = false := h.not_isBlank c rfl
    have hb : c ≠ '\\' := fun heq => hrest (congrArg some heq)
    exact readBlanks_of_not_blank hc hb _ _ more

theorem BlankItem.exists_escape (more : List Char) :
    ∃ cr behind, '\\' :: more = escape cr ++ behind ∧ (cr = true ∨ behind.head? ≠ some '\r') := by
  by_cases h : more.head? = some '\r'
  · obtain ⟨behind, rfl⟩ := List.head?_eq_some_iff.1 h
    exact ⟨true, behind, rfl, .inl rfl⟩
  · exact ⟨false, more, rfl, .inr h⟩

/-- A backslash behind the longest blanks continues no line; it is read in vain. -/
theorem LongestBlanks.readBlanks_broken {cr : Bool} {more : List Char}
    (h : LongestBlanks items text (BlankItem.escape cr ++ more))
    (hcr : cr = true ∨ more.head? ≠ some '\r') (position : Nat) :
    Layout.readBlanks .start position text =
      ⟨none, position + byteLength (spell items ++ BlankItem.escape cr), more⟩ := by
  have hending : more ≠ [] := fun hnil => by
    subst hnil
    exact h.not_fits (.ending cr) rfl rfl
  have hline : ∀ behind, more ≠ '\n' :: behind := by
    rintro behind rfl
    have hrest : BlankItem.escape cr ++ '\n' :: behind =
        (BlankItem.continuation cr).chars ++ behind := by simp [BlankItem.chars]
    exact h.not_fits (.continuation cr) hrest trivial
  rw [← h.split, readBlanks_spell h.itemized, byteLength_append, ← Nat.add_assoc]
  obtain ⟨c, behind, rfl⟩ := List.exists_cons_of_ne_nil hending
  cases cr with
  | true => simp [BlankItem.escape, Layout.readBlanks, Char.utf8Size]
  | false =>
    have hret : c ≠ '\r' := fun heq => hcr.elim Bool.noConfusion fun hne => hne (by rw [heq]; rfl)
    simp [BlankItem.escape, Layout.readBlanks, hret, Char.utf8Size]

theorem Itemized.isBlank_plains (h : Itemized items rest) : ∀ c ∈ plains items, isBlank c = true := by
  induction h with
  | nil => exact fun c hc => absurd hc List.not_mem_nil
  | @cons item items rest hitem _ ih =>
    cases item with
    | plain c => exact List.forall_mem_cons.2 ⟨hitem, ih⟩
    | continuation | ending => exact ih

end GrammarLoader.Layout
