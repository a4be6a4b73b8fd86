import GrammarLoader.Proofs.Json.Agreement
import GrammarLoader.Proofs.Json.Spelling

/-! Readers that know a value by every spelling of it, whatever blanks stand before it and whatever
follows. Each combinator of readers hands this on from its parts. -/

namespace GrammarLoader.Json

variable {α β σ : Type}

theorem Attempt.ok_bind (a : α) (f : α → Attempt β) : ((.ok a : Attempt α) >>= f) = f a := rfl

section Blanks

theorem isBlank_of_blank {b : List Char} (hb : Blank b) : ∀ c ∈ b, isBlank c = true := by
  have hall : ∀ c ∈ [' ', '\n', '\t', '\r'], isBlank c = true :=
    List.all_eq_true.1 (by decide)
  exact fun c hc => hall c (hb c hc)

theorem skipBlanks_append {b : List Char} (hb : Blank b) (t : List Char) :
    skipBlanks (b ++ t) = skipBlanks t :=
  List.dropWhile_append_of_pos (isBlank_of_blank hb)

theorem skipBlanks_cons {c : Char} (hc : isBlank c = false) (t : List Char) :
    skipBlanks (c :: t) = c :: t := by
  unfold skipBlanks
  rw [List.dropWhile_cons_of_neg]
  rw [hc]
  exact Bool.false_ne_true

theorem skipBlanks_blank {b : List Char} (hb : Blank b) : skipBlanks b = [] := by
  have := skipBlanks_append hb []
  rwa [List.append_nil] at this

/-- What may stand behind a value: a blank, a comma, the end of a container, or nothing. -/
def Ends (rest : List Char) : Prop :=
  ∀ c ∈ rest.head?, c ∈ [' ', '\n', '\t', '\r', ',', ']', '\x7d']

theorem ends_nil : Ends [] := nofun

theorem ends_cons {c : Char} (hc : c ∈ [' ', '\n', '\t', '\r', ',', ']', '\x7d'])
    (rest : List Char) : Ends (c :: rest) := by
  rintro _ ⟨⟩
  exact hc

theorem ends_append {b rest : List Char} (hb : Blank b) (h : Ends rest) : Ends (b ++ rest) := by
  cases b with
  | nil => exact h
  | cons c b =>
    have hc : c ∈ [' ', '\n', '\t', '\r'] := hb c List.mem_cons_self
    exact ends_cons (List.mem_append_left [',', ']', '\x7d'] hc) (b ++ rest)

end Blanks

/-- The reader takes every spelling off the front of a text and gives the value `a`. -/
def Reader.Reads (r : Reader α) (T : Spelling) (a : α) : Prop :=
  ∀ b t rest, Blank b → T t → Ends rest → r.run (b ++ (t ++ rest)) = .ok (a, rest)

def Avoids (cs : List Char) (T : Spelling) : Prop :=
  ∀ t, T t → ∃ c u, t = c :: u ∧ isBlank c = false ∧ c ∉ cs

theorem Avoids.mono {cs cs' : List Char} {T : Spelling} (h : Avoids cs T) (hcs : cs' ⊆ cs) :
    Avoids cs' T := by
  intro t ht
  obtain ⟨c, u, rfl, hblank, hc⟩ := h t ht
  exact ⟨c, u, rfl, hblank, fun hc' => hc (hcs hc')⟩

theorem Avoids.skipBlanks {cs : List Char} {T : Spelling} (hT : Avoids cs T) {b t : List Char}
    (hb : Blank b) (ht : T t) (rest : List Char) : skipBlanks (b ++ (t ++ rest)) = t ++ rest := by
  obtain ⟨c, u, rfl, hc, -⟩ := hT t ht
  rw [skipBlanks_append hb, List.cons_append, skipBlanks_cons hc]

section Strings

theorem hexValue?_of_hexDigit {d : Nat} {c : Char} (h : HexDigit d c) : hexValue? c = some d := by
  obtain ⟨hd, hc⟩ := h
  have hlower : ∀ d < 16, hexValue? d.digitChar = some d := by decide
  have hupper : ∀ d < 16, hexValue? d.digitChar.toUpper = some d := by decide
  rcases hc with rfl | rfl
  · exact hlower d hd
  · exact hupper d hd

theorem readHex4_unitText {n : Nat} {t : List Char} (h : UnitText n t) :
    ∃ u, t = '\\' :: 'u' :: u ∧ ∀ rest, readHex4 (u ++ rest) = .ok (n, rest) := by
  obtain ⟨a, b, c, d, ha, hb, hc, hd, rfl⟩ := h
  refine ⟨[a, b, c, d], rfl, fun rest => ?_⟩
  have hn : ((n / 4096) * 16 + n / 256 % 16) * 256 + n / 16 % 16 * 16 + n % 16 = n := by omega
  have hvalue : hexValue4? a b c d = some n := by
    unfold hexValue4?
    rw [hexValue?_of_hexDigit ha, hexValue?_of_hexDigit hb, hexValue?_of_hexDigit hc,
      hexValue?_of_hexDigit hd]
    exact congrArg some hn
  change readHex4 (a :: b :: c :: d :: rest) = _
  unfold readHex4
  dsimp only
  rw [hvalue]

theorem simpleEscape?_of_mem {e c : Char} (h : (e, c) ∈ shortEscapes) :
    e ≠ 'u' ∧ simpleEscape? e = some c := by
  have hall : ∀ p ∈ shortEscapes, p.1 ≠ 'u' ∧ simpleEscape? p.1 = some p.2 := by decide
  exact hall (e, c) h

theorem readPairing_cons (c : Char) (rest : List Char) : readPairing c (c :: rest) = .ok rest :=
  if_pos rfl

theorem isHighSurrogate_iff {n : Nat} : isHighSurrogate n = true ↔ 0xD800 ≤ n ∧ n ≤ 0xDBFF := by
  unfold isHighSurrogate
  rw [Bool.and_eq_true, decide_eq_true_eq, decide_eq_true_eq]

theorem isLowSurrogate_iff {n : Nat} : isLowSurrogate n = true ↔ 0xDC00 ≤ n ∧ n ≤ 0xDFFF := by
  unfold isLowSurrogate
  rw [Bool.and_eq_true, decide_eq_true_eq, decide_eq_true_eq]

/-- A character of the basic plane is its own code unit, and none of those that make pairs. -/
theorem readUnicode_unit {c : Char} (hc : c.toNat < 0x10000) {u rest : List Char}
    (h : ∀ rest, readHex4 (u ++ rest) = .ok (c.toNat, rest)) :
    readUnicode (u ++ rest) = .ok (c, rest) := by
  have hvalid : c.toNat < 0xD800 ∨ 0xDFFF < c.toNat := by
    rcases c.valid with hlow | hhigh
    · exact .inl hlow
    · exact .inr hhigh.1
  have hlow : ¬isLowSurrogate c.toNat = true := by
    rw [isLowSurrogate_iff]
    omega
  have hhigh : ¬isHighSurrogate c.toNat = true := by
    rw [isHighSurrogate_iff]
    omega
  unfold readUnicode
  rw [h rest, Attempt.ok_bind]
  dsimp only
  rw [if_neg hlow, if_neg hhigh, Char.ofNat_toNat]

theorem surrogatePair_halves {c : Char} (hc : 0x10000 ≤ c.toNat) :
    surrogatePair (0xD800 + (c.toNat - 0x10000) / 0x400) (0xDC00 + (c.toNat - 0x10000) % 0x400) =
      c := by
  have hn : 0x10000 + (0xD800 + (c.toNat - 0x10000) / 0x400 - 0xD800) * 0x400 +
      (0xDC00 + (c.toNat - 0x10000) % 0x400 - 0xDC00) = c.toNat := by omega
  unfold surrogatePair
  rw [hn, Char.ofNat_toNat]

theorem readUnicode_pair {c : Char} (hc : 0x10000 ≤ c.toNat) {u v rest : List Char}
    (hu : ∀ rest, readHex4 (u ++ rest) = .ok (0xD800 + (c.toNat - 0x10000) / 0x400, rest))
    (hv : ∀ rest, readHex4 (v ++ rest) = .ok (0xDC00 + (c.toNat - 0x10000) % 0x400, rest)) :
    readUnicode (u ++ '\\' :: 'u' :: (v ++ rest)) = .ok (c, rest) := by
  have hlt : c.toNat < 0x110000 := by
    rcases c.valid with hlow | hhigh
    · exact Nat.lt_trans hlow (by decide)
    · exact hhigh.2
  have hlow : ¬isLowSurrogate (0xD800 + (c.toNat - 0x10000) / 0x400) = true := by
    rw [isLowSurrogate_iff]
    omega
  have hhigh : isHighSurrogate (0xD800 + (c.toNat - 0x10000) / 0x400) = true := by
    rw [isHighSurrogate_iff]
    omega
  have hlow' : isLowSurrogate (0xDC00 + (c.toNat - 0x10000) % 0x400) = true := by
    rw [isLowSurrogate_iff]
    omega
  unfold readUnicode
  rw [hu, Attempt.ok_bind]
  dsimp only
  rw [if_neg hlow, if_pos hhigh]
  rw [readPairing_cons, Attempt.ok_bind, readPairing_cons, Attempt.ok_bind, hv, Attempt.ok_bind]
  dsimp only
  rw [if_pos hlow', surrogatePair_halves hc]

theorem readStringFrom_escape {u rest : List Char} {c : Char}
    (h : readEscape (u ++ rest) = .ok (c, rest)) (found : List Char) :
    readStringFrom found ('\\' :: (u ++ rest)) = readStringFrom (c :: found) rest := by
  rw [readStringFrom]
  split
  · next hc =>
    rw [h] at hc
    obtain ⟨rfl, rfl⟩ := Prod.mk.inj (Except.ok.inj hc)
    rfl
  · next hf =>
    rw [h] at hf
    cases hf

theorem readStringFrom_charText {c : Char} {t : List Char} (h : CharText c t)
    (found rest : List Char) :
    readStringFrom found (t ++ rest) = readStringFrom (c :: found) rest := by
  cases h with
  | plain hc hquote hslash =>
    change readStringFrom found (c :: rest) = _
    rw [readStringFrom, if_neg (Char.not_lt.2 hc)]
    · exact hquote
    · exact hslash
  | @short e h =>
    obtain ⟨hu, he⟩ := simpleEscape?_of_mem h
    refine readStringFrom_escape (u := [e]) ?_ found
    change (if e = 'u' then readUnicode rest else _) = _
    rw [if_neg hu, he]
    rfl
  | unit h =>
    obtain ⟨u, rfl, hread⟩ := readHex4_unitText h
    refine readStringFrom_escape (u := 'u' :: u) ?_ found
    have hc : c.toNat < 0x10000 := by
      obtain ⟨_, _, _, _, ha, -⟩ := h
      have := ha.1
      omega
    exact readUnicode_unit hc hread
  | pair hc ht hu =>
    obtain ⟨u, rfl, hread⟩ := readHex4_unitText ht
    obtain ⟨v, rfl, hread'⟩ := readHex4_unitText hu
    have hescape : readEscape ('u' :: (u ++ '\\' :: 'u' :: v) ++ rest) = .ok (c, rest) := by
      rw [List.cons_append, List.append_assoc]
      exact readUnicode_pair hc hread hread'
    have := readStringFrom_escape hescape found
    simpa only [List.cons_append, List.append_assoc] using this

theorem readStringFrom_bodyText {cs u : List Char} (h : BodyText cs u) (found rest : List Char) :
    readStringFrom found (u ++ '"' :: rest) = .ok (String.ofList (found.reverse ++ cs), rest) := by
  induction h generalizing found with
  | nil =>
    rw [List.nil_append, readStringFrom, List.append_nil]
  | cons ht _ ih =>
    rw [List.append_assoc, readStringFrom_charText ht, ih, List.reverse_cons, List.append_assoc]
    rfl

theorem readString_body {s : String} {u : List Char} (h : BodyText s.toList u)
    (rest : List Char) : readString (u ++ '"' :: rest) = .ok (s, rest) := by
  unfold readString
  rw [readStringFrom_bodyText h, List.reverse_nil, List.nil_append, String.ofList_toList]

end Strings

section Numbers

theorem le_ofDigitChars (ds : List Char) (init : Nat) : init ≤ Nat.ofDigitChars 10 ds init := by
  induction ds generalizing init with
  | nil => exact Nat.le_refl init
  | cons c ds ih =>
    rw [Nat.ofDigitChars_cons]
    refine Nat.le_trans ?_ (ih _)
    omega

/-- Digits are all kept as long as the number they make is small enough. -/
theorem readDigits_append {ds rest : List Char} (hds : ∀ c ∈ ds, c.isDigit = true)
    (hrest : startsWithDigit rest = false) {digits : Nat} (kept : Nat)
    (hmax : Nat.ofDigitChars 10 ds digits ≤ maxSignificand) :
    readDigits ⟨digits, kept, 0⟩ (ds ++ rest) =
      (⟨Nat.ofDigitChars 10 ds digits, kept + ds.length, 0⟩, rest) := by
  induction ds generalizing digits kept with
  | nil =>
    cases rest with
    | nil => rfl
    | cons c rest =>
      have hc : c.isDigit = false := hrest
      change readDigits _ (c :: rest) = _
      rw [readDigits, hc, if_neg Bool.false_ne_true]
      rfl
  | cons c ds ih =>
    obtain ⟨hc, hds⟩ := List.forall_mem_cons.1 hds
    rw [Nat.ofDigitChars_cons] at hmax ⊢
    have hle := le_ofDigitChars ds (10 * digits + (c.toNat - '0'.toNat))
    have hpush : Significand.push ⟨digits, kept, 0⟩ c =
        ⟨10 * digits + (c.toNat - '0'.toNat), kept + 1, 0⟩ := by
      unfold Significand.push digitValue
      rw [Nat.mul_comm digits 10, if_pos ⟨rfl, Nat.le_trans hle hmax⟩]
    rw [List.cons_append, readDigits, if_pos hc, hpush, ih hds (kept + 1) hmax, List.length_cons]
    rw [Nat.add_assoc, Nat.add_comm 1]

theorem head_toDigits {n : Nat} (hn : n ≠ 0) :
    ∃ c ds, Nat.toDigits 10 n = c :: ds ∧ c ≠ '0' := by
  induction n using Nat.strongRecOn with
  | ind n ih =>
    rw [Nat.toDigits_eq_if (by decide)]
    split
    · next hlt =>
      have hall : ∀ n < 10, n ≠ 0 → n.digitChar ≠ '0' := by decide
      exact ⟨_, [], rfl, hall n hlt hn⟩
    · obtain ⟨c, ds, hdigits, hc⟩ := ih (n / 10) (by omega) (by omega)
      rw [hdigits]
      exact ⟨c, ds ++ [(n % 10).digitChar], rfl, hc⟩

theorem startsWithDigit_of_ends {rest : List Char} (h : Ends rest) :
    startsWithDigit rest = false := by
  cases rest with
  | nil => rfl
  | cons c rest =>
    have hall : [' ', '\n', '\t', '\r', ',', ']', '\x7d'].all (!·.isDigit) = true := by decide
    have hc : c.isDigit = false := by simpa using List.all_eq_true.1 hall c (h c rfl)
    exact hc

theorem readNumberTail_of_ends {rest : List Char} (h : Ends rest) (negative : Bool)
    (s : Significand) : readNumberTail negative s rest = finishInteger negative s rest := by
  unfold readNumberTail
  split
  · exact absurd (h _ rfl) (by decide)
  · exact absurd (h _ rfl) (by decide)
  · exact absurd (h _ rfl) (by decide)
  · rfl

theorem readMagnitude_toDigits {n : Nat} (hn : n ≤ maxSignificand) {rest : List Char}
    (h : Ends rest) (negative : Bool) :
    ∃ kept, readMagnitude negative (Nat.toDigits 10 n ++ rest) =
      finishInteger negative ⟨n, kept, 0⟩ rest := by
  have hrest := startsWithDigit_of_ends h
  have hdigits : ∀ c ∈ Nat.toDigits 10 n, c.isDigit = true := fun c hc =>
    Nat.isDigit_of_mem_toDigits (by decide) (by decide) hc
  have hvalue : Nat.ofDigitChars 10 (Nat.toDigits 10 n) 0 = n :=
    Nat.ofDigitChars_toDigits (by decide) (by decide)
  by_cases hzero : n = 0
  · subst hzero
    refine ⟨1, ?_⟩
    change readMagnitude negative ('0' :: rest) = _
    rw [readMagnitude, if_neg (by decide), if_pos rfl, hrest, if_neg Bool.false_ne_true]
    exact readNumberTail_of_ends h negative _
  · obtain ⟨c, ds, heq, hc⟩ := head_toDigits hzero
    rw [heq] at hdigits hvalue ⊢
    obtain ⟨hdigit, hds⟩ := List.forall_mem_cons.1 hdigits
    rw [Nat.ofDigitChars_cons, Nat.mul_zero, Nat.zero_add] at hvalue
    have hread : readDigits ⟨digitValue c, 1, 0⟩ (ds ++ rest) = _ :=
      readDigits_append hds hrest 1 (hvalue.symm ▸ hn)
    refine ⟨1 + ds.length, ?_⟩
    rw [List.cons_append, readMagnitude, if_neg (not_not.2 hdigit), if_neg hc, hread]
    dsimp only
    rw [readNumberTail_of_ends h]
    exact congrArg (fun n => finishInteger negative ⟨n, 1 + ds.length, 0⟩ rest) hvalue

theorem readScalar_number {c : Char} (hc : c = '-' ∨ c.isDigit = true) (rest : List Char) :
    readScalar (c :: rest) = readNumber (c :: rest) := by
  rw [readScalar]
  · rw [if_pos (by simpa using hc)]
  all_goals
    rintro rfl
    exact absurd hc (by decide)

theorem readNumber_digit {c : Char} (hc : c.isDigit = true) (rest : List Char) :
    readNumber (c :: rest) = readMagnitude false (c :: rest) := by
  rw [readNumber]
  rintro rest' heq
  rw [(List.cons.inj heq).1] at hc
  exact absurd hc (by decide)

theorem toList_ofNat (n : Nat) : (toString (Int.ofNat n)).toList = Nat.toDigits 10 n :=
  Nat.toList_repr

theorem toList_negSucc (n : Nat) :
    (toString (Int.negSucc n)).toList = '-' :: Nat.toDigits 10 (n + 1) := by
  change ("-" ++ (n + 1).repr).toList = _
  rw [String.toList_append, Nat.toList_repr]
  rfl

theorem exists_toDigits (n : Nat) :
    ∃ c ds, Nat.toDigits 10 n = c :: ds ∧ c.isDigit = true := by
  obtain ⟨c, ds, heq⟩ := List.exists_cons_of_ne_nil (Nat.toDigits_ne_nil (n := n) (b := 10))
  refine ⟨c, ds, heq, Nat.isDigit_of_mem_toDigits (b := 10) (n := n) (by decide) (by decide) ?_⟩
  rw [heq]
  exact List.mem_cons_self

theorem head_intText {n : Int} {t : List Char} (ht : IntText n t) :
    ∃ c u, t = c :: u ∧ (c = '-' ∨ c.isDigit = true) := by
  rw [ht]
  cases n with
  | ofNat n =>
    obtain ⟨c, ds, heq, hc⟩ := exists_toDigits n
    exact ⟨c, ds, (toList_ofNat n).trans heq, .inr hc⟩
  | negSucc n => exact ⟨'-', _, toList_negSucc n, .inl rfl⟩

/-- An integer that 64 bits hold is read as it is. -/
theorem readScalar_intText {n : Int} (hlow : -9223372036854775808 ≤ n)
    (hhigh : n ≤ maxSignificand) {t rest : List Char} (ht : IntText n t) (h : Ends rest) :
    readScalar (t ++ rest) = .ok (.int n, rest) := by
  rw [ht]
  cases n with
  | ofNat n =>
    obtain ⟨kept, hread⟩ := readMagnitude_toDigits (Int.ofNat_le.1 hhigh) h false
    obtain ⟨c, ds, heq, hc⟩ := exists_toDigits n
    rw [toList_ofNat, heq, List.cons_append, readScalar_number (.inr hc), readNumber_digit hc,
      ← List.cons_append, ← heq, hread]
    rfl
  | negSucc n =>
    have hn : n + 1 ≤ 9223372036854775808 := by omega
    obtain ⟨kept, hread⟩ := readMagnitude_toDigits (Nat.le_trans hn (by decide)) h true
    rw [toList_negSucc, List.cons_append, readScalar_number (.inl rfl)]
    change readMagnitude true (Nat.toDigits 10 (n + 1) ++ rest) = _
    rw [hread, finishInteger, if_neg (not_not.2 rfl), if_neg (by decide), if_neg]
    · rfl
    · dsimp only
      omega

end Numbers

section Scalars

theorem readWord_append (word rest : List Char) : readWord word (word ++ rest) = .ok rest := by
  induction word with
  | nil => rfl
  | cons w word ih => rw [List.cons_append, readWord, if_pos rfl, ih]

theorem avoids_stringText (s : String) : Avoids ['n', ']', '[', '\x7b'] (StringText s) := by
  rintro t ⟨u, -, rfl⟩
  exact ⟨'"', _, rfl, by decide, by decide⟩

theorem avoids_boolText (b : Bool) : Avoids ['n', ']'] (BoolText b) := by
  cases b with
  | true =>
    rintro _ rfl
    exact ⟨'t', _, rfl, by decide, by decide⟩
  | false =>
    rintro _ rfl
    exact ⟨'f', _, rfl, by decide, by decide⟩

theorem not_blank_of_number {c : Char} (hc : c = '-' ∨ c.isDigit = true) :
    isBlank c = false ∧ c ∉ ['n', ']', '[', '\x7b'] := by
  have hne {d : Char} (hd : d ≠ '-' ∧ d.isDigit = false) : c ≠ d := by
    rintro rfl
    rw [hd.2] at hc
    exact hc.elim hd.1 Bool.false_ne_true
  constructor
  · unfold isBlank
    simp only [hne (d := ' ') (by decide), hne (d := '\n') (by decide),
      hne (d := '\t') (by decide), hne (d := '\r') (by decide), decide_false, Bool.or_self]
  · simp only [List.mem_cons, hne (d := 'n') (by decide), hne (d := ']') (by decide),
      hne (d := '[') (by decide), hne (d := '\x7b') (by decide), List.not_mem_nil, or_self,
      not_false_eq_true]

theorem avoids_intText (n : Int) : Avoids ['n', ']', '[', '\x7b'] (IntText n) := by
  intro t ht
  obtain ⟨c, u, rfl, hc⟩ := head_intText ht
  exact ⟨c, u, rfl, not_blank_of_number hc⟩

theorem readScalar_stringText {s : String} {t : List Char} (ht : StringText s t)
    (rest : List Char) : readScalar (t ++ rest) = .ok (.string s, rest) := by
  obtain ⟨u, hu, rfl⟩ := ht
  rw [List.cons_append, List.append_assoc, readScalar]
  change (readString (u ++ '"' :: rest) >>= _) = _
  rw [readString_body hu, Attempt.ok_bind]

end Scalars

namespace Reader.Reads

variable {r : Reader α} {T : Spelling} {a : α}

theorem string (s : String) : Reader.string.Reads (StringText s) s := by
  intro b t rest hb ht h
  unfold Reader.string Reader.stringAs
  dsimp only
  rw [(avoids_stringText s).skipBlanks hb ht]
  obtain ⟨u, hu, rfl⟩ := ht
  rw [List.cons_append, List.append_assoc]
  exact readString_body hu rest

theorem bool (value : Bool) : Reader.bool.Reads (BoolText value) value := by
  intro b t rest hb ht h
  unfold Reader.bool
  dsimp only
  rw [(avoids_boolText value).skipBlanks hb ht]
  cases value with
  | true =>
    rw [ht]
    change (readWord _ (['r', 'u', 'e'] ++ rest) >>= _) = _
    rw [readWord_append, Attempt.ok_bind]
  | false =>
    rw [ht]
    change (readWord _ (['a', 'l', 's', 'e'] ++ rest) >>= _) = _
    rw [readWord_append, Attempt.ok_bind]

theorem map (h : r.Reads T a) (f : α → β) : (r.map f).Reads T (f a) := by
  intro b t rest hb ht hrest
  change (r.run (b ++ (t ++ rest)) >>= _) = _
  rw [h b t rest hb ht hrest, Attempt.ok_bind]

theorem accept (h : r.Reads T a) {f : α → Except Reason β} {b : β} (hf : f a = .ok b)
    (fail : Reason → List Char → Failure) : (r.accept f fail).Reads T b := by
  intro b t rest hb ht hrest
  change (r.run (b ++ (t ++ rest)) >>= _) = _
  rw [h b t rest hb ht hrest, Attempt.ok_bind]
  dsimp only
  rw [hf]

theorem option_null (r : Reader α) : r.option.Reads NullText none := by
  intro b t rest hb ht hrest
  unfold Reader.option
  dsimp only
  rw [ht, skipBlanks_append hb]
  change (readWord _ (['u', 'l', 'l'] ++ rest) >>= _) = _
  rw [readWord_append, Attempt.ok_bind]

theorem option_some (h : r.Reads T a) (hT : Avoids ['n'] T) : r.option.Reads T (some a) := by
  intro b t rest hb ht hrest
  have hread := h [] t rest blank_nil ht hrest
  unfold Reader.option
  dsimp only
  rw [hT.skipBlanks hb ht]
  obtain ⟨c, u, rfl, -, hc⟩ := hT t ht
  split
  · next heq => exact absurd (List.mem_singleton.2 (List.cons.inj heq).1) hc
  · change (r.run ([] ++ (c :: u ++ rest)) >>= _) = _
    rw [hread, Attempt.ok_bind]

theorem option {v : Option α} {text : α → Spelling}
    (h : ∀ a ∈ v, r.Reads (text a) a ∧ Avoids ['n'] (text a)) :
    r.option.Reads ((v.map text).getD NullText) v := by
  cases v with
  | none => exact option_null r
  | some a => exact option_some (h a rfl).1 (h a rfl).2

end Reader.Reads

section Containers

theorem Items.ends {Ts : List Spelling} {v : List Char} (h : Items false Ts v) {c : Char}
    (hc : c ∈ [' ', '\n', '\t', '\r', ',', ']', '\x7d']) (rest : List Char) :
    Ends (v ++ c :: rest) := by
  cases h with
  | done hb => exact ends_append hb (ends_cons hc rest)
  | next hb _ _ _ =>
    rw [List.append_assoc]
    exact ends_append hb (ends_cons (by decide) _)

theorem nextElement_done {b : List Char} (hb : Blank b) (first : Bool) (rest : List Char) :
    nextElement first (b ++ ']' :: rest) = .ok (false, ']' :: rest) := by
  unfold nextElement
  rw [skipBlanks_append hb]
  rfl

theorem nextElement_first {T : Spelling} (hT : Avoids [']'] T) {b t : List Char} (hb : Blank b)
    (ht : T t) (rest : List Char) :
    nextElement true (b ++ (t ++ rest)) = .ok (true, t ++ rest) := by
  unfold nextElement
  rw [hT.skipBlanks hb ht]
  obtain ⟨c, u, rfl, -, hc⟩ := hT t ht
  split
  · next heq => cases heq
  · next heq => exact absurd (List.mem_singleton.2 (List.cons.inj heq).1) hc
  · rfl

theorem skipBlanks_comma {b : List Char} (hb : Blank b) (rest : List Char) :
    skipBlanks (b ++ ',' :: rest) = ',' :: rest := by
  rw [skipBlanks_append hb, skipBlanks_cons (by decide)]

theorem nextElement_comma {text rest u : List Char} {c : Char} (h : skipBlanks text = ',' :: rest)
    (hrest : skipBlanks rest = c :: u) (hc : c ≠ ']') :
    nextElement false text = .ok (true, c :: u) := by
  simp [nextElement, h, hrest, hc]

theorem nextElement_next {T : Spelling} (hT : Avoids [']'] T) {b b' t : List Char} (hb : Blank b)
    (hb' : Blank b') (ht : T t) (rest : List Char) :
    nextElement false (b ++ ',' :: (b' ++ (t ++ rest))) = .ok (true, t ++ rest) := by
  have hskip := hT.skipBlanks hb' ht rest
  obtain ⟨c, u, rfl, -, hc⟩ := hT t ht
  exact nextElement_comma (skipBlanks_comma hb _) hskip (List.ne_of_not_mem_cons hc)

theorem foldList_more {r : Reader α} {T : Spelling} {a : α} (hread : r.Reads T a) (found : List α)
    {first : Bool} {text t rest : List Char}
    (hnext : nextElement first text = .ok (true, t ++ rest)) (ht : T t) (hends : Ends rest) :
    foldList (fun found => some (r.map (· :: found))) first found text =
      foldList (fun found => some (r.map (· :: found))) false (a :: found) rest := by
  have hrun : (r.map (· :: found)).run (t ++ rest) = .ok (a :: found, rest) :=
    hread.map (· :: found) [] t rest blank_nil ht hends
  rw [foldList_eq]
  dsimp only
  rw [hnext, Attempt.ok_bind]
  dsimp only
  rw [if_pos rfl, hrun, Attempt.ok_bind]

theorem foldList_items {r : Reader α} {Ts : List Spelling} {as : List α}
    (h : List.Forall₂ (fun T a => r.Reads T a ∧ Avoids [']'] T) Ts as) {first : Bool}
    {v : List Char} (hv : Items first Ts v) (found : List α) (rest : List Char) :
    foldList (fun found => some (r.map (· :: found))) first found (v ++ ']' :: rest) =
      .ok (as.reverse ++ found, ']' :: rest) := by
  induction hv generalizing as found with
  | done hb =>
    cases h
    rw [foldList_eq]
    dsimp only
    rw [nextElement_done hb, Attempt.ok_bind]
    rfl
  | first hb ht hv ih =>
    cases h with
    | cons hTa hs =>
      have hends := hv.ends (c := ']') (by decide) rest
      rw [List.append_assoc, List.append_assoc,
        foldList_more hTa.1 found (nextElement_first hTa.2 hb ht _) ht hends, ih hs,
        List.reverse_cons, List.append_assoc]
      rfl
  | next hb hb' ht hv ih =>
    cases h with
    | cons hTa hs =>
      have hends := hv.ends (c := ']') (by decide) rest
      rw [List.append_assoc, List.cons_append, List.append_assoc, List.append_assoc,
        foldList_more hTa.1 found (nextElement_next hTa.2 hb hb' ht _) ht hends, ih hs,
        List.reverse_cons, List.append_assoc]
      rfl

theorem nextKey_done {b : List Char} (hb : Blank b) (first : Bool) (rest : List Char) :
    nextKey first (b ++ '\x7d' :: rest) = .ok (none, '\x7d' :: rest) := by
  unfold nextKey
  rw [skipBlanks_append hb]
  rfl

theorem readKey_stringText {key : String} {k : List Char} (hk : StringText key k) (atEnd : Reason)
    (rest : List Char) : readKey atEnd (k ++ rest) = .ok (some key, rest) := by
  obtain ⟨u, hu, rfl⟩ := hk
  rw [List.cons_append, List.append_assoc]
  change (readString (u ++ '"' :: rest) >>= _) = _
  rw [readString_body hu, Attempt.ok_bind]

theorem nextKey_first {key : String} {b k : List Char} (hb : Blank b) (hk : StringText key k)
    (rest : List Char) : nextKey true (b ++ (k ++ rest)) = .ok (some key, rest) := by
  have hread := readKey_stringText hk (.endIn .map) rest
  unfold nextKey
  rw [(avoids_stringText key).skipBlanks hb hk]
  obtain ⟨u, -, rfl⟩ := hk
  exact hread

theorem nextKey_comma {text rest u : List Char} {c : Char} (h : skipBlanks text = ',' :: rest)
    (hrest : skipBlanks rest = c :: u) (hc : c ≠ '\x7d') :
    nextKey false text = readKey .endInValue (c :: u) := by
  simp [nextKey, h, hrest, hc]

theorem nextKey_next {key : String} {b b' k : List Char} (hb : Blank b) (hb' : Blank b')
    (hk : StringText key k) (rest : List Char) :
    nextKey false (b ++ ',' :: (b' ++ (k ++ rest))) = .ok (some key, rest) := by
  have hread := readKey_stringText hk .endInValue rest
  have hskip := (avoids_stringText key).skipBlanks hb' hk rest
  obtain ⟨u, -, rfl⟩ := hk
  exact (nextKey_comma (skipBlanks_comma hb _) hskip (by decide)).trans hread

theorem readColon_append {b : List Char} (hb : Blank b) (rest : List Char) :
    readColon (b ++ ':' :: rest) = .ok rest := by
  unfold readColon
  rw [skipBlanks_append hb]
  rfl

/-- The states that reading the entries of a map goes through. -/
inductive Folds (entry : σ → String → Except Reason (Reader σ)) :
    σ → List (String × Spelling) → σ → Prop
  | nil (s : σ) : Folds entry s [] s
  | cons {s s' s'' : σ} {key : String} {T : Spelling} {entries : List (String × Spelling)}
      {r : Reader σ} (hr : entry s key = .ok r) (hread : r.Reads T s')
      (h : Folds entry s' entries s'') : Folds entry s ((key, T) :: entries) s''

theorem foldMap_items {entry : σ → String → Except Reason (Reader σ)} {s s' : σ}
    {entries : List (String × Spelling)} (h : Folds entry s entries s') {first : Bool}
    {v : List Char} (hv : Items first (entries.map KeyedText) v) (rest : List Char) :
    foldMap entry first s (v ++ '\x7d' :: rest) = .ok (s', '\x7d' :: rest) := by
  induction h generalizing first v with
  | nil s =>
    cases hv with
    | done hb => rw [foldMap_eq, nextKey_done hb, Attempt.ok_bind]
  | @cons s s' s'' key T entries r hr hread _ ih =>
    have hbehind {b b' t v : List Char} (hb : Blank b) (hb' : Blank b') (ht : T t)
        (hv : Items false (entries.map KeyedText) v) :
        (readColon (b ++ ':' :: (b' ++ (t ++ (v ++ '\x7d' :: rest)))) >>= fun rest =>
          r.run rest >>= fun read => foldMap entry false read.1 read.2) =
            .ok (s'', '\x7d' :: rest) := by
      rw [readColon_append hb, Attempt.ok_bind, hread b' t _ hb' ht (hv.ends (by decide) rest),
        Attempt.ok_bind, ih hv]
    cases hv with
    | first hb ht hv =>
      obtain ⟨k, b₁, b₂, t, hk, hb₁, hb₂, ht, rfl⟩ := ht
      rw [foldMap_eq]
      simp only [List.append_assoc, List.cons_append]
      rw [nextKey_first hb hk, Attempt.ok_bind]
      dsimp only
      rw [hr]
      exact hbehind hb₁ hb₂ ht hv
    | next hb hb' ht hv =>
      obtain ⟨k, b₁, b₂, t, hk, hb₁, hb₂, ht, rfl⟩ := ht
      rw [foldMap_eq]
      simp only [List.append_assoc, List.cons_append]
      rw [nextKey_next hb hb' hk, Attempt.ok_bind]
      dsimp only
      rw [hr]
      exact hbehind hb₁ hb₂ ht hv

end Containers

end GrammarLoader.Json
