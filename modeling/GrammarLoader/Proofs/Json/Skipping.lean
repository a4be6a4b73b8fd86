import GrammarLoader.Proofs.Json.Reading

/-! Skipping takes any value off the front of a text. The brackets that are open are kept on a
stack, so what is shown of a value holds whatever stands on the stack below it: behind the value,
skipping goes on as it does behind any other. -/

namespace GrammarLoader.Json

namespace Ignored

section Tokens

theorem skipString_anyCharText {t : List Char} (h : AnyCharText t) (rest : List Char) :
    skipString (t ++ rest) = skipString rest := by
  have hescape {u : List Char} (hu : skipEscape (u ++ rest) = .ok rest) :
      skipString ('\\' :: (u ++ rest)) = skipString rest := by
    rw [skipString]
    split
    · next h =>
      rw [hu] at h
      rw [Except.ok.inj h]
    · next h =>
      rw [hu] at h
      cases h
  cases h with
  | @plain c hc hquote hslash =>
    change skipString (c :: rest) = _
    rw [skipString, if_neg (Char.not_lt.2 hc)]
    · exact hquote
    · exact hslash
  | @short e c h =>
    obtain ⟨hu, he⟩ := simpleEscape?_of_mem h
    refine hescape (u := [e]) ?_
    change (if e = 'u' then _ else if (simpleEscape? e).isSome then Except.ok rest else _) = _
    rw [if_neg hu, he]
    rfl
  | unit h =>
    obtain ⟨u, rfl, hread⟩ := readHex4_unitText h
    refine hescape (u := 'u' :: u) ?_
    change (readHex4 (u ++ rest) >>= _) = _
    rw [hread, Attempt.ok_bind]

theorem skipString_body {u : List Char} (h : AnyBodyText u) (rest : List Char) :
    skipString (u ++ '"' :: rest) = .ok rest := by
  induction h with
  | nil => rw [List.nil_append, skipString]
  | cons ht _ ih => rw [List.append_assoc, skipString_anyCharText ht, ih]

theorem exists_cons_of_digits {t : List Char} (ht : Digits t) :
    ∃ c u, t = c :: u ∧ c.isDigit = true := by
  obtain ⟨c, u, rfl⟩ := List.exists_cons_of_ne_nil ht.1
  exact ⟨c, u, rfl, ht.2 c List.mem_cons_self⟩

theorem skipDigits_append {t rest : List Char} (ht : Digits t)
    (hrest : startsWithDigit rest = false) : skipDigits (t ++ rest) = .ok rest := by
  have hdigits := ht.2
  obtain ⟨c, u, rfl, hc⟩ := exists_cons_of_digits ht
  have hstarts : startsWithDigit (c :: u ++ rest) = true := hc
  have hdrop : rest.dropWhile Char.isDigit = rest := by
    cases rest with
    | nil => rfl
    | cons c rest =>
      have hc : c.isDigit = false := hrest
      exact List.dropWhile_cons_of_neg (by rw [hc]; exact Bool.false_ne_true)
  unfold skipDigits
  rw [if_pos hstarts, List.dropWhile_append_of_pos hdigits, hdrop]

theorem takeSign_digits {t : List Char} (ht : Digits t) (rest : List Char) :
    (takeSign (t ++ rest)).2 = t ++ rest := by
  obtain ⟨c, u, rfl, hc⟩ := exists_cons_of_digits ht
  unfold takeSign
  split
  · next heq =>
    rw [(List.cons.inj heq).1] at hc
    exact absurd hc (by decide)
  · next heq =>
    rw [(List.cons.inj heq).1] at hc
    exact absurd hc (by decide)
  · rfl

theorem skipExponent_append {t rest : List Char} (ht : ExponentText t) (h : Ends rest) :
    skipExponent (t ++ rest) = .ok rest := by
  have hrest := startsWithDigit_of_ends h
  cases ht with
  | none =>
    rw [List.nil_append]
    unfold skipExponent
    split
    · exact absurd (h _ rfl) (by decide)
    · exact absurd (h _ rfl) (by decide)
    · rfl
  | @some e sign t he hsign ht =>
    have hsigned : (takeSign (sign ++ (t ++ rest))).2 = t ++ rest := by
      simp only [List.mem_cons, List.not_mem_nil, or_false] at hsign
      rcases hsign with rfl | rfl | rfl
      · exact takeSign_digits ht rest
      · rfl
      · rfl
    rw [List.cons_append, List.append_assoc]
    rcases he with rfl | rfl
    · change skipDigits (takeSign (sign ++ (t ++ rest))).2 = _
      rw [hsigned, skipDigits_append ht hrest]
    · change skipDigits (takeSign (sign ++ (t ++ rest))).2 = _
      rw [hsigned, skipDigits_append ht hrest]

theorem startsWithDigit_exponent {t rest : List Char} (ht : ExponentText t) (h : Ends rest) :
    startsWithDigit (t ++ rest) = false ∧ (t ++ rest).head? ≠ some '.' := by
  cases ht with
  | none => exact ⟨startsWithDigit_of_ends h, fun hc => absurd (h '.' hc) (by decide)⟩
  | some he _ _ =>
    rcases he with rfl | rfl
    · exact ⟨rfl, fun hc => absurd (Option.some.inj hc) (by decide)⟩
    · exact ⟨rfl, fun hc => absurd (Option.some.inj hc) (by decide)⟩

theorem skipFraction_append {t e rest : List Char} (ht : FractionText t) (he : ExponentText e)
    (h : Ends rest) : skipFraction (t ++ (e ++ rest)) = .ok rest := by
  obtain ⟨hdigit, hpoint⟩ := startsWithDigit_exponent he h
  cases ht with
  | none =>
    rw [List.nil_append]
    unfold skipFraction
    split
    · next heq => exact absurd (congrArg List.head? heq) hpoint
    · exact skipExponent_append he h
  | @some t ht =>
    change (skipDigits (t ++ (e ++ rest)) >>= skipExponent) = _
    rw [skipDigits_append ht hdigit, Attempt.ok_bind, skipExponent_append he h]

theorem startsWithDigit_fraction {t e rest : List Char} (ht : FractionText t) (he : ExponentText e)
    (h : Ends rest) : startsWithDigit (t ++ (e ++ rest)) = false := by
  cases ht with
  | none => exact (startsWithDigit_exponent he h).1
  | some ht => rfl

theorem skipMagnitude_append {whole t e rest : List Char} (hwhole : Digits whole)
    (hzero : whole = ['0'] ∨ whole.head? ≠ some '0') (ht : FractionText t) (he : ExponentText e)
    (h : Ends rest) : skipMagnitude (whole ++ (t ++ (e ++ rest))) = .ok rest := by
  have hdigit := startsWithDigit_fraction ht he h
  rcases hzero with rfl | hzero
  · change (if startsWithDigit (t ++ (e ++ rest)) then _ else _) = _
    rw [hdigit, if_neg Bool.false_ne_true]
    exact skipFraction_append ht he h
  · obtain ⟨c, u, rfl, -⟩ := exists_cons_of_digits hwhole
    unfold skipMagnitude
    split
    · next heq => exact absurd (congrArg some (List.cons.inj heq).1) hzero
    · rw [skipDigits_append hwhole hdigit, Attempt.ok_bind, skipFraction_append ht he h]

theorem skipScalar_digit {c : Char} (hc : c.isDigit = true) (rest : List Char) :
    skipScalar (c :: rest) = skipMagnitude (c :: rest) := by
  rw [skipScalar]
  · rw [if_pos hc]
  all_goals
    rintro rfl
    exact absurd hc (by decide)

theorem skipScalar_token {t rest : List Char} (ht : TokenText t) (h : Ends rest) :
    skipScalar (t ++ rest) = .ok rest := by
  cases ht with
  | null ht =>
    rw [ht]
    exact readWord_append ['u', 'l', 'l'] rest
  | @bool b _ ht =>
    cases b with
    | true =>
      rw [ht]
      exact readWord_append ['r', 'u', 'e'] rest
    | false =>
      rw [ht]
      exact readWord_append ['a', 'l', 's', 'e'] rest
  | string ht =>
    obtain ⟨u, hu, rfl⟩ := ht
    rw [List.cons_append, List.append_assoc]
    exact skipString_body hu rest
  | number ht =>
    obtain ⟨hsign, hwhole, hzero, hfraction, hexponent⟩ := ht
    have hread := skipMagnitude_append hwhole hzero hfraction hexponent h
    simp only [List.mem_cons, List.not_mem_nil, or_false] at hsign
    simp only [List.append_assoc]
    rcases hsign with rfl | rfl
    · obtain ⟨c, u, rfl, hc⟩ := exists_cons_of_digits hwhole
      exact (skipScalar_digit hc _).trans hread
    · exact hread

theorem avoids_tokenText : Avoids [']', '[', '\x7b'] TokenText := by
  intro t ht
  cases ht with
  | null ht => exact ⟨'n', _, ht, by decide, by decide⟩
  | @bool b _ ht =>
    cases b with
    | true => exact ⟨'t', _, ht, by decide, by decide⟩
    | false => exact ⟨'f', _, ht, by decide, by decide⟩
  | string ht =>
    obtain ⟨u, -, rfl⟩ := ht
    exact ⟨'"', _, rfl, by decide, by decide⟩
  | number ht =>
    obtain ⟨hsign, hwhole, -, -, -⟩ := ht
    simp only [List.mem_cons, List.not_mem_nil, or_false] at hsign
    rcases hsign with rfl | rfl
    · obtain ⟨c, u, rfl, hdigit⟩ := exists_cons_of_digits hwhole
      obtain ⟨hblank, hc⟩ := not_blank_of_number (.inr hdigit)
      exact ⟨c, _, rfl, hblank, fun hc' => hc (List.mem_cons_of_mem 'n' hc')⟩
    · exact ⟨'-', _, rfl, by decide, by decide⟩

end Tokens

/-- Skips the ends of containers, and then goes on with the next value in what is left open. -/
def goOn (afterValue : Bool) (opened : List Bracket) (text : List Char) : Attempt (List Char) :=
  skipEnds afterValue opened text >>= fun left =>
    if left.1 = [] then .ok left.2 else skipKeyIn left.1 left.2 >>= skipFrom left.1

theorem skipFrom_eq (opened : List Bracket) (text : List Char) :
    skipFrom opened text =
      skipStart opened text >>= fun started => goOn started.1 started.2.1 started.2.2 := by
  rw [skipFrom]
  split
  · next h => rw [h]; rfl
  · next afterValue left rest h =>
    rw [h, Attempt.ok_bind]
    unfold goOn
    split
    · next h => rw [h]; rfl
    · next h => rw [h]; rfl
    · next left rest hne h =>
      rw [h, Attempt.ok_bind]
      dsimp only
      rw [if_neg hne]
      split
      · next h => rw [h]; rfl
      · next h => rw [h]; rfl

/-- Skipping goes on behind every spelling, whatever is open. -/
def Skips (T : Spelling) : Prop :=
  ∀ opened b t rest, Blank b → T t → Ends rest →
    skipFrom opened (b ++ (t ++ rest)) = goOn true opened rest

theorem skips_tokenText : Skips TokenText := by
  intro opened b t rest hb ht h
  have hskip := skipScalar_token ht h
  rw [skipFrom_eq]
  unfold skipStart
  rw [avoids_tokenText.skipBlanks hb ht]
  obtain ⟨c, u, rfl, -, hc⟩ := avoids_tokenText t ht
  split
  · next heq =>
    rw [(List.cons.inj heq).1] at hc
    exact absurd hc (by decide)
  · next heq =>
    rw [(List.cons.inj heq).1] at hc
    exact absurd hc (by decide)
  · rw [hskip]
    rfl

section Containers

variable {opened : List Bracket}

theorem goOn_closer (bracket : Bracket) (afterValue : Bool) {b : List Char} (hb : Blank b)
    (rest : List Char) :
    goOn afterValue (bracket :: opened) (b ++ closer bracket :: rest) = goOn true opened rest := by
  have hblank : isBlank (closer bracket) = false := by cases bracket <;> decide
  unfold goOn
  rw [skipEnds, skipBlanks_append hb, skipBlanks_cons hblank]
  dsimp only
  rw [if_pos rfl]

theorem goOn_first (bracket : Bracket) {c : Char} (hc : isBlank c = false)
    (hne : c ≠ closer bracket) {b : List Char} (hb : Blank b) (rest : List Char) :
    goOn false (bracket :: opened) (b ++ c :: rest) =
      skipKeyIn (bracket :: opened) (c :: rest) >>= skipFrom (bracket :: opened) := by
  unfold goOn
  rw [skipEnds, skipBlanks_append hb, skipBlanks_cons hc]
  dsimp only
  rw [if_neg hne, if_pos Bool.false_ne_true, Attempt.ok_bind, if_neg (List.cons_ne_nil _ _)]

theorem goOn_comma (bracket : Bracket) {b : List Char} (hb : Blank b) (rest : List Char) :
    goOn true (bracket :: opened) (b ++ ',' :: rest) =
      skipKeyIn (bracket :: opened) rest >>= skipFrom (bracket :: opened) := by
  have hne : ',' ≠ closer bracket := by cases bracket <;> decide
  unfold goOn
  rw [skipEnds, skipBlanks_append hb, skipBlanks_cons (by decide)]
  dsimp only
  rw [if_neg hne, if_neg (not_not.2 rfl), if_pos rfl, Attempt.ok_bind,
    if_neg (List.cons_ne_nil _ _)]

/-- The elements of a list are skipped up to its end. -/
theorem goOn_elements {Ts : List Spelling} (h : ∀ T ∈ Ts, Skips T ∧ Avoids [']'] T) {first : Bool}
    {v : List Char} (hv : Items first Ts v) (rest : List Char) :
    goOn (!first) (.list :: opened) (v ++ ']' :: rest) = goOn true opened rest := by
  induction hv with
  | done hb => exact goOn_closer .list _ hb rest
  | first hb ht hv ih =>
    obtain ⟨⟨hskip, hT⟩, hTs⟩ := List.forall_mem_cons.1 h
    have hread := hskip (.list :: opened) [] _ _ blank_nil ht (hv.ends (c := ']') (by decide) rest)
    obtain ⟨c, u, rfl, hblank, hc⟩ := hT _ ht
    rw [List.append_assoc, List.append_assoc, List.cons_append]
    rw [Bool.not_true, goOn_first .list hblank (List.ne_of_not_mem_cons hc) hb]
    exact hread.trans (ih hTs)
  | next hb hb' ht hv ih =>
    obtain ⟨⟨hskip, -⟩, hTs⟩ := List.forall_mem_cons.1 h
    have hread := hskip (.list :: opened) _ _ _ hb' ht (hv.ends (c := ']') (by decide) rest)
    rw [List.append_assoc, List.cons_append, List.append_assoc, List.append_assoc]
    rw [Bool.not_false, goOn_comma .list hb]
    exact hread.trans (ih hTs)

theorem skipKeyIn_entry {b k b' : List Char} (hb : Blank b) (hk : AnyStringText k) (hb' : Blank b')
    (rest : List Char) :
    skipKeyIn (.map :: opened) (b ++ (k ++ (b' ++ ':' :: rest))) = .ok rest := by
  obtain ⟨u, hu, rfl⟩ := hk
  change skipKey _ = _
  unfold skipKey
  rw [skipBlanks_append hb, List.cons_append, skipBlanks_cons (by decide), List.append_assoc]
  change (skipString (u ++ '"' :: (b' ++ ':' :: rest)) >>= readColon) = _
  rw [skipString_body hu, Attempt.ok_bind, readColon_append hb']

theorem goOn_entries {Ts : List Spelling} (h : ∀ T ∈ Ts, Skips T) {first : Bool} {v : List Char}
    (hv : Items first (Ts.map (EntryText AnyStringText)) v) (rest : List Char) :
    goOn (!first) (.map :: opened) (v ++ '\x7d' :: rest) = goOn true opened rest := by
  induction Ts generalizing first v with
  | nil =>
    cases hv with
    | done hb => exact goOn_closer .map _ hb rest
  | cons T Ts ih =>
    obtain ⟨hskip, hTs⟩ := List.forall_mem_cons.1 h
    have hbehind {b k b₁ b₂ t v : List Char} (hb : Blank b) (hk : AnyStringText k) (hb₁ : Blank b₁)
        (hb₂ : Blank b₂) (ht : T t) (hv : Items false (Ts.map (EntryText AnyStringText)) v) :
        (skipKeyIn (.map :: opened)
            (b ++ (k ++ (b₁ ++ ':' :: (b₂ ++ (t ++ (v ++ '\x7d' :: rest)))))) >>=
          skipFrom (.map :: opened)) = goOn true opened rest := by
      rw [skipKeyIn_entry hb hk hb₁, Attempt.ok_bind]
      exact (hskip _ b₂ t _ hb₂ ht (hv.ends (by decide) rest)).trans (ih hTs hv)
    cases hv with
    | first hb ht hv =>
      obtain ⟨k, b₁, b₂, t, hk, hb₁, hb₂, ht, rfl⟩ := ht
      have hread := hbehind blank_nil hk hb₁ hb₂ ht hv
      obtain ⟨u, -, rfl⟩ := hk
      simp only [List.append_assoc, List.cons_append, List.nil_append] at hread ⊢
      rw [Bool.not_true, goOn_first .map (by decide) (by decide) hb]
      exact hread
    | next hb hb' ht hv =>
      obtain ⟨k, b₁, b₂, t, hk, hb₁, hb₂, ht, rfl⟩ := ht
      have hread := hbehind hb' hk hb₁ hb₂ ht hv
      simp only [List.append_assoc, List.cons_append]
      rw [Bool.not_false, goOn_comma .map hb]
      exact hread

theorem skips_listText {Ts : List Spelling} (h : ∀ T ∈ Ts, Skips T ∧ Avoids [']'] T) :
    Skips (ListText Ts) := by
  rintro opened b _ rest hb ⟨v, hv, rfl⟩ -
  rw [skipFrom_eq]
  unfold skipStart
  rw [skipBlanks_append hb, List.cons_append, skipBlanks_cons (by decide), List.append_assoc]
  exact goOn_elements h hv rest

theorem skips_mapText {Ts : List Spelling} (h : ∀ T ∈ Ts, Skips T) :
    Skips (MapText (Ts.map (EntryText AnyStringText))) := by
  rintro opened b _ rest hb ⟨v, hv, rfl⟩ -
  rw [skipFrom_eq]
  unfold skipStart
  rw [skipBlanks_append hb, List.cons_append, skipBlanks_cons (by decide), List.append_assoc]
  exact goOn_entries h hv rest

end Containers

theorem avoids_text (s : Shape) : Avoids [']'] s.Text := by
  cases s with
  | token =>
    rw [Shape.Text]
    exact avoids_tokenText.mono (by decide)
  | list elements =>
    rw [Shape.Text]
    rintro _ ⟨v, -, rfl⟩
    exact ⟨'[', _, rfl, by decide, by decide⟩
  | map values =>
    rw [Shape.Text]
    rintro _ ⟨v, -, rfl⟩
    exact ⟨'\x7b', _, rfl, by decide, by decide⟩

mutual

theorem skips_text : ∀ s : Shape, Skips s.Text
  | .token => by
    rw [Shape.Text]
    exact skips_tokenText
  | .list elements => by
    rw [Shape.Text]
    exact skips_listText (skips_texts elements)
  | .map values => by
    rw [Shape.Text]
    exact skips_mapText fun T hT => (skips_texts values T hT).1

theorem skips_texts : ∀ shapes : List Shape, ∀ T ∈ Shape.texts shapes, Skips T ∧ Avoids [']'] T
  | [] => fun T hT => by
    rw [Shape.texts] at hT
    cases hT
  | s :: shapes => by
    rw [Shape.texts]
    exact List.forall_mem_cons.2 ⟨⟨skips_text s, avoids_text s⟩, skips_texts shapes⟩

end

end Ignored

theorem Reader.Reads.ignored : Reader.ignored.Reads ValueText () := by
  rintro b t rest hb ⟨s, ht⟩ h
  change (Ignored.skipFrom [] (b ++ (t ++ rest)) >>= _) = _
  rw [Ignored.skips_text s [] b t rest hb ht h]
  rfl

end GrammarLoader.Json
