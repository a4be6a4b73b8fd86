import GrammarLoader.Proofs.Json.Agreement
import GrammarLoader.Proofs.Text.Plain
import GrammarLoader.Dictionary
import GrammarLoader.Json.Enumerated
import GrammarLoader.Json.Record
import GrammarLoader.Json.Value

/-! The messages of failures. A message repeats the name of an unknown variant as it is; everything
else in it is quoted or a text of the reader that failed. Each combinator of readers keeps it so,
by a lemma of its name. -/

namespace GrammarLoader.Json

open Text

variable {α β σ : Type}

theorem Scalar.plain_describe (v : Scalar) : Plain v.describe := by
  cases v with
  | null => decide
  | bool value => cases value <;> decide
  | int value => exact .append (.append (by decide) (plain_int value)) (by decide)
  | float value => exact .append (.append (by decide) (plain_decimal value)) (by decide)
  | string value => exact .append (by decide) (plain_quote value)

theorem Found.plain_describe (v : Found) : Plain v.describe := by
  cases v with
  | scalar value => exact value.plain_describe
  | list => decide
  | map => decide

theorem plain_oneOf {names : List String} (h : ∀ name ∈ names, Plain name) :
    Plain (oneOf names) := by
  have hquoted (name : String) (hname : Plain name) : Plain ("`" ++ name ++ "`") :=
    (Plain.append (by decide) hname).append (by decide)
  unfold oneOf
  split
  · exact hquoted _ (h _ List.mem_cons_self)
  · obtain ⟨ha, hb⟩ := List.forall_mem_cons.1 h
    have hleft := (Plain.append (s := "`") (by decide) ha).append (t := "` or `") (by decide)
    exact (hleft.append (hb _ List.mem_cons_self)).append (by decide)
  · refine .append (by decide) (plain_intercalate (by decide) ?_)
    exact List.forall_mem_map.2 fun name hname => hquoted name (h name hname)

/-- The texts of the reader that a reason holds are plain. -/
def Reason.Tidy : Reason → Prop
  | .invalidType _ expected => Plain expected
  | .unknownVariant _ variants => Plain (oneOf variants)
  | .duplicateField name => Plain name
  | .missingField name => Plain name
  | .invalidLength _ expected => Plain expected
  | .noVariant type => Plain type
  | _ => True

/-- Only the name of an unknown variant can keep a message from being plain. -/
theorem Reason.plain_message_iff {r : Reason} (h : r.Tidy) :
    Plain r.message ↔ ∀ name variants, r = .unknownVariant name variants → Plain name := by
  have hplain (hr : ∀ name variants, r ≠ .unknownVariant name variants) (hm : Plain r.message) :
      Plain r.message ↔ ∀ name variants, r = .unknownVariant name variants → Plain name :=
    iff_of_true hm fun name variants heq => absurd heq (hr name variants)
  cases r with
  | unknownVariant name variants =>
    have hvariants : Plain (oneOf variants) := h
    constructor
    · intro hm name' variants' heq
      obtain ⟨rfl, -⟩ := Reason.unknownVariant.inj heq
      exact (plain_append.1 (plain_append.1 (plain_append.1 hm).1).1).2
    · intro hname
      have hleft : Plain ("unknown variant `" ++ name) :=
        .append (by decide) (hname name variants rfl)
      exact .append (.append hleft (by decide)) hvariants
  | invalidType found expected =>
    have hleft : Plain ("invalid type: " ++ found.describe) :=
      .append (by decide) found.plain_describe
    exact hplain nofun (.append (.append hleft (by decide)) h)
  | invalidLength length expected =>
    have hleft : Plain ("invalid length " ++ toString length) :=
      .append (by decide) (plain_nat length)
    exact hplain nofun (.append (.append hleft (by decide)) h)
  | duplicateField name => exact hplain nofun (.append (.append (by decide) h) (by decide))
  | missingField name => exact hplain nofun (.append (.append (by decide) h) (by decide))
  | noVariant type => exact hplain nofun (.append (by decide) h)
  | endIn container => exact hplain nofun (by cases container <;> decide)
  | expectedComma container => exact hplain nofun (by cases container <;> decide)
  | _ => exact hplain nofun (by decide)

/-- If the attempt fails, then for a tidy reason. -/
def Attempt.Tidy : Attempt α → Prop
  | .ok _ => True
  | .error f => f.reason.Tidy

theorem Attempt.Tidy.bind {x : Attempt α} {f : α → Attempt β} (h : x.Tidy)
    (hf : ∀ a, (f a).Tidy) : (x >>= f).Tidy := by
  cases x with
  | ok a => exact hf a
  | error f => exact h

theorem Attempt.Tidy.of_error {x : Attempt α} (h : x.Tidy) {f : Failure} (hf : x = .error f) :
    f.reason.Tidy := by
  rw [hf] at h
  exact h

/-- The error of a whole text has the reason of the failure, and lies somewhere in the text. -/
theorem Attempt.Tidy.toError {x : Attempt α} (h : x.Tidy) {text : List Char} {e : ReadError}
    (he : x.mapError (·.toError text) = .error e) :
    e.reason.Tidy ∧ ∃ offset, e.place = .ofOffset text offset := by
  cases x with
  | ok a => cases he
  | error f =>
    rw [← Except.error.inj he]
    refine ⟨h, ?_⟩
    cases f <;> exact ⟨_, rfl⟩

/-- A place lies on the line it began on, or behind as many line feeds as there are at most. -/
theorem Place.line_walk (place : Place) (offset : Nat) (text : List Char) :
    place.line ≤ (place.walk offset text).line ∧
      (place.walk offset text).line ≤ place.line + text.count '\n' := by
  induction text generalizing place offset with
  | nil => exact ⟨Nat.le_refl _, Nat.le_add_right _ _⟩
  | cons c text ih =>
    rw [walk, List.count_cons]
    split
    · exact ⟨Nat.le_refl _, Nat.le_add_right _ _⟩
    · split
      · next hc =>
        have := ih ⟨place.line + 1, 0⟩ (offset - c.utf8Size)
        dsimp only at this
        rw [if_pos (by simp [hc])]
        omega
      · have := ih ⟨place.line, place.column + c.utf8Size⟩ (offset - c.utf8Size)
        dsimp only at this
        omega

section Lexemes

theorem tidy_readWord (word text : List Char) : (readWord word text).Tidy := by
  induction word generalizing text with
  | nil => trivial
  | cons w word ih =>
    cases text with
    | nil => trivial
    | cons c text =>
      rw [readWord]
      split
      · exact ih text
      · trivial

theorem tidy_readHex4 (text : List Char) : (readHex4 text).Tidy := by
  have hfail (f : Failure) (h : f = .before .endInString [] ∨ f = .placed .invalidEscape text 4) :
      f.reason.Tidy := by
    rcases h with rfl | rfl <;> trivial
  unfold readHex4
  dsimp only
  split
  · split
    · trivial
    · exact hfail _ (ite_eq_or_eq ..)
  · exact hfail _ (ite_eq_or_eq ..)

theorem tidy_readPairing (c : Char) (text : List Char) : (readPairing c text).Tidy := by
  unfold readPairing
  split
  · trivial
  · split <;> trivial

theorem tidy_readUnicode (text : List Char) : (readUnicode text).Tidy := by
  refine (tidy_readHex4 text).bind ?_
  rintro ⟨n, rest⟩
  dsimp only
  split
  · trivial
  · split
    · refine (tidy_readPairing '\\' rest).bind fun rest => ?_
      refine (tidy_readPairing 'u' rest).bind fun rest => ?_
      refine (tidy_readHex4 rest).bind ?_
      rintro ⟨low, rest⟩
      dsimp only
      split <;> trivial
    · trivial

theorem tidy_readEscape (text : List Char) : (readEscape text).Tidy := by
  unfold readEscape
  split
  · trivial
  · split
    · exact tidy_readUnicode _
    · split <;> trivial

theorem tidy_readStringFrom (found text : List Char) : (readStringFrom found text).Tidy := by
  fun_induction readStringFrom found text with
  | case1 => trivial
  | case2 => trivial
  | case3 _ _ _ _ _ ih => exact ih
  | case4 _ rest f h => exact (tidy_readEscape rest).of_error h
  | case5 => trivial
  | case6 _ _ _ _ _ _ ih => exact ih

theorem tidy_readColon (text : List Char) : (readColon text).Tidy := by
  unfold readColon
  split <;> trivial

end Lexemes

section Numbers

variable {negative : Bool}

theorem tidy_finishFloat (digits : Nat) (exponent : Int) (rest : List Char) :
    (finishFloat negative digits exponent rest).Tidy := by
  unfold finishFloat
  split <;> trivial

theorem tidy_finishInteger (s : Significand) (rest : List Char) :
    (finishInteger negative s rest).Tidy := by
  unfold finishInteger
  split
  · exact tidy_finishFloat ..
  · split
    · trivial
    · split
      · exact tidy_finishFloat ..
      · trivial

theorem tidy_readExponent (digits : Nat) (exponent : Int) (text : List Char) :
    (readExponent negative digits exponent text).Tidy := by
  unfold readExponent
  dsimp only
  split
  · trivial
  · split
    · trivial
    · split
      · exact tidy_finishFloat ..
      · split <;> trivial

theorem tidy_readFraction (s : Significand) (text : List Char) :
    (readFraction negative s text).Tidy := by
  unfold readFraction
  split
  · unfold missingDigit
    split <;> trivial
  · dsimp only
    split
    · exact tidy_readExponent ..
    · exact tidy_readExponent ..
    · exact tidy_finishFloat ..

theorem tidy_readNumberTail (s : Significand) (text : List Char) :
    (readNumberTail negative s text).Tidy := by
  unfold readNumberTail
  split
  · exact tidy_readFraction ..
  · exact tidy_readExponent ..
  · exact tidy_readExponent ..
  · exact tidy_finishInteger ..

theorem tidy_readMagnitude (text : List Char) : (readMagnitude negative text).Tidy := by
  unfold readMagnitude
  split
  · trivial
  · split
    · trivial
    · split
      · split
        · trivial
        · exact tidy_readNumberTail ..
      · exact tidy_readNumberTail ..

theorem tidy_readNumber (text : List Char) : (readNumber text).Tidy := by
  unfold readNumber
  split <;> exact tidy_readMagnitude _

end Numbers

theorem tidy_readScalar (text : List Char) : (readScalar text).Tidy := by
  unfold readScalar
  split
  · trivial
  · exact (tidy_readStringFrom ..).bind fun _ => trivial
  · exact (tidy_readWord ..).bind fun _ => trivial
  · exact (tidy_readWord ..).bind fun _ => trivial
  · exact (tidy_readWord ..).bind fun _ => trivial
  · split
    · exact tidy_readNumber _
    · trivial

theorem tidy_unexpected {expected : String} (h : Plain expected) (text : List Char) :
    (unexpected expected text).reason.Tidy := by
  unfold unexpected
  split
  · exact h
  · exact h
  · split
    · exact h
    · next hf => exact (tidy_readScalar text).of_error hf

namespace Ignored

theorem tidy_skipEscape (text : List Char) : (skipEscape text).Tidy := by
  unfold skipEscape
  split
  · trivial
  · split
    · exact (tidy_readHex4 _).bind fun _ => trivial
    · split <;> trivial

theorem tidy_skipString (text : List Char) : (skipString text).Tidy := by
  fun_induction skipString text with
  | case1 => trivial
  | case2 => trivial
  | case3 _ _ _ ih => exact ih
  | case4 rest f h => exact (tidy_skipEscape rest).of_error h
  | case5 => trivial
  | case6 _ _ _ _ _ ih => exact ih

theorem tidy_skipDigits (text : List Char) : (skipDigits text).Tidy := by
  unfold skipDigits
  split <;> trivial

theorem tidy_skipExponent (text : List Char) : (skipExponent text).Tidy := by
  unfold skipExponent
  split
  · exact tidy_skipDigits _
  · exact tidy_skipDigits _
  · trivial

theorem tidy_skipFraction (text : List Char) : (skipFraction text).Tidy := by
  unfold skipFraction
  split
  · exact (tidy_skipDigits _).bind tidy_skipExponent
  · exact tidy_skipExponent _

theorem tidy_skipMagnitude (text : List Char) : (skipMagnitude text).Tidy := by
  unfold skipMagnitude
  split
  · split
    · trivial
    · exact tidy_skipFraction _
  · exact (tidy_skipDigits _).bind tidy_skipFraction

theorem tidy_skipScalar (text : List Char) : (skipScalar text).Tidy := by
  unfold skipScalar
  split
  · trivial
  · exact tidy_skipString _
  · exact tidy_readWord ..
  · exact tidy_readWord ..
  · exact tidy_readWord ..
  · exact tidy_skipMagnitude _
  · split
    · exact tidy_skipMagnitude _
    · trivial

theorem tidy_skipEnds (afterValue : Bool) (opened : List Bracket) (text : List Char) :
    (skipEnds afterValue opened text).Tidy := by
  induction opened generalizing afterValue text with
  | nil => trivial
  | cons b opened ih =>
    rw [skipEnds]
    split
    · trivial
    · split
      · exact ih ..
      · split
        · trivial
        · split <;> trivial

theorem tidy_skipKeyIn (opened : List Bracket) (text : List Char) :
    (skipKeyIn opened text).Tidy := by
  unfold skipKeyIn skipKey
  split
  · split
    · trivial
    · exact (tidy_skipString _).bind tidy_readColon
    · trivial
  · trivial

theorem tidy_skipStart (opened : List Bracket) (text : List Char) :
    (skipStart opened text).Tidy := by
  unfold skipStart
  split
  · trivial
  · trivial
  · exact (tidy_skipScalar _).bind fun _ => trivial

theorem tidy_skipFrom (opened : List Bracket) (text : List Char) :
    (skipFrom opened text).Tidy := by
  fun_induction skipFrom opened text with
  | case1 opened text f h => exact (tidy_skipStart opened text).of_error h
  | case2 _ _ afterValue opened rest _ f h =>
    exact (tidy_skipEnds afterValue opened rest).of_error h
  | case3 => trivial
  | case4 _ _ _ _ _ _ opened rest _ _ f h => exact (tidy_skipKeyIn opened rest).of_error h
  | case5 _ _ _ _ _ _ _ _ _ _ _ _ ih => exact ih

end Ignored

/-- Whatever the text, the reader fails only for tidy reasons. -/
def Reader.Tidy (r : Reader α) : Prop := ∀ text, (r.run text).Tidy

def Body.Tidy (body : Body α) : Prop := ∀ text, (body.run text).Tidy

def RecordField.Tidy (f : RecordField σ) : Prop := Plain f.name ∧ ∀ s, (f.read s).Tidy

namespace Reader.Tidy

theorem ignored : Reader.ignored.Tidy := fun text =>
  (Ignored.tidy_skipFrom [] text).bind fun _ => trivial

theorem refuse {expected : String} (h : Plain expected) :
    (Reader.refuse expected : Reader α).Tidy := fun text =>
  tidy_unexpected h (skipBlanks text)

theorem scalar : Reader.scalar.Tidy := fun text => tidy_readScalar (skipBlanks text)

theorem stringAs {expected : String} (h : Plain expected) : (Reader.stringAs expected).Tidy := by
  intro text
  dsimp only [Reader.stringAs]
  split
  · exact tidy_readStringFrom ..
  · exact tidy_unexpected h _

theorem string : Reader.string.Tidy := stringAs (by decide)

theorem bool : Reader.bool.Tidy := by
  intro text
  dsimp only [Reader.bool]
  split
  · exact (tidy_readWord ..).bind fun _ => trivial
  · exact (tidy_readWord ..).bind fun _ => trivial
  · exact tidy_unexpected (by decide) _

theorem unit : Reader.unit.Tidy := by
  intro text
  dsimp only [Reader.unit]
  split
  · exact (tidy_readWord ..).bind fun _ => trivial
  · exact tidy_unexpected (by decide) _

variable {r : Reader α}

theorem option (h : r.Tidy) : r.option.Tidy := by
  intro text
  dsimp only [Reader.option]
  split
  · exact (tidy_readWord ..).bind fun _ => trivial
  · exact (h _).bind fun _ => trivial

theorem map (h : r.Tidy) (f : α → β) : (r.map f).Tidy := fun text =>
  (h text).bind fun _ => trivial

theorem accept (h : r.Tidy) {f : α → Except Reason β} {fail : Reason → List Char → Failure}
    (hf : ∀ a reason, f a = .error reason → reason.Tidy)
    (hfail : ∀ reason rest, (fail reason rest).reason = reason) : (r.accept f fail).Tidy := by
  refine fun text => (h text).bind ?_
  rintro ⟨a, rest⟩
  dsimp only
  split
  · trivial
  · next reason hreason =>
    rw [Attempt.Tidy, hfail]
    exact hf a reason hreason

theorem toError_readAll (h : r.Tidy) {text : String} {e : ReadError}
    (he : r.readAll text = .error e) :
    e.reason.Tidy ∧ ∃ offset, e.place = .ofOffset text.toList offset := by
  refine Attempt.Tidy.toError ((h text.toList).bind ?_) he
  rintro ⟨a, rest⟩
  dsimp only
  split <;> trivial

end Reader.Tidy

section Containers

theorem tidy_nextElement (first : Bool) (text : List Char) : (nextElement first text).Tidy := by
  unfold nextElement
  split
  · trivial
  · trivial
  · split
    · trivial
    · split
      · split <;> trivial
      · trivial

theorem tidy_readKey {atEnd : Reason} (h : atEnd.Tidy) (text : List Char) :
    (readKey atEnd text).Tidy := by
  unfold readKey
  split
  · exact h
  · exact (tidy_readStringFrom ..).bind fun _ => trivial
  · trivial

theorem tidy_nextKey (first : Bool) (text : List Char) : (nextKey first text).Tidy := by
  unfold nextKey
  split
  · trivial
  · split
    · exact tidy_readKey (show Reason.Tidy (.endIn .map) from trivial) _
    · split
      · trivial
      · split
        · trivial
        · exact tidy_readKey (show Reason.Tidy .endInValue from trivial) _
      · trivial

/-- The reader fails only for tidy reasons, and its values satisfy `P`. -/
structure Reader.Gives (P : α → Prop) (r : Reader α) : Prop where
  tidy : r.Tidy
  holds : ∀ text a rest, r.run text = .ok (a, rest) → P a

theorem Reader.Tidy.gives_map {P : β → Prop} {r : Reader α} (h : r.Tidy) {f : α → β}
    (hf : ∀ a, P (f a)) : (r.map f).Gives P := by
  refine ⟨h.map f, fun text b rest hrun => ?_⟩
  obtain ⟨⟨a, rest'⟩, -, heq⟩ := Attempt.bind_eq_ok.1 hrun
  rw [← (Prod.mk.inj (Except.ok.inj heq)).1]
  exact hf a

theorem tidy_foldList {P : σ → Prop} {step : σ → Option (Reader σ)}
    (hstep : ∀ s r, P s → step s = some r → r.Gives P) (first : Bool) {s : σ} (hs : P s)
    (text : List Char) : (foldList step first s text).Tidy := by
  fun_induction foldList step first s text with
  | case1 => trivial
  | case2 first _ text _ _ f h => exact (tidy_nextElement first text).of_error h
  | case3 => trivial
  | case4 _ s _ r hr rest _ f h => exact ((hstep s r hs hr).tidy rest).of_error h
  | case5 _ s _ r hr rest _ s' rest' h ih => exact ih ((hstep s r hs hr).holds rest s' rest' h)

theorem tidy_foldMap {entry : σ → String → Except Reason (Reader σ)}
    (hvalue : ∀ s key r, entry s key = .ok r → r.Tidy)
    (hkey : ∀ s key reason, entry s key = .error reason → reason.Tidy) (first : Bool) (s : σ)
    (text : List Char) : (foldMap entry first s text).Tidy := by
  fun_induction foldMap entry first s text with
  | case1 first _ text f h => exact (tidy_nextKey first text).of_error h
  | case2 => trivial
  | case3 _ s _ key _ _ reason h => exact hkey s key reason h
  | case4 _ _ _ _ rest _ _ _ f h => exact (tidy_readColon rest).of_error h
  | case5 _ s _ key _ _ r hr rest _ f h => exact (hvalue s key r hr rest).of_error h
  | case6 _ _ _ _ _ _ _ _ _ _ _ _ _ ih => exact ih

theorem tidy_close {b : Bracket} {text : List Char} {f : Failure}
    (h : (close b text).1 = some f) : f.reason.Tidy := by
  have hall : ∀ f ∈ (close b text).1, f.reason.Tidy := by
    cases b with
    | list =>
      unfold close closeList
      dsimp only
      split
      · exact fun f hf => Option.some.inj hf ▸ trivial
      · exact nofun
      · split <;> exact fun f hf => Option.some.inj hf ▸ trivial
      · exact fun f hf => Option.some.inj hf ▸ trivial
    | map =>
      unfold close closeMap
      dsimp only
      split
      · exact fun f hf => Option.some.inj hf ▸ trivial
      · exact nofun
      · exact fun f hf => Option.some.inj hf ▸ trivial
      · exact fun f hf => Option.some.inj hf ▸ trivial
  exact hall f h

theorem tidy_enclose (b : Bracket) {x : Attempt (α × List Char)} (h : x.Tidy) :
    (enclose b x).Tidy := by
  unfold enclose
  split
  · split
    · trivial
    · next hf => exact tidy_close (congrArg Prod.fst hf)
  · exact h
  · exact h

namespace Body.Tidy

theorem entries {entry : σ → String → Except Reason (Reader σ)}
    (hvalue : ∀ s key r, entry s key = .ok r → r.Tidy)
    (hkey : ∀ s key reason, entry s key = .error reason → reason.Tidy) (start : σ) :
    (Body.entries entry start).Tidy := tidy_foldMap hvalue hkey true start

theorem elements {P : σ → Prop} {step : σ → Option (Reader σ)}
    (hstep : ∀ s r, P s → step s = some r → r.Gives P) {start : σ} (hs : P start) :
    (Body.elements step start).Tidy := tidy_foldList hstep true hs

theorem accept {body : Body α} (h : body.Tidy) {f : α → Except Reason β}
    (hf : ∀ a reason, f a = .error reason → reason.Tidy) : (body.accept f).Tidy := by
  refine fun text => (h text).bind ?_
  rintro ⟨a, rest⟩
  dsimp only
  split
  · trivial
  · next reason hreason => exact hf a reason hreason

theorem list {r : Reader α} (h : r.Tidy) : (Body.list r).Tidy := by
  unfold Body.list
  refine .accept (.elements (P := fun _ => True) (fun found r' _ hr' => ?_) trivial) ?_
  · rw [← Option.some.inj hr']
    exact h.gives_map fun _ => trivial
  · intro found reason hreason
    cases hreason

theorem dictionary {r : Reader α} (h : r.Tidy) : (Body.dictionary r).Tidy := by
  refine .entries (fun found name r' hr' => ?_) (fun found name reason hreason => ?_) ∅
  · rw [← Except.ok.inj hr']
    exact h.map _
  · cases hreason

end Body.Tidy

def Inside.Tidy : Inside α → Prop
  | .within body => body.Tidy
  | _ => True

theorem Inside.Tidy.ofOption {body : Option (Body α)} (h : ∀ b ∈ body, b.Tidy) :
    (Inside.ofOption body).Tidy := by
  cases body with
  | none => trivial
  | some b => exact h b rfl

theorem Reader.Tidy.container {list map : Inside α} {other : Reader α} (hlist : list.Tidy)
    (hmap : map.Tidy) (hother : other.Tidy) : (Reader.container list map other).Tidy := by
  have henter {inside : Inside α} (h : inside.Tidy) (b : Bracket) (bracket : Char)
      (rest : List Char) : (inside.enter b other bracket rest).Tidy := by
    cases inside with
    | refused => exact hother _
    | tooDeep => trivial
    | within body => exact tidy_enclose b (h rest)
  intro text
  dsimp only [Reader.container]
  split
  · exact henter hlist .list '[' _
  · exact henter hmap .map '\x7b' _
  · exact hother _

namespace RecordField.Tidy

variable {fs : List (RecordField σ)} {r : Reader α}

theorem needed {name : String} (hname : Plain name) (h : r.Tidy) (store : σ → α → σ) :
    (RecordField.needed name r store).Tidy := ⟨hname, fun s => h.map (store s)⟩

theorem optional {name : String} (hname : Plain name) (h : r.Tidy) (store : σ → Option α → σ) :
    (RecordField.optional name r store).Tidy := ⟨hname, fun s => h.option.map (store s)⟩

theorem mapBody (h : ∀ f ∈ fs, f.Tidy) (start : σ) : (mapBody fs start).Tidy := by
  refine .accept (.entries ?_ ?_ _) ?_
  · rintro ⟨present, s⟩ key r hr
    unfold entry at hr
    dsimp only at hr
    split at hr
    · rw [← Except.ok.inj hr]
      exact Reader.Tidy.ignored.map _
    · next f hf =>
      split at hr
      · cases hr
      · rw [← Except.ok.inj hr]
        exact ((h f (List.mem_of_find?_eq_some hf)).2 s).map _
  · rintro ⟨present, s⟩ key reason hreason
    unfold entry at hreason
    dsimp only at hreason
    split at hreason
    · cases hreason
    · next f hf =>
      have hkey : f.name = key := by simpa using List.find?_some hf
      split at hreason
      · rw [← Except.error.inj hreason, ← hkey]
        exact (h f (List.mem_of_find?_eq_some hf)).1
      · cases hreason
  · rintro ⟨present, s⟩ reason hreason
    dsimp only at hreason
    split at hreason
    · next f hf =>
      rw [← Except.error.inj hreason]
      exact (h f (List.mem_of_find?_eq_some hf)).1
    · cases hreason

theorem listBody {type : String} (htype : Plain type) (h : ∀ f ∈ fs, f.Tidy) (start : σ) :
    (listBody type fs start).Tidy := by
  unfold RecordField.listBody
  let AllTidy (s : List (RecordField σ) × σ) : Prop := ∀ f ∈ s.1, f.Tidy
  refine .accept (.elements (P := AllTidy) ?_ h) ?_
  · rintro ⟨left, s⟩ r hleft hr
    cases left with
    | nil => cases hr
    | cons f left =>
      obtain ⟨hf, hleft⟩ := List.forall_mem_cons.1 hleft
      rw [← Option.some.inj hr]
      exact (hf.2 s).gives_map fun _ => hleft
  · rintro ⟨left, s⟩ reason hreason
    dsimp only at hreason
    split at hreason
    · rw [← Except.error.inj hreason]
      exact .append (.append (.append htype (by decide)) (plain_nat _)) (by decide)
    · cases hreason

end RecordField.Tidy

namespace Reader.Tidy

theorem list {element : Option (Reader α)} (h : ∀ r ∈ element, r.Tidy) :
    (Reader.list element).Tidy := by
  refine .container (.ofOption fun body hbody => ?_) trivial (.refuse (by decide))
  obtain ⟨r, hr, rfl⟩ := Option.map_eq_some_iff.1 hbody
  exact .list (h r hr)

theorem dictionary {value : Option (Reader α)} (h : ∀ r ∈ value, r.Tidy) :
    (Reader.dictionary value).Tidy := by
  refine .container trivial (.ofOption fun body hbody => ?_) (.refuse (by decide))
  obtain ⟨r, hr, rfl⟩ := Option.map_eq_some_iff.1 hbody
  exact .dictionary (h r hr)

theorem record {type : String} (htype : Plain type) {fields : Option (List (RecordField σ))}
    (h : ∀ fs ∈ fields, ∀ f ∈ fs, f.Tidy) (start : σ) : (Reader.record type fields start).Tidy := by
  refine .container (.ofOption fun body hbody => ?_) (.ofOption fun body hbody => ?_)
    (.refuse htype)
  · obtain ⟨fs, hfs, rfl⟩ := Option.map_eq_some_iff.1 hbody
    exact RecordField.Tidy.listBody htype (h fs hfs) start
  · obtain ⟨fs, hfs, rfl⟩ := Option.map_eq_some_iff.1 hbody
    exact RecordField.Tidy.mapBody (h fs hfs) start

end Reader.Tidy

end Containers

theorem Reader.Tidy.enumerated {names : List String} (h : Plain (oneOf names))
    (ofName? : String → Option α) (deeper : Bool) :
    (Reader.enumerated names ofName? deeper).Tidy := by
  have hname (text : List Char) : (readName names ofName? text).Tidy := by
    refine (tidy_readStringFrom [] text).bind ?_
    rintro ⟨name, rest⟩
    unfold chooseName
    dsimp only
    split
    · trivial
    · next reason hreason =>
      split at hreason
      · cases hreason
      · rw [← Except.error.inj hreason]
        exact h
  have hmap (text : List Char) : (readNameMap names ofName? text).Tidy := by
    unfold readNameMap
    split
    · trivial
    · trivial
    · refine (hname _).bind ?_
      rintro ⟨a, rest⟩
      refine (tidy_readColon rest).bind fun rest => (Reader.Tidy.unit rest).bind ?_
      rintro ⟨-, rest⟩
      dsimp only
      split <;> trivial
    · trivial
  intro text
  dsimp only [Reader.enumerated]
  split
  · trivial
  · exact hname _
  · split
    · exact hmap _
    · trivial
  · trivial

theorem Value.tidy_reader (levels : Nat) : (Value.reader levels).Tidy := by
  have hentries {r : Reader Value} (h : r.Tidy) : (entriesBody r).Tidy := by
    unfold entriesBody
    refine .accept (.entries (fun found key r' hr' => ?_) (fun found key reason hr' => ?_) _) ?_
    · rw [← Except.ok.inj hr']
      exact h.map _
    · cases hr'
    · intro found reason hreason
      cases hreason
  induction levels with
  | zero =>
    rw [reader]
    exact .container trivial trivial (.map .scalar _)
  | succ n ih =>
    rw [reader]
    refine .container (.ofOption fun body hbody => ?_) (.ofOption fun body hbody => ?_)
      (.map .scalar _)
    · rw [← Option.some.inj hbody]
      exact .accept (.list ih) nofun
    · rw [← Option.some.inj hbody]
      exact .accept (hentries ih) nofun

end GrammarLoader.Json
