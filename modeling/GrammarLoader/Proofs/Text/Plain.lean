import GrammarLoader.Decimal.Shortest
import GrammarLoader.Text.Quoted

/-! Plain text stays on one line and sends nothing to a terminal but what it shows. Quoted text is
plain whatever it quotes, and so are the numbers in messages. -/

namespace GrammarLoader.Text

/-- A control character, or one that separates lines or paragraphs. -/
def isControl (c : Char) : Bool :=
  c < ' ' || ('\x7f' ≤ c && c ≤ '\u009f') || c = '\u2028' || c = '\u2029'

/-- A text without line breaks, escapes and other control characters. -/
def Plain (text : String) : Prop := ∀ c ∈ text.toList, isControl c = false

instance : DecidablePred Plain := fun text => List.decidableBAll _ text.toList

theorem isControl_of_all {cs : List Char} (h : cs.all (!isControl ·) = true) :
    ∀ c ∈ cs, isControl c = false := by
  simpa using h

theorem plain_append {s t : String} : Plain (s ++ t) ↔ Plain s ∧ Plain t := by
  unfold Plain
  rw [String.toList_append, List.forall_mem_append]

theorem Plain.append {s t : String} (hs : Plain s) (ht : Plain t) : Plain (s ++ t) :=
  plain_append.2 ⟨hs, ht⟩

theorem plain_intercalate {separator : String} (hseparator : Plain separator) {texts : List String}
    (h : ∀ text ∈ texts, Plain text) : Plain (separator.intercalate texts) := by
  induction texts with
  | nil =>
    rw [String.intercalate_nil]
    decide
  | cons text texts ih =>
    obtain ⟨htext, htexts⟩ := List.forall_mem_cons.1 h
    cases texts with
    | nil => rwa [String.intercalate_singleton]
    | cons next texts =>
      rw [String.intercalate_cons_cons]
      exact (htext.append hseparator).append (ih htexts)

theorem plain_ofList {text : List Char} :
    Plain (String.ofList text) ↔ ∀ c ∈ text, isControl c = false := by
  unfold Plain
  rw [String.toList_ofList]

theorem unprintable_of_isControl {c : Char} (h : isControl c = true) : unprintable c = true := by
  have hrange (first last : Nat) (hmem : (first, last) ∈ unprintableRanges)
      (hc : first ≤ c.toNat ∧ c.toNat ≤ last) : unprintable c = true :=
    List.any_eq_true.2 ⟨(first, last), hmem, by simpa using hc⟩
  simp only [isControl, Bool.or_eq_true, Bool.and_eq_true, decide_eq_true_eq] at h
  rcases h with ((h | h) | rfl) | rfl
  · exact hrange 0 0x1F (by decide) ⟨Nat.zero_le _, Nat.le_of_lt_succ h⟩
  · exact hrange 0x7F 0xA0 (by decide) ⟨h.1, Nat.le_succ_of_le h.2⟩
  · decide +kernel
  · decide +kernel

section Numbers

theorem isControl_digitChar : ∀ n < 16, isControl n.digitChar = false := by decide

theorem plain_toDigits {b : Nat} (hb : 1 < b) (hb' : b ≤ 16) (n : Nat) :
    ∀ c ∈ Nat.toDigits b n, isControl c = false := by
  induction n using Nat.strongRecOn with
  | ind n ih =>
    rw [Nat.toDigits_eq_if hb]
    split
    · next hlt => exact List.forall_mem_singleton.2 (isControl_digitChar n (by omega))
    · next hle =>
      have hlast : n % b < b := Nat.mod_lt n (by omega)
      refine List.forall_mem_append.2 ⟨ih (n / b) (Nat.div_lt_self (by omega) hb), ?_⟩
      exact List.forall_mem_singleton.2 (isControl_digitChar (n % b) (by omega))

theorem plain_nat (n : Nat) : Plain (toString n) := by
  unfold Plain
  rw [Nat.toString_eq_repr, Nat.toList_repr]
  exact plain_toDigits (by decide) (by decide) n

theorem plain_int (n : Int) : Plain (toString n) := by
  cases n with
  | ofNat n => exact plain_nat n
  | negSucc n => exact .append (by decide) (plain_nat (n + 1))

theorem plain_exponentText (n : Int) : Plain (Decimal.exponentText n) := by
  refine .append ?_ (plain_nat _)
  split <;> decide

theorem plain_render (layout : Decimal.Layout) (d : Decimal.Digits) : Plain (layout.render d) := by
  have hdigits : ∀ c ∈ Nat.toDigits 10 d.digits, isControl c = false :=
    plain_toDigits (by decide) (by decide) d.digits
  have hzeros (n : Nat) : ∀ c ∈ List.replicate n '0', isControl c = false := fun c hc =>
    List.eq_of_mem_replicate hc ▸ rfl
  have htake (n : Nat) : ∀ c ∈ (Nat.toDigits 10 d.digits).take n, isControl c = false :=
    fun c hc => hdigits c (List.mem_of_mem_take hc)
  have hdrop (n : Nat) : ∀ c ∈ (Nat.toDigits 10 d.digits).drop n, isControl c = false :=
    fun c hc => hdigits c (List.mem_of_mem_drop hc)
  unfold Decimal.Layout.render
  rw [plain_ofList]
  dsimp only
  split
  · simp only [List.forall_mem_append]
    exact ⟨⟨hdigits, hzeros _⟩, isControl_of_all (by decide)⟩
  · split
    · simp only [List.forall_mem_append]
      exact ⟨⟨htake _, isControl_of_all (by decide)⟩, hdrop _⟩
    · split
      · simp only [List.forall_mem_append]
        exact ⟨⟨isControl_of_all (by decide), hzeros _⟩, hdigits⟩
      · simp only [List.forall_mem_append]
        refine ⟨⟨⟨htake 1, ?_⟩, isControl_of_all (by decide)⟩, plain_exponentText _⟩
        split
        · exact List.forall_mem_nil _
        · exact List.forall_mem_cons.2 ⟨rfl, hdrop 1⟩

theorem plain_decimal (f : Float) : Plain (Decimal.text f) := by
  unfold Decimal.text
  split
  · decide
  · have hmagnitude : Plain (if f.isInf then "inf" else if f == 0 then "0.0"
        else Decimal.Layout.plain.render (Decimal.shortest (.ofBits f.toBits))) := by
      split
      · decide
      · split
        · decide
        · exact plain_render _ _
    dsimp only
    split
    · exact .append (by decide) hmagnitude
    · exact hmagnitude

end Numbers

theorem isControl_escapeQuoted (c : Char) : ∀ c' ∈ escapeQuoted c, isControl c' = false := by
  unfold escapeQuoted
  split
  any_goals (refine isControl_of_all ?_; decide)
  split
  · simp only [List.forall_mem_append]
    have hdigits := plain_toDigits (b := 16) (by decide) (by decide) c.toNat
    exact ⟨⟨isControl_of_all (by decide), hdigits⟩, isControl_of_all (by decide)⟩
  · next hshows =>
    rw [List.forall_mem_singleton, Bool.eq_false_iff]
    exact fun hc => hshows (unprintable_of_isControl hc)

theorem plain_quote (text : String) : Plain (quote text) := by
  unfold quote
  rw [plain_ofList]
  refine List.forall_mem_cons.2 ⟨rfl, List.forall_mem_append.2 ⟨?_, isControl_of_all (by decide)⟩⟩
  intro c' hc'
  obtain ⟨c, -, hc'⟩ := List.mem_flatMap.1 hc'
  exact isControl_escapeQuoted c c' hc'

end GrammarLoader.Text
