import GrammarLoader.Json.Record
import Mathlib.Data.List.Forall2

/-! Readers that agree: they fail on the same texts and in the same way, and otherwise leave the
same rest behind values that are related. The combinators of readers keep this, each by a lemma of
its name. -/

namespace GrammarLoader.Json

variable {ε α β γ δ σ τ : Type}

/-- Both fail in the same way, or both give values, which are related. -/
inductive Agree (R : α → β → Prop) : Except ε α → Except ε β → Prop
  | ok {a : α} {b : β} (h : R a b) : Agree R (.ok a) (.ok b)
  | error (e : ε) : Agree R (.error e) (.error e)

namespace Agree

variable {R : α → β → Prop} {S : γ → δ → Prop} {x : Except ε α} {y : Except ε β}

theorem refl (x : Except ε α) : Agree Eq x x := by
  cases x with
  | ok a => exact .ok rfl
  | error e => exact .error e

theorem bind {f : α → Except ε γ} {g : β → Except ε δ} (h : Agree R x y)
    (hfg : ∀ a b, x = .ok a → R a b → Agree S (f a) (g b)) : Agree S (x >>= f) (y >>= g) := by
  cases h with
  | ok hab => exact hfg _ _ rfl hab
  | error e => exact .error e

theorem bind_same (x : Except ε α) {f : α → Except ε γ} {g : α → Except ε δ}
    (hfg : ∀ a, x = .ok a → Agree S (f a) (g a)) : Agree S (x >>= f) (x >>= g) :=
  (refl x).bind fun a _ ha hab => hab ▸ hfg a ha

theorem mapError {ε' : Type} (f : ε → ε') (h : Agree R x y) :
    Agree R (x.mapError f) (y.mapError f) := by
  cases h with
  | ok hab => exact .ok hab
  | error e => exact .error (f e)

theorem eq_map {f : α → β} (h : Agree (fun a b => b = f a) x y) : y = x.map f := by
  cases h with
  | ok hab => exact congrArg Except.ok hab
  | error e => rfl

end Agree

def Behind (R : α → β → Prop) (a : α × List Char) (b : β × List Char) : Prop :=
  R a.1 b.1 ∧ a.2 = b.2

def Reader.Agrees (R : α → β → Prop) (r : Reader α) (r' : Reader β) : Prop :=
  ∀ text, Agree (Behind R) (r.run text) (r'.run text)

def Body.Agrees (R : α → β → Prop) (body : Body α) (body' : Body β) : Prop :=
  ∀ text, Agree (Behind R) (body.run text) (body'.run text)

inductive Inside.Agrees (R : α → β → Prop) : Inside α → Inside β → Prop
  | refused : Agrees R .refused .refused
  | tooDeep : Agrees R .tooDeep .tooDeep
  | within {body : Body α} {body' : Body β} (h : body.Agrees R body') :
      Agrees R (.within body) (.within body')

variable {R : α → β → Prop} {S : γ → δ → Prop} {T : σ → τ → Prop}

namespace Reader.Agrees

theorem map {r : Reader α} {r' : Reader β} {f : α → γ} {g : β → δ} (h : r.Agrees R r')
    (hfg : ∀ a b, R a b → S (f a) (g b)) : (r.map f).Agrees S (r'.map g) := fun text =>
  (h text).bind fun _ _ _ hab => .ok ⟨hfg _ _ hab.1, hab.2⟩

theorem map_same (r : Reader α) {f : α → γ} {g : α → δ} (h : ∀ a, S (f a) (g a)) :
    (r.map f).Agrees S (r.map g) := fun text =>
  Agree.bind_same (r.run text) fun _ _ => .ok ⟨h _, rfl⟩

theorem map_left {r : Reader α} {r' : Reader β} {Q : γ → β → Prop} {f : α → γ} (h : r.Agrees R r')
    (hf : ∀ a b, R a b → Q (f a) b) : (r.map f).Agrees Q r' := by
  intro text
  have hrun := h text
  dsimp only [Reader.map]
  generalize r.run text = read, r'.run text = read' at hrun
  cases hrun with
  | ok h => exact .ok ⟨hf _ _ h.1, h.2⟩
  | error f => exact .error f

theorem readAll {r : Reader α} {r' : Reader β} (h : r.Agrees R r') (text : String) :
    Agree R (r.readAll text) (r'.readAll text) := by
  refine ((h text.toList).bind ?_).mapError _
  rintro ⟨a, rest⟩ ⟨b, _⟩ - ⟨hab, rfl⟩
  dsimp only
  split
  · exact .ok hab
  · exact .error _

end Reader.Agrees

/-- The loop as a chain of attempts, without the equations that its termination needs. -/
theorem foldList_eq (step : σ → Option (Reader σ)) (first : Bool) (s : σ) (text : List Char) :
    foldList step first s text =
      match step s with
      | none => .ok (s, text)
      | some element => nextElement first text >>= fun next =>
        if next.1 then element.run next.2 >>= fun read => foldList step false read.1 read.2
        else .ok (s, next.2) := by
  rw [foldList]
  cases step s with
  | none => rfl
  | some element =>
    dsimp only
    split
    · next h => rw [h]; rfl
    · next h => rw [h]; rfl
    · next rest h =>
      rw [h]
      change _ = (element.run rest >>= fun read => foldList step false read.1 read.2)
      split
      · next h => rw [h]; rfl
      · next h => rw [h]; rfl

theorem foldMap_eq (entry : σ → String → Except Reason (Reader σ)) (first : Bool) (s : σ)
    (text : List Char) :
    foldMap entry first s text =
      nextKey first text >>= fun next =>
        match next.1 with
        | none => .ok (s, next.2)
        | some key =>
          (entry s key).mapError (.unplaced · next.2) >>= fun value =>
            readColon next.2 >>= fun rest =>
              value.run rest >>= fun read => foldMap entry false read.1 read.2 := by
  rw [foldMap]
  split
  · next h => rw [h]; rfl
  · next h => rw [h]; rfl
  · next key rest h =>
    rw [h]
    change _ = ((entry s key).mapError (.unplaced · rest) >>= fun value =>
      readColon rest >>= fun rest =>
        value.run rest >>= fun read => foldMap entry false read.1 read.2)
    cases entry s key with
    | error reason => rfl
    | ok value =>
      dsimp only [Except.mapError]
      change _ = (readColon rest >>= fun rest =>
        value.run rest >>= fun read => foldMap entry false read.1 read.2)
      split
      · next h => rw [h]; rfl
      · next rest h =>
        rw [h]
        change _ = (value.run rest >>= fun read => foldMap entry false read.1 read.2)
        split
        · next h => rw [h]; rfl
        · next h => rw [h]; rfl

/-- The elements of a list are read into states that stay related. -/
theorem foldList_agree {step : σ → Option (Reader σ)} {step' : τ → Option (Reader τ)}
    (hstep : ∀ s t, T s t → Option.Rel (Reader.Agrees T) (step s) (step' t)) {first : Bool} {s : σ}
    {t : τ} (hst : T s t) (text : List Char) :
    Agree (Behind T) (foldList step first s text) (foldList step' first t text) := by
  induction hlen : text.length using Nat.strongRecOn generalizing first s t text with
  | ind n ih =>
    subst hlen
    rw [foldList_eq, foldList_eq]
    have hnow := hstep s t hst
    generalize step s = now, step' t = now' at hnow
    cases hnow with
    | none => exact .ok ⟨hst, rfl⟩
    | some helement =>
      refine Agree.bind_same _ fun next hnext => ?_
      have hle := length_nextElement_le hnext
      split
      · refine (helement next.2).bind ?_
        rintro ⟨s, rest⟩ ⟨t, _⟩ hread ⟨hst, rfl⟩
        exact ih rest.length (Nat.lt_of_lt_of_le (Reader.shorter _ hread) hle) hst rest rfl
      · exact .ok ⟨hst, rfl⟩

theorem foldMap_agree {entry : σ → String → Except Reason (Reader σ)}
    {entry' : τ → String → Except Reason (Reader τ)}
    (hentry : ∀ s t key, T s t → Agree (Reader.Agrees T) (entry s key) (entry' t key))
    {first : Bool} {s : σ} {t : τ} (hst : T s t) (text : List Char) :
    Agree (Behind T) (foldMap entry first s text) (foldMap entry' first t text) := by
  induction hlen : text.length using Nat.strongRecOn generalizing first s t text with
  | ind n ih =>
    subst hlen
    rw [foldMap_eq, foldMap_eq]
    refine Agree.bind_same _ fun next hnext => ?_
    have hle := length_nextKey_le hnext
    split
    · exact .ok ⟨hst, rfl⟩
    · next key _ =>
      refine ((hentry s t key hst).mapError _).bind fun value value' _ hvalue => ?_
      refine Agree.bind_same _ fun rest hcolon => ?_
      have hlt := length_readColon_lt hcolon
      refine (hvalue rest).bind ?_
      rintro ⟨s, rest'⟩ ⟨t, _⟩ hread ⟨hst, rfl⟩
      have hshorter := Reader.shorter _ hread
      exact ih rest'.length (by omega) hst rest' rfl

namespace Body.Agrees

theorem accept {body : Body α} {body' : Body β} {f : α → Except Reason γ} {g : β → Except Reason δ}
    (h : body.Agrees R body') (hfg : ∀ a b, R a b → Agree S (f a) (g b)) :
    (body.accept f).Agrees S (body'.accept g) := by
  refine fun text => (h text).bind ?_
  rintro ⟨a, rest⟩ ⟨b, _⟩ - ⟨hab, rfl⟩
  have hnow := hfg a b hab
  dsimp only
  generalize f a = now, g b = now' at hnow
  cases hnow with
  | ok h => exact .ok ⟨h, rfl⟩
  | error reason => exact .error _

theorem entries {entry : σ → String → Except Reason (Reader σ)}
    {entry' : τ → String → Except Reason (Reader τ)}
    (hentry : ∀ s t key, T s t → Agree (Reader.Agrees T) (entry s key) (entry' t key)) {s : σ}
    {t : τ} (hst : T s t) : (Body.entries entry s).Agrees T (Body.entries entry' t) :=
  foldMap_agree hentry hst

theorem elements {step : σ → Option (Reader σ)} {step' : τ → Option (Reader τ)}
    (hstep : ∀ s t, T s t → Option.Rel (Reader.Agrees T) (step s) (step' t)) {s : σ} {t : τ}
    (hst : T s t) : (Body.elements step s).Agrees T (Body.elements step' t) :=
  foldList_agree hstep hst

end Body.Agrees

theorem enclose_agree {x : Attempt (α × List Char)} {y : Attempt (β × List Char)}
    (h : Agree (Behind R) x y) (b : Bracket) : Agree (Behind R) (enclose b x) (enclose b y) := by
  cases h with
  | @ok read read' h =>
    obtain ⟨a, rest⟩ := read
    obtain ⟨a', rest'⟩ := read'
    obtain ⟨hab, rfl⟩ := h
    unfold enclose
    dsimp only
    split
    · exact .ok ⟨hab, rfl⟩
    · exact .error _
  | error f =>
    unfold enclose
    cases f <;> exact .error _

namespace Inside.Agrees

theorem ofOption {body : Option (Body α)} {body' : Option (Body β)}
    (h : Option.Rel (Body.Agrees R) body body') :
    Inside.Agrees R (.ofOption body) (.ofOption body') := by
  cases h with
  | none => exact .tooDeep
  | some h => exact .within h

theorem enter {inside : Inside α} {inside' : Inside β} {other : Reader α} {other' : Reader β}
    (h : inside.Agrees R inside') (hother : other.Agrees R other') (b : Bracket) (bracket : Char)
    (rest : List Char) :
    Agree (Behind R) (inside.enter b other bracket rest) (inside'.enter b other' bracket rest) := by
  cases h with
  | refused => exact hother _
  | tooDeep => exact .error _
  | within h => exact enclose_agree (h rest) b

end Inside.Agrees

namespace Reader.Agrees

theorem refuse (expected : String) :
    Reader.Agrees R (.refuse expected) (.refuse expected) := fun _ => .error _

theorem container {list map : Inside α} {list' map' : Inside β} {other : Reader α}
    {other' : Reader β} (hlist : list.Agrees R list') (hmap : map.Agrees R map')
    (hother : other.Agrees R other') :
    (Reader.container list map other).Agrees R (.container list' map' other') := by
  intro text
  dsimp only [Reader.container]
  split
  · exact hlist.enter hother .list '[' _
  · exact hmap.enter hother .map '\x7b' _
  · exact hother _

end Reader.Agrees

namespace RecordField

/-- The fields have the same name, and a record that has the one is read like one that has the
other. -/
structure Agrees (T : σ → τ → Prop) (f : RecordField σ) (g : RecordField τ) : Prop where
  name : f.name = g.name
  required : f.required = g.required
  read : ∀ s t, T s t → (f.read s).Agrees T (g.read t)

variable {fs : List (RecordField σ)} {gs : List (RecordField τ)}

theorem find?_agree (h : List.Forall₂ (Agrees T) fs gs) {p : RecordField σ → Bool}
    {q : RecordField τ → Bool} (hpq : ∀ f g, f.Agrees T g → p f = q g) :
    Option.Rel (Agrees T) (fs.find? p) (gs.find? q) := by
  induction h with
  | nil => exact .none
  | @cons f g _ _ hfg _ ih =>
    rw [List.find?_cons, List.find?_cons, hpq f g hfg]
    cases q g with
    | true => exact .some hfg
    | false => exact ih

theorem findIdx?_agree (h : List.Forall₂ (Agrees T) fs gs) :
    fs.findIdx? (·.required) = gs.findIdx? (·.required) := by
  induction h with
  | nil => rfl
  | cons hfg _ ih => rw [List.findIdx?_cons, List.findIdx?_cons, hfg.required, ih]

theorem mapBody_agrees (h : List.Forall₂ (Agrees T) fs gs) {s : σ} {t : τ} (hst : T s t) :
    (mapBody fs s).Agrees T (mapBody gs t) := by
  refine .accept (R := fun a b => a.1 = b.1 ∧ T a.2 b.2) (.entries ?_ ⟨rfl, hst⟩) ?_
  · rintro ⟨present, s⟩ ⟨_, t⟩ key ⟨rfl, hst⟩
    unfold entry
    have hfind := find?_agree h (p := (·.name = key)) (q := (·.name = key))
      fun f g hfg => by rw [hfg.name]
    dsimp only
    generalize fs.find? (·.name = key) = found, gs.find? (·.name = key) = found' at hfind
    cases hfind with
    | none => exact .ok (.map_same _ fun _ => ⟨rfl, hst⟩)
    | some hfg =>
      dsimp only
      split
      · exact .error _
      · exact .ok ((hfg.read s t hst).map fun _ _ hst => ⟨rfl, hst⟩)
  · rintro ⟨present, s⟩ ⟨_, t⟩ ⟨rfl, hst⟩
    have hfind := find?_agree h (p := fun f => f.required && !present.contains f.name)
      (q := fun f => f.required && !present.contains f.name)
      fun f g hfg => by rw [hfg.name, hfg.required]
    dsimp only [firstMissing]
    generalize fs.find? _ = found, gs.find? _ = found' at hfind
    cases hfind with
    | none => exact .ok hst
    | some hfg =>
      dsimp only
      rw [hfg.name]
      exact .error _

theorem listBody_agrees (type : String) (h : List.Forall₂ (Agrees T) fs gs) {s : σ} {t : τ}
    (hst : T s t) : (listBody type fs s).Agrees T (listBody type gs t) := by
  unfold listBody
  refine .accept
    (R := fun (a : List (RecordField σ) × σ) (b : List (RecordField τ) × τ) =>
      List.Forall₂ (Agrees T) a.1 b.1 ∧ T a.2 b.2) (.elements ?_ ⟨h, hst⟩) ?_
  · rintro ⟨fs, s⟩ ⟨gs, t⟩ ⟨hleft, hst⟩
    cases hleft with
    | nil => exact .none
    | cons hfg hleft =>
      refine .some ((hfg.read s t hst).map fun s t hst => ?_)
      exact ⟨hleft, hst⟩
  · rintro ⟨left, s⟩ ⟨left', t⟩ ⟨hleft, hst⟩
    dsimp only
    rw [findIdx?_agree hleft, h.length_eq, hleft.length_eq]
    cases left'.findIdx? (·.required) with
    | none => exact .ok hst
    | some i => exact .error _

end RecordField

theorem Reader.Agrees.record (type : String) {fs : List (RecordField σ)}
    {gs : List (RecordField τ)} (h : List.Forall₂ (RecordField.Agrees T) fs gs) {s : σ} {t : τ}
    (hst : T s t) : (Reader.record type (some fs) s).Agrees T (.record type (some gs) t) :=
  .container (.within (RecordField.listBody_agrees type h hst))
    (.within (RecordField.mapBody_agrees h hst)) (.refuse type)

end GrammarLoader.Json
