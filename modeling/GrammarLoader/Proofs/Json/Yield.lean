import GrammarLoader.Dictionary
import GrammarLoader.Proofs.Json.Agreement

/-! What is true of every value that a reader gives, whatever text it reads. The combinators of
readers keep this, each by a lemma of its name; a loop keeps it because its reader agrees with
itself. -/

namespace GrammarLoader.Json

variable {α β σ : Type}

/-- Every value that the reader gives has the property. -/
def Reader.Yields (P : α → Prop) (r : Reader α) : Prop :=
  ∀ text a rest, r.run text = .ok (a, rest) → P a

def Body.Yields (P : α → Prop) (body : Body α) : Prop :=
  ∀ text a rest, body.run text = .ok (a, rest) → P a

def Both (P : α → Prop) (a b : α) : Prop := a = b ∧ P a

variable {P : α → Prop} {Q : β → Prop} {S : σ → Prop}

theorem agree_self_iff {x : Attempt (α × List Char)} :
    Agree (Behind (Both P)) x x ↔ ∀ a rest, x = .ok (a, rest) → P a := by
  constructor
  · rintro h a rest rfl
    cases h with
    | ok hread => exact hread.1.2
  · intro h
    cases x with
    | ok read => exact .ok ⟨⟨rfl, h _ _ rfl⟩, rfl⟩
    | error f => exact .error f

theorem Reader.yields_iff_agrees {r : Reader α} : r.Yields P ↔ r.Agrees (Both P) r :=
  forall_congr' fun _ => agree_self_iff.symm

theorem Body.yields_iff_agrees {body : Body α} : body.Yields P ↔ body.Agrees (Both P) body :=
  forall_congr' fun _ => agree_self_iff.symm

namespace Body.Yields

theorem accept {body : Body α} {f : α → Except Reason β} (h : body.Yields P)
    (hf : ∀ a b, P a → f a = .ok b → Q b) : (body.accept f).Yields Q := by
  intro text b rest hrun
  obtain ⟨⟨a, rest'⟩, hbody, hrun⟩ := Attempt.bind_eq_ok.1 hrun
  dsimp only at hrun
  split at hrun
  · next b' hb =>
    cases hrun
    exact hf a b (h text a _ hbody) hb
  · cases hrun

theorem elements {step : σ → Option (Reader σ)} {s : σ} (hs : S s)
    (hstep : ∀ s, S s → ∀ r ∈ step s, r.Yields S) : (Body.elements step s).Yields S := by
  refine Body.yields_iff_agrees.2 (.elements ?_ ⟨rfl, hs⟩)
  rintro s _ ⟨rfl, hs⟩
  cases hnow : step s with
  | none => exact .none
  | some r => exact .some (Reader.yields_iff_agrees.1 (hstep s hs r hnow))

theorem entries {entry : σ → String → Except Reason (Reader σ)} {s : σ} (hs : S s)
    (hentry : ∀ s key r, S s → entry s key = .ok r → r.Yields S) :
    (Body.entries entry s).Yields S := by
  refine Body.yields_iff_agrees.2 (.entries ?_ ⟨rfl, hs⟩)
  rintro s _ key ⟨rfl, hs⟩
  cases hnow : entry s key with
  | ok r => exact .ok (Reader.yields_iff_agrees.1 (hentry s key r hs hnow))
  | error reason => exact .error reason

end Body.Yields

namespace Reader.Yields

variable {r : Reader α}

theorem readAll (h : r.Yields P) {text : String} {a : α} (hread : r.readAll text = .ok a) :
    P a := by
  have hagree := (yields_iff_agrees.1 h).readAll text
  rw [hread] at hagree
  cases hagree with
  | ok hboth => exact hboth.2

theorem any (r : Reader α) : r.Yields fun _ => True := fun _ _ _ _ => trivial

theorem mono {R : α → Prop} (h : r.Yields P) (hR : ∀ a, P a → R a) : r.Yields R :=
  fun text a rest hrun => hR a (h text a rest hrun)

theorem map {f : α → β} (h : r.Yields P) (hf : ∀ a, P a → Q (f a)) : (r.map f).Yields Q := by
  intro text b rest hrun
  obtain ⟨⟨a, rest'⟩, hread, hrun⟩ := Attempt.bind_eq_ok.1 hrun
  cases hrun
  exact hf a (h text a _ hread)

theorem accept {f : α → Except Reason β} {fail : Reason → List Char → Failure} (h : r.Yields P)
    (hf : ∀ a b, P a → f a = .ok b → Q b) : (r.accept f fail).Yields Q := by
  intro text b rest hrun
  obtain ⟨⟨a, rest'⟩, hread, hrun⟩ := Attempt.bind_eq_ok.1 hrun
  dsimp only at hrun
  split at hrun
  · next b' hb =>
    cases hrun
    exact hf a b (h text a _ hread) hb
  · cases hrun

theorem option (h : r.Yields P) : r.option.Yields fun found => ∀ a ∈ found, P a := by
  intro text found rest hrun
  dsimp only [Reader.option] at hrun
  split at hrun
  · obtain ⟨_, -, hrun⟩ := Attempt.bind_eq_ok.1 hrun
    cases hrun
    intro a ha
    cases ha
  · obtain ⟨⟨a, rest'⟩, hread, hrun⟩ := Attempt.bind_eq_ok.1 hrun
    cases hrun
    intro b hb
    cases hb
    exact h _ a _ hread

theorem refuse (expected : String) : (Reader.refuse expected).Yields P := fun _ _ _ h => by cases h

theorem container {list map : Inside α} {other : Reader α}
    (hlist : ∀ body, list = .within body → body.Yields P)
    (hmap : ∀ body, map = .within body → body.Yields P) (hother : other.Yields P) :
    (Reader.container list map other).Yields P := by
  have hinside {inside : Inside α} (h : ∀ body, inside = .within body → body.Yields P) :
      inside.Agrees (Both P) inside := by
    cases inside with
    | refused => exact .refused
    | tooDeep => exact .tooDeep
    | within body => exact .within (Body.yields_iff_agrees.1 (h body rfl))
  exact yields_iff_agrees.2 <|
    .container (hinside hlist) (hinside hmap) (yields_iff_agrees.1 hother)

end Reader.Yields

theorem Inside.eq_within_ofOption {body : Option (Body α)} {inner : Body α}
    (h : Inside.ofOption body = .within inner) : body = some inner := by
  cases body with
  | none => cases h
  | some body => cases h; rfl

theorem Body.Yields.list {element : Reader α} (h : element.Yields P) :
    (Body.list element).Yields fun found => ∀ a ∈ found, P a := by
  let All (found : List α) : Prop := ∀ a ∈ found, P a
  have hempty : All [] := fun _ ha => absurd ha List.not_mem_nil
  unfold Body.list
  refine .accept (.elements hempty ?_) ?_
  · rintro found hfound _ ⟨⟩
    exact h.map fun a ha => List.forall_mem_cons.2 ⟨ha, hfound⟩
  · rintro found _ hfound ⟨⟩ a ha
    exact hfound a (List.mem_reverse.1 ha)

theorem Reader.Yields.list {element : Option (Reader α)} (h : ∀ r ∈ element, r.Yields P) :
    (Reader.list element).Yields fun found => ∀ a ∈ found, P a := by
  refine .container (fun body hbody => ?_) nofun (.refuse _)
  obtain ⟨r, hr, rfl⟩ := Option.map_eq_some_iff.1 (Inside.eq_within_ofOption hbody)
  exact .list (h r hr)

theorem Body.Yields.dictionary {value : Reader α} (h : value.Yields P) :
    (Body.dictionary value).Yields fun (found : Dictionary α) =>
      ∀ name : String, ∀ a, found[name]? = some a → P a := by
  refine .entries (fun name a ha => ?_) ?_
  · rw [Std.ExtTreeMap.getElem?_empty] at ha
    cases ha
  · rintro found key _ hfound ⟨⟩
    refine h.map fun a ha name b hb => ?_
    rw [Std.ExtTreeMap.getElem?_insert] at hb
    split at hb
    · rwa [← Option.some.inj hb]
    · exact hfound name b hb

theorem Reader.Yields.dictionary {value : Option (Reader α)} (h : ∀ r ∈ value, r.Yields P) :
    (Reader.dictionary value).Yields fun (found : Dictionary α) =>
      ∀ name : String, ∀ a, found[name]? = some a → P a := by
  refine .container nofun (fun body hbody => ?_) (.refuse _)
  obtain ⟨r, hr, rfl⟩ := Option.map_eq_some_iff.1 (Inside.eq_within_ofOption hbody)
  exact .dictionary (h r hr)

namespace RecordField

def Keeps (S : σ → Prop) (f : RecordField σ) : Prop := ∀ s, S s → (f.read s).Yields S

theorem Keeps.needed {r : Reader α} {store : σ → α → σ} (name : String) (h : r.Yields P)
    (hstore : ∀ s a, S s → P a → S (store s a)) : (RecordField.needed name r store).Keeps S :=
  fun s hs => h.map fun a ha => hstore s a hs ha

theorem Keeps.optional {r : Reader α} {store : σ → Option α → σ} (name : String) (h : r.Yields P)
    (hstore : ∀ s found, S s → (∀ a ∈ found, P a) → S (store s found)) :
    (RecordField.optional name r store).Keeps S :=
  fun s hs => h.option.map fun found hfound => hstore s found hs hfound

theorem Keeps.aside {r : Reader α} {store : σ → Option α → σ} (name : String)
    (hstore : ∀ s found, S s → S (store s found)) : (RecordField.optional name r store).Keeps S :=
  .optional name (.any r) fun s found hs _ => hstore s found hs

variable {fields : List (RecordField σ)} {s : σ}

theorem agrees_self (h : ∀ f ∈ fields, f.Keeps S) :
    List.Forall₂ (RecordField.Agrees (Both S)) fields fields := by
  rw [List.forall₂_same]
  refine fun f hf => ⟨rfl, rfl, ?_⟩
  rintro s _ ⟨rfl, hs⟩
  exact Reader.yields_iff_agrees.1 (h f hf s hs)

end RecordField

theorem Reader.Yields.record (type : String) {fields : Option (List (RecordField σ))} {start : σ}
    (hfields : ∀ fs ∈ fields, ∀ f ∈ fs, f.Keeps S) (hstart : S start) :
    (Reader.record type fields start).Yields S := by
  cases fields with
  | none => exact .container nofun nofun (.refuse _)
  | some fs =>
    exact Reader.yields_iff_agrees.2 <|
      .record type (RecordField.agrees_self (hfields fs rfl)) ⟨rfl, hstart⟩

end GrammarLoader.Json
