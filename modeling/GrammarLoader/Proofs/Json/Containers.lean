import GrammarLoader.Json.Enumerated
import GrammarLoader.Json.Value
import GrammarLoader.Proofs.Json.Skipping
import Mathlib.Data.List.Nodup

/-! Containers that are read by any of their spellings. For a record it is enough that each field is
read by any of its own: its entries may then stand in any order, with other entries between them. -/

namespace GrammarLoader.Json

variable {α β σ : Type}

theorem enclose_ok (b : Bracket) (a : α) (rest : List Char) :
    enclose b (.ok (a, Ignored.closer b :: rest)) = .ok (a, rest) := by
  cases b with
  | list =>
    unfold enclose close closeList Ignored.closer
    dsimp only
    rw [skipBlanks_cons (by decide)]
    rfl
  | map =>
    unfold enclose close closeMap Ignored.closer
    dsimp only
    rw [skipBlanks_cons (by decide)]
    rfl

theorem Body.run_accept {body : Body α} {f : α → Except Reason β} {a : α} {b : β}
    {text rest : List Char} (hrun : body.run text = .ok (a, rest)) (hf : f a = .ok b) :
    (body.accept f).run text = .ok (b, rest) := by
  change (body.run text >>= _) = _
  rw [hrun, Attempt.ok_bind]
  dsimp only
  rw [hf]

theorem avoids_listText (elements : List Spelling) : Avoids ['n', ']'] (ListText elements) := by
  rintro _ ⟨v, -, rfl⟩
  exact ⟨'[', _, rfl, by decide, by decide⟩

theorem avoids_mapText (entries : List Spelling) : Avoids ['n', ']'] (MapText entries) := by
  rintro _ ⟨v, -, rfl⟩
  exact ⟨'\x7b', _, rfl, by decide, by decide⟩

namespace Reader.Reads

theorem list {r : Reader α} {Ts : List Spelling} {as : List α}
    (h : List.Forall₂ (fun T a => r.Reads T a ∧ Avoids [']'] T) Ts as) :
    (Reader.list (some r)).Reads (ListText Ts) as := by
  rintro b _ rest hb ⟨v, hv, rfl⟩ -
  have hrun : (Body.list r).run (v ++ ']' :: rest) = .ok (as, ']' :: rest) := by
    unfold Body.list
    refine Body.run_accept (a := as.reverse ++ []) ?_ ?_
    · exact foldList_items h hv [] rest
    · rw [List.append_nil, List.reverse_reverse]
  unfold Reader.list Reader.container
  dsimp only
  rw [skipBlanks_append hb, List.cons_append, skipBlanks_cons (by decide), List.append_assoc]
  change enclose .list ((Body.list r).run (v ++ ']' :: rest)) = _
  rw [hrun]
  exact enclose_ok .list as rest

theorem container {list map : Inside α} {other : Reader α} {T : Spelling} {a : α}
    (h : other.Reads T a) (hT : Avoids ['[', '\x7b'] T) :
    (Reader.container list map other).Reads T a := by
  intro b t rest hb ht hrest
  have hread := h [] t rest blank_nil ht hrest
  unfold Reader.container
  dsimp only
  rw [hT.skipBlanks hb ht]
  obtain ⟨c, u, rfl, -, hc⟩ := hT t ht
  split
  · next heq =>
    rw [(List.cons.inj heq).1] at hc
    exact absurd hc (by decide)
  · next heq =>
    rw [(List.cons.inj heq).1] at hc
    exact absurd hc (by decide)
  · exact hread

theorem scalar_string (s : String) : Reader.scalar.Reads (StringText s) (.string s) := by
  intro b t rest hb ht _
  unfold Reader.scalar
  dsimp only
  rw [(avoids_stringText s).skipBlanks hb ht]
  exact readScalar_stringText ht rest

theorem scalar_int {n : Int} (hlow : -9223372036854775808 ≤ n) (hhigh : n ≤ maxSignificand) :
    Reader.scalar.Reads (IntText n) (.int n) := by
  intro b t rest hb ht h
  unfold Reader.scalar
  dsimp only
  rw [(avoids_intText n).skipBlanks hb ht]
  exact readScalar_intText hlow hhigh ht h

/-- A value that is one of several is read by the spellings of its name. -/
theorem enumerated (names : List String) {ofName? : String → Option α} {name : String} {a : α}
    (h : ofName? name = some a) (deeper : Bool) :
    (Reader.enumerated names ofName? deeper).Reads (StringText name) a := by
  intro b t rest hb ht _
  unfold Reader.enumerated
  dsimp only
  rw [(avoids_stringText name).skipBlanks hb ht]
  obtain ⟨u, hu, rfl⟩ := ht
  rw [List.cons_append, List.append_assoc]
  change readName names ofName? (u ++ '"' :: rest) = _
  unfold readName chooseName
  rw [readString_body hu, Attempt.ok_bind]
  dsimp only
  rw [h]

end Reader.Reads

namespace RecordField

/-- The record with the fields `present` of which `f` is one more, if `part` spells its value. -/
structure Spells (stage : List String → σ) (f : RecordField σ) (part : String × Option Spelling) :
    Prop where
  name : part.1 = f.name
  required : f.required = true → part.2.isSome
  read : ∀ present,
    (f.read (stage present)).Reads (part.2.getD NullText) (stage (f.name :: present))

variable {fields : List (RecordField σ)} {parts : List (String × Option Spelling)}
  {stage : List String → σ}

theorem Spells.needed {name : String} {r : Reader α} {T : Spelling} {a : α} {store : σ → α → σ}
    (h : r.Reads T a) (hstore : ∀ present, store (stage present) a = stage (name :: present)) :
    Spells stage (.needed name r store) (name, some T) := by
  refine ⟨rfl, fun _ => rfl, fun present => ?_⟩
  change ((r.map (store (stage present))).Reads T (stage (name :: present)))
  rw [← hstore]
  exact h.map _

theorem Spells.optional {name : String} {r : Reader α} {v : Option α} {text : α → Spelling}
    {store : σ → Option α → σ} (h : ∀ a ∈ v, r.Reads (text a) a ∧ Avoids ['n'] (text a))
    (hstore : ∀ present, store (stage present) v = stage (name :: present)) :
    Spells stage (.optional name r store) (name, v.map text) := by
  refine ⟨rfl, nofun, fun present => ?_⟩
  change (r.option.map (store (stage present))).Reads _ (stage (name :: present))
  rw [← hstore]
  exact (Reader.Reads.option h).map _

theorem map_name (h : List.Forall₂ (Spells stage) fields parts) :
    parts.map Prod.fst = fields.map (·.name) := by
  induction h with
  | nil => rfl
  | cons hf _ ih => rw [List.map_cons, List.map_cons, hf.name, ih]

/-- What may stand in the map of a record: a field with its value or `null`, or anything else. -/
def Fits (parts : List (String × Option Spelling)) (entry : String × Spelling) : Prop :=
  (∃ part, (entry.1, part) ∈ parts ∧ entry.2 = part.getD NullText) ∨
    entry.1 ∉ parts.map Prod.fst ∧ entry.2 = ValueText

theorem exists_part (h : List.Forall₂ (Spells stage) fields parts) {f : RecordField σ}
    (hf : f ∈ fields) : ∃ part ∈ parts, Spells stage f part := by
  induction h with
  | nil => cases hf
  | cons hg _ ih =>
    rcases List.mem_cons.1 hf with rfl | hf
    · exact ⟨_, List.mem_cons_self, hg⟩
    · obtain ⟨part, hpart, hf⟩ := ih hf
      exact ⟨part, List.mem_cons_of_mem _ hpart, hf⟩

theorem exists_field (h : List.Forall₂ (Spells stage) fields parts)
    (hnames : (parts.map Prod.fst).Nodup) {part : String × Option Spelling} (hpart : part ∈ parts) :
    ∃ f, fields.find? (·.name = part.1) = some f ∧ Spells stage f part := by
  induction h with
  | nil => cases hpart
  | @cons f p fields parts hf _ ih =>
    rw [List.map_cons, List.nodup_cons] at hnames
    rcases List.mem_cons.1 hpart with rfl | hpart
    · exact ⟨f, List.find?_cons_of_pos (by simp [hf.name]), hf⟩
    · obtain ⟨g, hg, hspells⟩ := ih hnames.2 hpart
      have hne : f.name ≠ part.1 := by
        rw [← hf.name]
        rintro heq
        exact hnames.1 (heq ▸ List.mem_map_of_mem hpart)
      exact ⟨g, by rwa [List.find?_cons_of_neg (by simpa using hne)], hspells⟩

def knownKeys (parts : List (String × Option Spelling)) (entries : List (String × Spelling)) :
    List String := (entries.map Prod.fst).filter (· ∈ parts.map Prod.fst)

theorem entry_known (h : List.Forall₂ (Spells stage) fields parts)
    (hnames : (parts.map Prod.fst).Nodup) {key : String} {part : Option Spelling}
    (hpart : (key, part) ∈ parts) {present : List String} (hnew : key ∉ present) :
    ∃ r, entry fields (present, stage present) key = .ok r ∧
      r.Reads (part.getD NullText) (key :: present, stage (key :: present)) := by
  obtain ⟨f, hf, hspells⟩ := exists_field h hnames hpart
  have hcontains : present.contains key = false := by simpa using hnew
  refine ⟨(f.read (stage present)).map (key :: present, ·), ?_, ?_⟩
  · unfold entry
    dsimp only
    rw [hf]
    dsimp only
    rw [hcontains, if_neg Bool.false_ne_true]
  · have hname : key = f.name := hspells.name
    have hread := (hspells.read present).map (key :: present, ·)
    rwa [← hname] at hread

theorem entry_unknown (h : List.Forall₂ (Spells stage) fields parts) {key : String}
    (hkey : key ∉ parts.map Prod.fst) (s : List String × σ) :
    entry fields s key = .ok (.map (fun () => s) .ignored) := by
  have hnone : fields.find? (·.name = key) = none := by
    rw [List.find?_eq_none]
    intro f hf heq
    rw [map_name h] at hkey
    exact hkey (of_decide_eq_true heq ▸ List.mem_map_of_mem hf)
  unfold entry
  dsimp only
  rw [hnone]

/-- Entries in any order are read one by one, each into the record of the fields before it. -/
theorem folds_entries (h : List.Forall₂ (Spells stage) fields parts)
    (hnames : (parts.map Prod.fst).Nodup) {entries : List (String × Spelling)}
    (hfits : ∀ e ∈ entries, Fits parts e) {present : List String}
    (hdistinct : (knownKeys parts entries ++ present).Nodup) :
    Folds (entry fields) (present, stage present) entries
      ((knownKeys parts entries).reverse ++ present,
        stage ((knownKeys parts entries).reverse ++ present)) := by
  induction entries generalizing present with
  | nil => exact .nil _
  | cons e entries ih =>
    obtain ⟨key, T⟩ := e
    obtain ⟨hfit, hothers⟩ := List.forall_mem_cons.1 hfits
    rcases hfit with ⟨part, hpart, hT⟩ | ⟨hkey, hT⟩
    · obtain rfl : T = part.getD NullText := hT
      have hkey : key ∈ parts.map Prod.fst := List.mem_map_of_mem hpart
      have hkeys : knownKeys parts ((key, part.getD NullText) :: entries) =
          key :: knownKeys parts entries := List.filter_cons_of_pos (decide_eq_true hkey)
      rw [hkeys] at hdistinct ⊢
      rw [List.cons_append, ← List.nodup_middle] at hdistinct
      have hnew : key ∉ present := (List.nodup_cons.1 (List.nodup_append.1 hdistinct).2.1).1
      obtain ⟨r, hentry, hread⟩ := entry_known h hnames hpart hnew
      rw [List.reverse_cons, List.append_assoc]
      exact .cons hentry hread (ih hothers hdistinct)
    · obtain rfl : T = ValueText := hT
      have hkeys : knownKeys parts ((key, ValueText) :: entries) = knownKeys parts entries :=
        List.filter_cons_of_neg (by simpa using hkey)
      rw [hkeys] at hdistinct ⊢
      exact .cons (entry_unknown h hkey _) (Reader.Reads.ignored.map _) (ih hothers hdistinct)

theorem nodup_knownKeys (hnames : (parts.map Prod.fst).Nodup)
    {known others entries : List (String × Spelling)}
    (hknown : (known.map Prod.fst).Sublist (parts.map Prod.fst))
    (hothers : ∀ e ∈ others, e.1 ∉ parts.map Prod.fst) (hperm : entries.Perm (known ++ others)) :
    (knownKeys parts entries).Nodup := by
  have hnone : (others.map Prod.fst).filter (· ∈ parts.map Prod.fst) = [] := by
    rw [List.filter_eq_nil_iff]
    intro key hkey
    obtain ⟨e, he, rfl⟩ := List.mem_map.1 hkey
    simpa using hothers e he
  have hkeys := (hperm.map Prod.fst).filter (· ∈ parts.map Prod.fst)
  rw [List.map_append, List.filter_append, hnone, List.append_nil] at hkeys
  exact hkeys.nodup_iff.2 ((hnames.sublist hknown).filter _)

theorem firstMissing_eq_none (h : List.Forall₂ (Spells stage) fields parts)
    {present : List String} (hpresent : ∀ name T, (name, some T) ∈ parts → name ∈ present) :
    firstMissing present fields = none := by
  unfold firstMissing
  rw [List.find?_eq_none]
  intro f hf
  obtain ⟨⟨name, part⟩, hpart, hspells⟩ := exists_part h hf
  rw [Bool.and_eq_true, not_and]
  intro hrequired
  obtain ⟨T, rfl⟩ := Option.isSome_iff_exists.1 (hspells.required hrequired)
  have hname : name = f.name := hspells.name
  have := hpresent name T hpart
  rw [hname] at this
  simpa using this

end RecordField

/-- A record is read by any of its spellings, if each field is. -/
theorem Reader.Reads.record (type : String) {fields : List (RecordField σ)}
    {parts : List (String × Option Spelling)} {stage : List String → σ}
    (h : List.Forall₂ (RecordField.Spells stage) fields parts)
    (hnames : (parts.map Prod.fst).Nodup) {a : σ}
    (ha : ∀ present, (∀ name T, (name, some T) ∈ parts → name ∈ present) → stage present = a) :
    (Reader.record type (some fields) (stage [])).Reads (RecordText parts) a := by
  rintro b _ rest hb ⟨known, others, entries, hknown, hall, hothers, hperm, v, hv, rfl⟩ -
  have hfits : ∀ e ∈ entries, RecordField.Fits parts e := by
    intro e he
    rcases List.mem_append.1 (hperm.mem_iff.1 he) with he | he
    · obtain ⟨⟨name, part⟩, hpart, rfl⟩ := List.mem_map.1 (hknown.subset he)
      exact .inl ⟨part, hpart, rfl⟩
    · exact .inr (hothers e he)
  have hkeys : (known.map Prod.fst).Sublist (parts.map Prod.fst) := by
    have := hknown.map Prod.fst
    rwa [List.map_map] at this
  have hdistinct : (RecordField.knownKeys parts entries ++ []).Nodup := by
    rw [List.append_nil]
    exact RecordField.nodup_knownKeys hnames hkeys (fun e he => (hothers e he).1) hperm
  -- at the end of the map the record has every field that has a spelling
  have hpresent : ∀ name T, (name, some T) ∈ parts →
      name ∈ (RecordField.knownKeys parts entries).reverse ++ [] := by
    intro name T hpart
    rw [List.append_nil, List.mem_reverse]
    refine List.mem_filter.2 ⟨?_, decide_eq_true (List.mem_map_of_mem hpart)⟩
    exact List.mem_map_of_mem (hperm.mem_iff.2 (List.mem_append_left _ (hall name T hpart)))
  have hrun : (RecordField.mapBody fields (stage [])).run (v ++ '\x7d' :: rest) =
      .ok (a, '\x7d' :: rest) := by
    unfold RecordField.mapBody
    refine Body.run_accept
      (foldMap_items (RecordField.folds_entries h hnames hfits hdistinct) hv rest) ?_
    dsimp only
    rw [RecordField.firstMissing_eq_none h hpresent, ha _ hpresent]
  unfold Reader.record Reader.container
  dsimp only
  rw [skipBlanks_append hb, List.cons_append, skipBlanks_cons (by decide), List.append_assoc]
  change enclose .map ((RecordField.mapBody fields (stage [])).run (v ++ '\x7d' :: rest)) = _
  rw [hrun]
  exact enclose_ok .map a rest

end GrammarLoader.Json
