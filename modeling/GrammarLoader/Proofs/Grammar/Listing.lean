import GrammarLoader.Grammar.Decode
import GrammarLoader.Proofs.Dictionary
import GrammarLoader.Proofs.Json.Agreement

/-! Grammars as their definitions list them: the rules are entries in the order of the text, and a
name may come several times. A grammar is read from a definition by listing it and then entering the
rules one after the other, so of each name the last entry counts. -/

namespace GrammarLoader

open Json

section
variable {α : Type}

/-- The dictionary into which entries are made one after the other. -/
def Dictionary.ofEntries (entries : List (String × α)) : Dictionary α :=
  entries.foldl (fun d entry => d.insert entry.1 entry.2) ∅

def DistinctNames (entries : List (String × α)) : Prop := (entries.map Prod.fst).Nodup

instance (entries : List (String × α)) : Decidable (DistinctNames entries) :=
  inferInstanceAs (Decidable (entries.map Prod.fst).Nodup)

/-- The last entry of each name. -/
def lastEntries : List (String × α) → List (String × α)
  | [] => []
  | entry :: rest =>
    if entry.1 ∈ rest.map Prod.fst then lastEntries rest else entry :: lastEntries rest

variable {entries : List (String × α)} {name : String} {a : α}

theorem getElem?_foldl_insert (entries : List (String × α)) (d : Dictionary α) (name : String) :
    (entries.foldl (fun d entry => d.insert entry.1 entry.2) d)[name]? =
      (entries.reverse.lookup name).or d[name]? := by
  induction entries generalizing d with
  | nil => rfl
  | cons entry rest ih =>
    rw [List.foldl_cons, ih, List.reverse_cons, List.lookup_append, Option.or_assoc]
    congr 1
    rw [Std.ExtTreeMap.getElem?_insert, List.lookup_cons, List.lookup_nil]
    by_cases hname : name = entry.1
    · subst hname
      simp
    · have hne : entry.1 ≠ name := Ne.symm hname
      rw [if_neg (by simpa using hne), beq_eq_false_iff_ne.2 hname]
      rfl

theorem getElem?_ofEntries (entries : List (String × α)) (name : String) :
    (Dictionary.ofEntries entries)[name]? = entries.reverse.lookup name := by
  rw [Dictionary.ofEntries, getElem?_foldl_insert, Std.ExtTreeMap.getElem?_empty, Option.or_none]

theorem mem_of_lookup (h : entries.lookup name = some a) : (name, a) ∈ entries := by
  obtain ⟨before, after, rfl, -⟩ := List.lookup_eq_some_iff.1 h
  exact List.mem_append_right _ List.mem_cons_self

theorem lookup_eq_none_iff_names : entries.lookup name = none ↔ name ∉ entries.map Prod.fst := by
  rw [List.lookup_eq_none_iff, List.mem_map]
  constructor
  · rintro h ⟨entry, hentry, rfl⟩
    exact bne_iff_ne.1 (h entry hentry) rfl
  · intro h entry hentry
    exact bne_iff_ne.2 fun heq => h ⟨entry, hentry, heq.symm⟩

namespace DistinctNames

theorem lookup_eq_some_iff (h : DistinctNames entries) :
    entries.lookup name = some a ↔ (name, a) ∈ entries := by
  refine ⟨mem_of_lookup, fun hmem => ?_⟩
  induction entries with
  | nil => cases hmem
  | cons entry rest ih =>
    obtain ⟨hhead, hrest⟩ := List.nodup_cons.1 h
    rw [List.lookup_cons]
    rcases List.mem_cons.1 hmem with rfl | hmem
    · rw [beq_self_eq_true]
    · have hne : (name == entry.1) = false := by
        rw [beq_eq_false_iff_ne]
        rintro rfl
        exact hhead (List.mem_map.2 ⟨_, hmem, rfl⟩)
      rw [hne]
      exact ih hrest hmem

/-- Where no name comes twice, the order of the entries is not seen. -/
theorem lookup_perm {others : List (String × α)} (h : DistinctNames entries)
    (hp : others.Perm entries) (name : String) : others.lookup name = entries.lookup name := by
  have hothers : DistinctNames others := (hp.map Prod.fst).nodup_iff.2 h
  ext a
  rw [h.lookup_eq_some_iff, hothers.lookup_eq_some_iff, hp.mem_iff]

theorem getElem?_ofEntries (h : DistinctNames entries) (name : String) :
    (Dictionary.ofEntries entries)[name]? = entries.lookup name := by
  rw [GrammarLoader.getElem?_ofEntries]
  exact h.lookup_perm entries.reverse_perm name

end DistinctNames

theorem mem_names_lastEntries :
    name ∈ (lastEntries entries).map Prod.fst ↔ name ∈ entries.map Prod.fst := by
  induction entries with
  | nil => rfl
  | cons entry rest ih =>
    rw [lastEntries]
    split
    · next h =>
      rw [ih, List.map_cons, List.mem_cons, or_iff_right_of_imp]
      rintro rfl
      exact h
    · rw [List.map_cons, List.map_cons, List.mem_cons, List.mem_cons, ih]

theorem distinctNames_lastEntries (entries : List (String × α)) :
    DistinctNames (lastEntries entries) := by
  induction entries with
  | nil => exact List.nodup_nil
  | cons entry rest ih =>
    rw [lastEntries]
    split
    · exact ih
    · next h => exact List.nodup_cons.2 ⟨fun hmem => h (mem_names_lastEntries.1 hmem), ih⟩

theorem lookup_lastEntries (entries : List (String × α)) (name : String) :
    (lastEntries entries).lookup name = entries.reverse.lookup name := by
  induction entries with
  | nil => rfl
  | cons entry rest ih =>
    rw [List.reverse_cons, List.lookup_append, ← ih, lastEntries]
    have hnone : ∀ {n}, n ∉ rest.map Prod.fst → (lastEntries rest).lookup n = none := fun hn =>
      lookup_eq_none_iff_names.2 fun hmem => hn (mem_names_lastEntries.1 hmem)
    rw [List.lookup_cons, List.lookup_nil]
    by_cases hname : name = entry.1
    · subst hname
      split
      · next h =>
        cases hlast : (lastEntries rest).lookup entry.1 with
        | none => exact absurd (mem_names_lastEntries.2 h) (lookup_eq_none_iff_names.1 hlast)
        | some a => rfl
      · next h =>
        rw [hnone h, List.lookup_cons, beq_self_eq_true]
        rfl
    · have hne : (name == entry.1) = false := beq_eq_false_iff_ne.2 hname
      rw [hne, Option.or_none]
      split
      · rfl
      · rw [List.lookup_cons, hne]

theorem DistinctNames.lastEntries_eq (h : DistinctNames entries) :
    lastEntries entries = entries := by
  induction entries with
  | nil => rfl
  | cons entry rest ih =>
    obtain ⟨hhead, hrest⟩ := List.nodup_cons.1 h
    rw [lastEntries, if_neg hhead, ih hrest]

theorem ofEntries_lastEntries (entries : List (String × α)) :
    Dictionary.ofEntries (lastEntries entries) = Dictionary.ofEntries entries := by
  refine Std.ExtTreeMap.ext_getElem? fun name => ?_
  rw [(distinctNames_lastEntries entries).getElem?_ofEntries, getElem?_ofEntries,
    lookup_lastEntries]

end

namespace Json

def Body.pairs {α : Type} (value : Reader α) : Body (List (String × α)) :=
  .entries (fun found name => .ok (value.map fun a => found ++ [(name, a)])) []

def Reader.pairs {α : Type} (value : Option (Reader α)) : Reader (List (String × α)) :=
  .container .refused (.ofOption (value.map .pairs)) (.refuse "a map")

/-- A dictionary is read by entering what is listed. -/
theorem Reader.pairs_agrees {α : Type} (value : Option (Reader α)) :
    (Reader.pairs value).Agrees (fun entries d => d = .ofEntries entries) (.dictionary value) := by
  refine .container .refused (.ofOption ?_) (.refuse "a map")
  cases value with
  | none => exact .none
  | some value =>
    refine .some (.entries ?_ rfl)
    rintro found _ name rfl
    refine .ok (.map_same value fun a => ?_)
    rw [Dictionary.ofEntries, Dictionary.ofEntries, List.foldl_append]
    rfl

end Json

/-- A grammar as its definition lists it. -/
structure Listing where
  sections : Grammar
  entries : List (String × Rule)

namespace Listing

/-- The grammar with the rules that are listed. -/
def grammar (l : Listing) : Grammar := { l.sections with rules := .ofEntries l.entries }

def listed (f : RecordField Grammar) : RecordField Listing :=
  if f.name = "rules" then
    .needed "rules" (.pairs (some (Rule.reader (Grammar.levels - 1)))) fun l entries =>
      { l with entries }
  else ⟨f.name, f.required, fun l => (f.read l.sections).map fun sections => { l with sections }⟩

def reader : Reader Listing :=
  .record "struct Grammar" (some (Grammar.fields.map listed)) ⟨Grammar.start, []⟩

def ofText (text : String) : Except ReadError Listing := reader.readAll text

theorem listed_agrees {f : RecordField Grammar} (hname : f.name ≠ "rules") {α : Type} (r : Reader α)
    (store : Grammar → α → Grammar) (hread : ∀ g, f.read g = r.map (store g))
    (hstore : ∀ g rules a, store { g with rules } a = { store g a with rules }) :
    (listed f).Agrees (fun l g => g = l.grammar) f := by
  rw [listed, if_neg hname]
  refine ⟨rfl, rfl, ?_⟩
  rintro l _ rfl
  dsimp only
  rw [hread, hread]
  have hsame : (r.map (store l.sections)).Agrees
      (fun sections g => g = { sections with rules := .ofEntries l.entries })
      (r.map (store l.grammar)) := .map_same r fun a => hstore _ _ a
  exact hsame.map_left fun sections g h => h

theorem listed_optional_agrees {name : String} (hname : name ≠ "rules") {α : Type} {r : Reader α}
    {store : Grammar → Option α → Grammar}
    (hstore : ∀ g rules a, store { g with rules } a = { store g a with rules }) :
    (listed (.optional name r store)).Agrees (fun l g => g = l.grammar) (.optional name r store) :=
  listed_agrees hname r.option store (fun _ => rfl) hstore

theorem listed_needed_agrees {name : String} (hname : name ≠ "rules") {α : Type} {r : Reader α}
    {store : Grammar → α → Grammar}
    (hstore : ∀ g rules a, store { g with rules } a = { store g a with rules }) :
    (listed (.needed name r store)).Agrees (fun l g => g = l.grammar) (.needed name r store) :=
  listed_agrees hname r store (fun _ => rfl) hstore

theorem listed_rules_agrees :
    (listed (.needed "rules" (.dictionary (some (Rule.reader (Grammar.levels - 1))))
      fun g rules => { g with rules })).Agrees (fun l g => g = l.grammar)
      (.needed "rules" (.dictionary (some (Rule.reader (Grammar.levels - 1))))
        fun g rules => { g with rules }) := by
  unfold listed
  split
  · refine ⟨rfl, rfl, ?_⟩
    rintro l _ rfl
    dsimp only [RecordField.needed]
    refine (Reader.pairs_agrees _).map ?_
    rintro entries _ rfl
    rfl
  · next hname => exact absurd rfl hname

theorem listed_fields_agree :
    List.Forall₂ (RecordField.Agrees fun l g => g = l.grammar) (Grammar.fields.map listed)
      Grammar.fields := by
  rw [List.forall₂_map_left_iff, List.forall₂_same]
  unfold Grammar.fields
  simp only [List.forall_mem_cons]
  refine ⟨?_, ?_, ?_, listed_rules_agrees, ?_, ?_, ?_, ?_, ?_, ?_, ?_, ?_,
    fun _ h => absurd h List.not_mem_nil⟩
  on_goal 2 => exact listed_needed_agrees (by decide) fun _ _ _ => rfl
  all_goals exact listed_optional_agrees (by decide) fun _ _ _ => rfl

theorem reader_agrees : reader.Agrees (fun l g => g = l.grammar) Grammar.reader :=
  .record "struct Grammar" listed_fields_agree rfl

end Listing

/-- A definition is read by listing it and entering its rules in their order. -/
theorem Grammar.ofText_eq (text : String) :
    Grammar.ofText text = (Listing.ofText text).map Listing.grammar :=
  (Listing.reader_agrees.readAll text).eq_map

end GrammarLoader
