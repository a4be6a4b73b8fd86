import GrammarLoader.Language.Query
import GrammarLoader.Proofs.Language.Load

/-!
Fields and ids. The names of the fields of a grammar are listed once each, and the id of a field is
one more than its place, so looking up names and looking up ids undo each other.
-/

namespace GrammarLoader

theorem idOfNat?_eq_some_iff {n : Nat} {id : UInt16} : idOfNat? n = some id ↔ id.toNat = n := by
  unfold idOfNat? maxEntries
  constructor
  · intro h
    split at h
    · next hn =>
      obtain rfl := Option.some.inj h
      exact UInt16.toNat_ofNat_of_lt' (Nat.lt_succ_of_le hn)
    · cases h
  · rintro rfl
    rw [if_pos (Nat.le_of_lt_succ id.toNat_lt), UInt16.ofNat_toNat]

namespace Language

variable {l : Language} {name : String} {id : UInt16}

theorem fieldName?_eq_some_iff :
    l.fieldName? id = some name ↔ ∃ i, id.toNat = i + 1 ∧ l.tables.fields[i]? = some name := by
  unfold fieldName?
  split
  · next hzero =>
    subst hzero
    simp
  · next hne =>
    have hpos : id.toNat ≠ 0 := fun h => hne (UInt16.toNat_inj.1 h)
    constructor
    · intro h
      exact ⟨id.toNat - 1, by omega, h⟩
    · rintro ⟨i, hi, h⟩
      rwa [hi, Nat.add_sub_cancel]

/-- The name of an id leads to the id, and the id of a name to the name. -/
theorem fieldId?_eq_some_iff (hnodup : l.tables.fields.Nodup) :
    l.fieldId? name = some id ↔ l.fieldName? id = some name := by
  rw [fieldName?_eq_some_iff, fieldId?, Option.bind_eq_bind, Option.bind_eq_some_iff]
  simp only [idOfNat?_eq_some_iff, and_comm (a := id.toNat = _)]
  refine exists_congr fun i => and_congr_left fun _ => ?_
  rw [List.findIdx?_eq_some_iff_getElem, List.getElem?_eq_some_iff]
  refine exists_congr fun hlt => ?_
  rw [decide_eq_true_eq, and_iff_left_of_imp]
  -- An earlier place of the same name would be the same place.
  rintro rfl j hj hsame
  exact hj.ne (hnodup.getElem_inj_iff.1 (of_decide_eq_true hsame))

theorem exists_fieldName? (hid : 0 < id.toNat) (hle : id.toNat ≤ l.fieldCount) :
    ∃ name, l.fieldName? id = some name := by
  have hlt : id.toNat - 1 < l.tables.fields.length := by
    unfold fieldCount at hle
    omega
  exact ⟨_, fieldName?_eq_some_iff.2 ⟨id.toNat - 1, by omega, List.getElem?_eq_getElem hlt⟩⟩

theorem exists_fieldId? (hnodup : l.tables.fields.Nodup) (hlen : l.fieldCount ≤ maxEntries)
    (hname : name ∈ l.tables.fields) : ∃ id, l.fieldId? name = some id := by
  obtain ⟨i, hi⟩ := List.getElem?_of_mem hname
  obtain ⟨hlt, -⟩ := List.getElem?_eq_some_iff.1 hi
  refine ⟨.ofNat (i + 1), (fieldId?_eq_some_iff hnodup).2 (fieldName?_eq_some_iff.2 ⟨i, ?_, hi⟩)⟩
  exact UInt16.toNat_ofNat_of_lt' (Nat.lt_succ_of_le (Nat.le_trans hlt hlen))

theorem fieldName?_eq_none_iff : l.fieldName? id = none ↔ id = 0 ∨ l.fieldCount < id.toNat := by
  constructor
  · intro hnone
    by_contra hid
    rw [not_or, Nat.not_lt] at hid
    have hpos : id.toNat ≠ 0 := fun h => hid.1 (UInt16.toNat_inj.1 h)
    obtain ⟨name, hname⟩ := exists_fieldName? (Nat.pos_of_ne_zero hpos) hid.2
    rw [hnone] at hname
    cases hname
  · intro hid
    rw [Option.eq_none_iff_forall_ne_some]
    intro name hname
    obtain ⟨i, hi, hsome⟩ := fieldName?_eq_some_iff.1 hname
    obtain ⟨hlt, -⟩ := List.getElem?_eq_some_iff.1 hsome
    rcases hid with rfl | hid
    · cases hi
    · unfold fieldCount at hid
      omega

theorem fields_of_load {h : Handle} {o : LoadOptions} (hl : (load h o).result = .ok l) :
    Enumerates l.tables.fields l.grammar.IsField ∧ l.fieldCount ≤ maxEntries := by
  obtain ⟨_, _, _, hval, ht⟩ := parts_of_load hl
  have hs := Grammar.start_mem_rules (Grammar.violation?_eq_none_of_ok hval)
  have hfields := (Grammar.tables_of_ok hs ht).2.1
  rw [fieldCount, hfields]
  exact ⟨Grammar.enumerates_fieldNames, ((Grammar.tables_ok_iff hs).1 ⟨_, ht⟩).2⟩

/-- The fields of a language are those of its grammar in ascending order. Their ids begin at one, each
leads to a name and back, and so does each name to an id; no other id and no other name leads
anywhere. In the longest table that there can be, the largest id is that of a field too. -/
theorem fieldId?_exact {h : Handle} {o : LoadOptions} (hl : (load h o).result = .ok l) :
    l.tables.fields.Pairwise (· < ·) ∧
    (∀ name, name ∈ l.tables.fields ↔ l.grammar.IsField name) ∧
    l.fieldCount ≤ 65535 ∧
    (∀ id : UInt16, 1 ≤ id.toNat → id.toNat ≤ l.fieldCount →
      (l.fieldName? id).bind l.fieldId? = some id) ∧
    (∀ name, l.grammar.IsField name → (l.fieldId? name).bind l.fieldName? = some name) ∧
    (∀ id, l.fieldName? id = none ↔ id = 0 ∨ l.fieldCount < id.toNat) ∧
    (∀ name, l.fieldId? name = none ↔ ¬l.grammar.IsField name) ∧
    (l.fieldCount = 65535 →
      ∃ name, l.fieldName? 65535 = some name ∧ l.fieldId? name = some 65535) := by
  obtain ⟨hfields, hlen⟩ := fields_of_load hl
  have hback {name : String} {id : UInt16} :
      l.fieldId? name = some id ↔ l.fieldName? id = some name :=
    fieldId?_eq_some_iff hfields.nodup
  refine ⟨hfields.ascending, hfields.mem_iff, hlen, fun id hid hle => ?_, fun name hname => ?_,
    fun id => fieldName?_eq_none_iff, fun name => ⟨fun hnone hname => ?_, fun hname => ?_⟩,
    fun hfull => ?_⟩
  · obtain ⟨name, hname⟩ := exists_fieldName? hid hle
    rw [hname, Option.bind_some, hback.2 hname]
  · obtain ⟨id, hid⟩ := exists_fieldId? hfields.nodup hlen ((hfields.mem_iff name).2 hname)
    rw [hid, Option.bind_some, hback.1 hid]
  · obtain ⟨id, hid⟩ := exists_fieldId? hfields.nodup hlen ((hfields.mem_iff name).2 hname)
    rw [hnone] at hid
    cases hid
  · rw [Option.eq_none_iff_forall_ne_some]
    intro id hid
    obtain ⟨i, -, hi⟩ := fieldName?_eq_some_iff.1 (hback.1 hid)
    exact hname ((hfields.mem_iff name).1 (List.mem_of_getElem? hi))
  · have hlast : 0 < (65535 : UInt16).toNat := by decide
    obtain ⟨name, hname⟩ := exists_fieldName? hlast hfull.ge
    exact ⟨name, hname, hback.2 hname⟩

/-- A grammar with a field inside another one, both inside a token. -/
def nestedFields : Handle :=
  ⟨"pair", 14, "pair", [],
    "\x7b\"name\":\"pair\",\"rules\":\x7b\"pair\":\x7b\"type\":\"TOKEN\",\"content\":" ++
      "\x7b\"type\":\"FIELD\",\"name\":\"right\",\"content\":" ++
      "\x7b\"type\":\"FIELD\",\"name\":\"left\",\"content\":" ++
      "\x7b\"type\":\"BLANK\"\x7d\x7d\x7d\x7d\x7d\x7d"⟩

theorem fieldId?_nestedFields : ∃ l, (load nestedFields .standard).result = .ok l ∧
    l.tables.fields = ["left", "right"] ∧ l.grammar.IsField "left" ∧
      (l.fieldName? 2).bind l.fieldId? = some 2 ∧
      (l.fieldId? "right").bind l.fieldName? = some "right" ∧ l.fieldName? 3 = none ∧
        l.fieldId? "pair" = none := by
  have h : (load nestedFields .standard).result.toOption.map (·.tables.fields) =
      some ["left", "right"] := by
    decide +kernel
  cases hr : (load nestedFields .standard).result with
  | error e =>
    rw [hr] at h
    cases h
  | ok l =>
    rw [hr] at h
    have hfields : l.tables.fields = ["left", "right"] := Option.some.inj h
    have hcount : l.fieldCount = 2 := congrArg List.length hfields
    obtain ⟨-, hmem, -, hid, hname, hnone, hunknown, -⟩ := fieldId?_exact hr
    have hfield (name : String) : l.grammar.IsField name ↔ name ∈ ["left", "right"] := by
      rw [← hmem, hfields]
    refine ⟨l, rfl, hfields, (hfield _).2 (by decide), hid 2 (by decide) (by rw [hcount]; decide),
      hname "right" ((hfield _).2 (by decide)), (hnone 3).2 (.inr ?_), (hunknown "pair").2 ?_⟩
    · rw [hcount]
      decide
    · rw [hfield]
      decide

end Language
end GrammarLoader
