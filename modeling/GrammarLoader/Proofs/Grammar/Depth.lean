import GrammarLoader.Grammar.Decode
import GrammarLoader.Proofs.Rule.Depth
import GrammarLoader.Proofs.Validation.Coverage

/-! How deep rules are in a grammar that was read from a text. Two containers are open around each
of them, the grammar and the section, and around reserved words a third one, the list of their
set. -/

namespace GrammarLoader.Grammar

open Json

def RuleSection.depth : RuleSection → Nat
  | .rules | .extras | .externals => 125
  | .reservedWords => 124

/-- No rule of the grammar is deeper than its section allows. -/
structure Shallow (g : Grammar) : Prop where
  rules : ∀ name : String, ∀ r, g.rules[name]? = some r → r.levels ≤ RuleSection.depth .rules
  extras : ∀ rules ∈ g.extras, ∀ r ∈ rules, r.levels ≤ RuleSection.depth .extras
  externals : ∀ rules ∈ g.externals, ∀ r ∈ rules, r.levels ≤ RuleSection.depth .externals
  reservedWords : ∀ words ∈ g.reservedWords, ∀ name : String, ∀ rules, words[name]? = some rules →
    ∀ r ∈ rules, r.levels ≤ RuleSection.depth .reservedWords

theorem shallow_start : start.Shallow where
  rules name r h := by
    rw [start, Std.ExtTreeMap.getElem?_empty] at h
    cases h
  extras := nofun
  externals := nofun
  reservedWords := nofun

theorem keeps_fields : ∀ f ∈ fields, f.Keeps Shallow := by
  have hrule := Rule.yields_reader (levels - 1)
  have hwords := Rule.yields_reader (levels - 2)
  simp only [fields, List.forall_mem_cons]
  refine ⟨.aside _ fun g _ h => ⟨h.1, h.2, h.3, h.4⟩,
    .needed _ (.any _) fun g _ h _ => ⟨h.1, h.2, h.3, h.4⟩,
    .aside _ fun g _ h => ⟨h.1, h.2, h.3, h.4⟩,
    .needed _ (.dictionary ?_) fun g _ h hrules => ⟨hrules, h.2, h.3, h.4⟩,
    .optional _ (.list ?_) fun g _ h hextras => ⟨h.1, hextras, h.3, h.4⟩,
    .optional _ (.list ?_) fun g _ h hexternals => ⟨h.1, h.2, hexternals, h.4⟩,
    .aside _ fun g _ h => ⟨h.1, h.2, h.3, h.4⟩, .aside _ fun g _ h => ⟨h.1, h.2, h.3, h.4⟩,
    .aside _ fun g _ h => ⟨h.1, h.2, h.3, h.4⟩,
    .optional _ (.dictionary ?_) fun g _ h hreserved => ⟨h.1, h.2, h.3, hreserved⟩,
    .aside _ fun g _ h => ⟨h.1, h.2, h.3, h.4⟩, .aside _ fun g _ h => ⟨h.1, h.2, h.3, h.4⟩, nofun⟩
  iterate 3
    rintro _ ⟨⟩
    exact hrule
  · rintro _ ⟨⟩
    refine .list ?_
    rintro _ ⟨⟩
    exact hwords

theorem Shallow.levels_le {g : Grammar} (h : g.Shallow) {s : RuleSection} {r : Rule}
    (hr : r ∈ g.rulesIn s) : r.levels ≤ s.depth := by
  have hlist {rules : Option (List Rule)} (hr : r ∈ rules.getD []) :
      ∃ found ∈ rules, r ∈ found := by
    cases rules with
    | none => cases hr
    | some found => exact ⟨found, rfl, hr⟩
  cases s with
  | rules =>
    obtain ⟨⟨name, r⟩, hmem, rfl⟩ := List.mem_map.1 hr
    exact h.rules name r (Dictionary.mem_toList.1 hmem)
  | extras =>
    obtain ⟨rules, hrules, hr⟩ := hlist hr
    exact h.extras rules hrules r hr
  | externals =>
    obtain ⟨rules, hrules, hr⟩ := hlist hr
    exact h.externals rules hrules r hr
  | reservedWords =>
    obtain ⟨⟨name, rules⟩, hmem, hr⟩ := List.mem_flatMap.1 hr
    cases hwords : g.reservedWords with
    | none =>
      rw [hwords] at hmem
      cases hmem
    | some words =>
      rw [hwords] at hmem
      exact h.reservedWords words hwords name rules (Dictionary.mem_toList.1 hmem) r hr

/-- However a definition is written, a rule that is read from it has no more than 125 nodes on a
path, or 124 among the reserved words, and with as many calls open at a time all functions that go
through it come to their answer. -/
theorem ofText_bounded {text : String} {g : Grammar} (h : ofText text = .ok g) :
    ∀ s, ∀ r ∈ g.rulesIn s, r.BoundedBy s.depth := by
  have hreader : reader.Yields Shallow := by
    refine .record _ ?_ shallow_start
    rintro _ ⟨⟩
    exact keeps_fields
  exact fun s r hr => Rule.boundedBy ((hreader.readAll h).levels_le hr)

theorem exists_ofText {α : Type} {text : List Char} {seen : Grammar → α} {a : α}
    (h : (reader.run text).toOption.map (fun (g, rest) => (rest.isEmpty, seen g)) =
      some (true, a)) : ∃ g, ofText (String.ofList text) = .ok g ∧ seen g = a := by
  unfold ofText Reader.readAll
  dsimp only
  rw [String.toList_ofList]
  cases hread : reader.run text with
  | error f =>
    rw [hread] at h
    cases h
  | ok read =>
    obtain ⟨g, rest⟩ := read
    rw [hread] at h
    obtain ⟨hrest, hseen⟩ := Prod.mk.inj (Option.some.inj h)
    obtain rfl := List.isEmpty_iff.1 hrest
    exact ⟨g, rfl, hseen⟩

/-- The text of `n` nodes around a last one, each the content of the one before. -/
def chain (first : String) (n : Nat) (last : String) (close : Char) : List Char :=
  (List.replicate n first.toList).flatten ++ last.toList ++ List.replicate n close

/-- A definition that is as deep as can be, with nodes that are written as maps and as lists. One of
its external tokens has a list of members. -/
def deepest : List Char :=
  "\x7b\"name\":\"g\",\"rules\":\x7b\"a\":".toList ++
    chain "\x7b\"type\":\"TOKEN\",\"content\":" 124 "\x7b\"type\":\"BLANK\"\x7d" '\x7d' ++
    "\x7d,\"extras\":[".toList ++ chain "[\"TOKEN\",null,null," 124 "[\"BLANK\"]" ']' ++
    "],\"externals\":[[\"SEQ\",null,null,null,[\x7b\"type\":\"BLANK\"\x7d]]],".toList ++
    "\"reserved\":\x7b\"w\":[".toList ++ chain "[\"TOKEN\",null,null," 123 "[\"BLANK\"]" ']' ++
    "]\x7d\x7d".toList

/-- The bounds are met: there are as many nodes on the only path down each rule but the external
token, whose two nodes make three containers. -/
theorem ofText_bounded_deepest : ∃ g, ofText (String.ofList deepest) = .ok g ∧
    ([.rules, .extras, .externals, .reservedWords].map fun s =>
      (g.rulesIn s).map fun r => (r.nodes.length, r.levels)) =
        [[(125, 125)], [(125, 125)], [(2, 3)], [(124, 124)]] ∧
    ∀ s, ∀ r ∈ g.rulesIn s, r.BoundedBy s.depth := by
  have hread : ∃ g, ofText (String.ofList deepest) = .ok g ∧
      ([.rules, .extras, .externals, .reservedWords].map fun s =>
        (g.rulesIn s).map fun r => (r.nodes.length, r.levels)) =
          [[(125, 125)], [(125, 125)], [(2, 3)], [(124, 124)]] :=
    exists_ofText (by decide +kernel)
  obtain ⟨g, hg, hshape⟩ := hread
  exact ⟨g, hg, hshape, ofText_bounded hg⟩

end GrammarLoader.Grammar
