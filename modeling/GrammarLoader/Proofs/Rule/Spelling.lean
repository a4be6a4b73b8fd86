import GrammarLoader.Proofs.Json.Containers
import GrammarLoader.Proofs.Rule.Nodes
import GrammarLoader.Rule.Decode

/-! The spellings of rules. A node is a record whose fields may be spelled in any way, and a text
that spells a rule is read as that rule, as long as not too many containers lie inside one
another. -/

namespace GrammarLoader.Rule

open Json

def Value.Text : Rule.Value → Spelling
  | .text s => StringText s
  | .number n => fun t => -2147483648 ≤ n ∧ n ≤ 2147483647 ∧ IntText n t

mutual

def Text : Rule → Spelling
  | node label members content => RecordText [
      ("type", some (StringText label.kind.name)),
      ("value", label.value.map Value.Text),
      ("name", label.name.map StringText),
      ("content", contentText content),
      ("members", membersText members),
      ("named", label.named.map BoolText),
      ("flags", label.flags.map StringText),
      ("context_name", label.contextName.map StringText)]

def membersText : Option (List Rule) → Option Spelling
  | some rules => some (ListText (listTexts rules))
  | none => none

def listTexts : List Rule → List Spelling
  | [] => []
  | r :: rules => r.Text :: listTexts rules

def contentText : Option Rule → Option Spelling
  | some r => some r.Text
  | none => none

end

mutual

/-- How many containers of a rule lie inside one another, its unknown entries aside. -/
def levels : Rule → Nat
  | node _ members content => 1 + max (membersLevels members) (contentLevels content)

def membersLevels : Option (List Rule) → Nat
  | some rules => 1 + listLevels rules
  | none => 0

def listLevels : List Rule → Nat
  | [] => 0
  | r :: rules => max r.levels (listLevels rules)

def contentLevels : Option Rule → Nat
  | some r => r.levels
  | none => 0

end

theorem levels_le_listLevels {r : Rule} {rules : List Rule} (h : r ∈ rules) :
    r.levels ≤ listLevels rules := by
  induction rules with
  | nil => cases h
  | cons r' rules ih =>
    rw [listLevels]
    rcases List.mem_cons.1 h with rfl | h
    · exact Nat.le_max_left _ _
    · exact Nat.le_trans (ih h) (Nat.le_max_right _ _)

theorem listTexts_eq (rules : List Rule) : listTexts rules = rules.map Text := by
  induction rules with
  | nil => rw [listTexts, List.map_nil]
  | cons r rules ih => rw [listTexts, ih, List.map_cons]

theorem membersText_eq (members : Option (List Rule)) :
    membersText members = members.map fun rules => ListText (rules.map Text) := by
  cases members with
  | none => rw [membersText, Option.map_none]
  | some rules => rw [membersText, listTexts_eq, Option.map_some]

theorem contentText_eq (content : Option Rule) : contentText content = content.map Text := by
  cases content with
  | none => rw [contentText, Option.map_none]
  | some r => rw [contentText, Option.map_some]

/-- The fields of a node with the spellings of those it has. -/
def parts (r : Rule) : List (String × Option Spelling) := [
  ("type", some (StringText r.kind.name)),
  ("value", r.label.value.map Value.Text),
  ("name", r.label.name.map StringText),
  ("content", r.content.map Text),
  ("members", r.members.map fun rules => ListText (rules.map Text)),
  ("named", r.label.named.map BoolText),
  ("flags", r.label.flags.map StringText),
  ("context_name", r.label.contextName.map StringText)]

theorem text_eq (r : Rule) : r.Text = RecordText r.parts := by
  cases r with
  | node label members content =>
    rw [Text, membersText_eq, contentText_eq]
    rfl

def stage (r : Rule) (present : List String) : Rule :=
  let read {α : Type} (name : String) (v : Option α) : Option α :=
    if name ∈ present then v else none
  node
    { kind := if "type" ∈ present then r.kind else .blank
      value := read "value" r.label.value
      name := read "name" r.label.name
      named := read "named" r.label.named
      flags := read "flags" r.label.flags
      contextName := read "context_name" r.label.contextName }
    (read "members" r.members) (read "content" r.content)

theorem stage_nil (r : Rule) : r.stage [] = start := rfl

theorem stage_eq {r : Rule} {present : List String}
    (h : ∀ name T, (name, some T) ∈ r.parts → name ∈ present) : r.stage present = r := by
  have hread {α : Type} (name : String) (v : Option α) {text : α → Spelling}
      (hpart : (name, v.map text) ∈ r.parts) : (if name ∈ present then v else none) = v := by
    cases v with
    | none => exact ite_self none
    | some a => exact if_pos (h name (text a) hpart)
  have hkind : "type" ∈ present := h "type" _ List.mem_cons_self
  have hvalue := hread "value" r.label.value (.tail _ (.head _))
  have hname := hread "name" r.label.name (.tail _ (.tail _ (.head _)))
  have hcontent := hread "content" r.content (.tail _ (.tail _ (.tail _ (.head _))))
  have hmembers := hread "members" r.members (.tail _ (.tail _ (.tail _ (.tail _ (.head _)))))
  have hnamed := hread "named" r.label.named
    (.tail _ (.tail _ (.tail _ (.tail _ (.tail _ (.head _))))))
  have hflags := hread "flags" r.label.flags
    (.tail _ (.tail _ (.tail _ (.tail _ (.tail _ (.tail _ (.head _)))))))
  have hcontext := hread "context_name" r.label.contextName
    (.tail _ (.tail _ (.tail _ (.tail _ (.tail _ (.tail _ (.tail _ (.head _))))))))
  unfold stage
  dsimp only
  rw [if_pos hkind, hvalue, hname, hcontent, hmembers, hnamed, hflags, hcontext]
  cases r with
  | node label members content => rfl

theorem avoids_text (r : Rule) : Avoids ['n', ']'] r.Text := by
  rw [text_eq]
  rintro t ⟨-, -, entries, -, -, -, -, ht⟩
  exact avoids_mapText _ t ht

theorem reads_valueText (levels : Nat) (v : Rule.Value) :
    (Value.reader levels).Reads v.Text v := by
  have hscalar {T : Spelling} {s : Scalar} (h : Reader.scalar.Reads T s)
      (hT : Avoids ['[', '\x7b'] T) {v : Rule.Value} (hv : Value.ofJson (.scalar s) = .ok v) :
      (Value.reader levels).Reads T v := by
    unfold Value.reader
    unfold Json.Value.reader
    exact ((h.map Json.Value.scalar).container hT).accept hv .unplaced
  cases v with
  | text s => exact hscalar (.scalar_string s) ((avoids_stringText s).mono (by decide)) rfl
  | number n =>
    rintro b t rest hb ⟨hlow, hhigh, ht⟩ hrest
    have hint : Reader.scalar.Reads (IntText n) (.int n) := by
      refine .scalar_int (by omega) ?_
      unfold maxSignificand
      omega
    have hv : Value.ofJson (.scalar (.int n)) = .ok (.number n) := if_pos ⟨hlow, hhigh⟩
    exact hscalar hint ((avoids_intText n).mono (by decide)) hv b t rest hb ht hrest

theorem avoids_valueText (v : Rule.Value) : Avoids ['n'] v.Text := by
  cases v with
  | text s => exact (avoids_stringText s).mono (by decide)
  | number n =>
    rintro t ⟨-, -, ht⟩
    exact (avoids_intText n).mono (by decide) t ht

theorem spells_fields {r : Rule} (n : Nat) {content : Reader Rule} {member : Option (Reader Rule)}
    (hcontent : ∀ c ∈ r.content, content.Reads c.Text c)
    (hmembers : ∀ rules ∈ r.members,
      (Reader.list member).Reads (ListText (rules.map Text)) rules) :
    List.Forall₂ (RecordField.Spells r.stage) (fields n content member) r.parts := by
  have hstring (s : String) : Reader.string.Reads (StringText s) s ∧ Avoids ['n'] (StringText s) :=
    ⟨.string s, (avoids_stringText s).mono (by decide)⟩
  have hbool (b : Bool) : Reader.bool.Reads (BoolText b) b ∧ Avoids ['n'] (BoolText b) :=
    ⟨.bool b, (avoids_boolText b).mono (by decide)⟩
  have hvalue (v : Rule.Value) : (Value.reader n).Reads v.Text v ∧ Avoids ['n'] v.Text :=
    ⟨reads_valueText n v, avoids_valueText v⟩
  have hkind : (Kind.reader (n ≠ 0)).Reads (StringText r.kind.name) r.kind :=
    .enumerated _ (Kind.ofName?_name r.kind) _
  unfold fields parts
  refine .cons (.needed hkind ?_) <| .cons (.optional (fun v _ => hvalue v) ?_) <|
    .cons (.optional (fun s _ => hstring s) ?_) <|
    .cons (.optional (fun c hc => ⟨hcontent c hc, (avoids_text c).mono (by decide)⟩) ?_) <|
    .cons (.optional
      (fun rules h => ⟨hmembers rules h, (avoids_listText _).mono (by decide)⟩) ?_) <|
    .cons (.optional (fun b _ => hbool b) ?_) <| .cons (.optional (fun s _ => hstring s) ?_) <|
    .cons (.optional (fun s _ => hstring s) ?_) .nil
  all_goals
    intro present
    simp [stage, withLabel, withContent, withMembers]

theorem levels_content {r c : Rule} (h : c ∈ r.content) : 1 + c.levels ≤ r.levels := by
  cases r with
  | node label members content =>
    obtain rfl : content = some c := h
    rw [levels, contentLevels]
    omega

theorem levels_members {r : Rule} {rules : List Rule} (h : rules ∈ r.members) :
    2 + listLevels rules ≤ r.levels := by
  cases r with
  | node label members content =>
    obtain rfl : members = some rules := h
    rw [levels, membersLevels]
    omega

theorem one_le_levels (r : Rule) : 1 ≤ r.levels := by
  cases r with
  | node label members content =>
    rw [levels]
    exact Nat.le_add_right 1 _

/-- Every rule has a spelling, if 32 bits hold its numbers. -/
theorem exists_text {r : Rule} (h : ∀ c ∈ r.nodes, ∀ n, c.label.value = some (.number n) →
    -2147483648 ≤ n ∧ n ≤ 2147483647) : ∃ t, r.Text t := by
  induction r using induction with
  | step r ih =>
    have hchild : ∀ c ∈ r.children, ∃ t, c.Text t := by
      intro c hc
      refine ih c hc fun d hd => h d ?_
      rw [nodes_eq]
      exact List.mem_cons_of_mem _ (List.mem_flatMap.2 ⟨c, hc, hd⟩)
    have hvalue : ∀ v ∈ r.label.value, ∃ t, Value.Text v t := by
      intro v hv
      cases v with
      | text s => exact exists_stringText s
      | number n =>
        have hself : r ∈ r.nodes := by
          rw [nodes_eq]
          exact List.mem_cons_self
        obtain ⟨hlow, hhigh⟩ := h r hself n hv
        exact ⟨_, hlow, hhigh, rfl⟩
    have hmembers : ∀ rules ∈ r.members, ∃ t, ListText (rules.map Text) t := by
      intro rules hrules
      refine exists_listText (List.forall_mem_map.2 fun c hc => ?_)
      exact hchild c (mem_children_of_members hrules hc)
    have hbool (b : Bool) : ∃ t, BoolText b t := by cases b <;> exact ⟨_, rfl⟩
    have hpart {α : Type} {v : Option α} {text : α → Spelling} (hv : ∀ a ∈ v, ∃ t, text a t) :
        ∀ T ∈ v.map text, ∃ t, T t := by
      intro T hT
      obtain ⟨a, ha, rfl⟩ := Option.map_eq_some_iff.1 hT
      exact hv a ha
    rw [text_eq]
    refine exists_recordText ?_
    unfold parts
    simp only [List.forall_mem_cons]
    exact ⟨hpart (v := some r.kind.name) fun s _ => exists_stringText s, hpart hvalue,
      hpart fun s _ => exists_stringText s,
      hpart fun c hc => hchild c (mem_children_of_content hc), hpart hmembers,
      hpart fun b _ => hbool b, hpart fun s _ => exists_stringText s,
      hpart fun s _ => exists_stringText s, nofun⟩

/-- The members of a node lie one container further in than its content. -/
theorem reader_succ (n : Nat) :
    reader (n + 1) = .record "struct Rule" (some (fields n (reader n) (readers n).2)) start := rfl

/-- Each spelling of a rule is read as that rule, if it has no more levels than are left. -/
theorem reads_text {r : Rule} {n : Nat} (h : r.levels ≤ n) : (reader n).Reads r.Text r := by
  induction r using induction generalizing n with
  | step r ih =>
    obtain ⟨n, rfl⟩ := Nat.exists_eq_add_of_le' (Nat.le_trans (one_le_levels r) h)
    have hnames : (r.parts.map Prod.fst).Nodup := by
      change ["type", "value", "name", "content", "members", "named", "flags",
        "context_name"].Nodup
      decide
    have hcontent : ∀ c ∈ r.content, (reader n).Reads c.Text c := by
      intro c hc
      have hlevels := levels_content hc
      exact ih c (mem_children_of_content hc) (by omega)
    have hmembers : ∀ rules ∈ r.members,
        (Reader.list (readers n).2).Reads (ListText (rules.map Text)) rules := by
      intro rules hrules
      have hlevels := levels_members hrules
      -- The list is a level of its own, so one more is left for what stands in it.
      obtain ⟨m, rfl⟩ := Nat.exists_eq_add_of_le' (show 1 ≤ n by omega)
      refine Reader.Reads.list ?_
      rw [List.forall₂_map_left_iff, List.forall₂_same]
      intro c hc
      have hle := levels_le_listLevels hc
      exact ⟨ih c (mem_children_of_members hrules hc) (by omega),
        (avoids_text c).mono (by decide)⟩
    rw [reader_succ, text_eq, ← stage_nil r]
    exact Reader.Reads.record _ (spells_fields n hcontent hmembers) hnames fun _ => stage_eq

/-- Decoding is faithful to every spelling of a rule that does not nest too deeply, and there is one
if 32 bits hold its numbers. -/
theorem ofText_spelled {r : Rule} (hlevels : r.levels ≤ maxLevels) :
    (∀ b t b', Blank b → r.Text t → Blank b' →
      ofText (String.ofList (b ++ (t ++ b'))) = .ok r) ∧
    ((∀ c ∈ r.nodes, ∀ n, c.label.value = some (.number n) →
      -2147483648 ≤ n ∧ n ≤ 2147483647) → ∃ t, r.Text t) := by
  refine ⟨fun b t b' hb ht hb' => ?_, exists_text⟩
  have hrest : Ends b' := by
    have := ends_append hb' ends_nil
    rwa [List.append_nil] at this
  unfold ofText Reader.readAll
  dsimp only
  rw [String.toList_ofList, reads_text hlevels b t b' hb ht hrest, Attempt.ok_bind]
  dsimp only
  rw [skipBlanks_blank hb']
  rfl

/--
The entries stand in other orders. One is `null`, one is unknown and holds half of a surrogate pair,
and one is escaped.
-/
theorem ofText_spelled_reordered :
    let symbol := node { Label.ofKind .symbol with name := some "é" } none none
    let seq := node (.ofKind .seq) (some [symbol, node (.ofKind .blank) none none]) none
    let r := node { Label.ofKind .prec with value := some (.number (-1)) } none (some seq)
    let text := ("\x7b\"content\":\x7b\"members\":[\x7b\"x\":[\"\\ud800\"],\"name\":\"\\u00E9\"," ++
      "\"type\":\"SYMBOL\"\x7d,\x7b\"type\":\"BLANK\"\x7d],\"type\":\"SEQ\"\x7d,\"value\":-1," ++
      "\"flags\":null,\"type\":\"PREC\"\x7d").toList
    r.levels ≤ maxLevels ∧ Blank [' '] ∧ r.Text text ∧ Blank ['\n'] ∧
      ofText (String.ofList ([' '] ++ (text ++ ['\n']))) = .ok r := by
  intro symbol seq r text
  have hx : ValueText "[\"\\ud800\"]".toList := by
    have hhalf : UnitText 0xD800 ['\\', 'u', 'd', '8', '0', '0'] :=
      ⟨'d', '8', '0', '0', ⟨by decide, by decide⟩, ⟨by decide, by decide⟩,
        ⟨by decide, by decide⟩, ⟨by decide, by decide⟩, rfl⟩
    refine ⟨.list [.token], ?_⟩
    rw [Shape.Text, Shape.texts, Shape.Text, Shape.texts]
    exact ⟨_, .first blank_nil (.string ⟨_, .cons (.unit hhalf) .nil, rfl⟩) (.done blank_nil), rfl⟩
  have hname : StringText "é" "\"\\u00E9\"".toList := by
    have hunit : UnitText 'é'.toNat ['\\', 'u', '0', '0', 'E', '9'] :=
      ⟨'0', '0', 'E', '9', ⟨by decide, by decide⟩, ⟨by decide, by decide⟩,
        ⟨by decide, by decide⟩, ⟨by decide, by decide⟩, rfl⟩
    exact ⟨_, .cons (.unit hunit) .nil, rfl⟩
  have hsymbol : symbol.Text
      "\x7b\"x\":[\"\\ud800\"],\"name\":\"\\u00E9\",\"type\":\"SYMBOL\"\x7d".toList := by
    rw [text_eq]
    refine recordText_of_perm [("x", ValueText)]
      [("x", ValueText), ("name", StringText "é"), ("type", StringText "SYMBOL")] (by simp [parts])
      ?_ ?_
    · exact (List.perm_append_singleton _ _).symm.trans (.append_right _ (.swap _ _ []))
    · exact ⟨_, .first blank_nil (keyedText_bare (by decide) hx) <|
        .next blank_nil blank_nil (keyedText_bare (by decide) hname) <|
        .next blank_nil blank_nil (keyedText_bare (by decide) (stringText_bare (by decide))) <|
        .done blank_nil, by simp⟩
  have hblank : (node (.ofKind .blank) none none).Text "\x7b\"type\":\"BLANK\"\x7d".toList := by
    rw [text_eq]
    refine recordText_of_perm [] [("type", StringText "BLANK")] nofun (.refl _) ?_
    exact ⟨_, .first blank_nil (keyedText_bare (by decide) (stringText_bare (by decide))) <|
      .done blank_nil, by simp⟩
  have hseq : seq.Text ("\x7b\"members\":[\x7b\"x\":[\"\\ud800\"],\"name\":\"\\u00E9\"," ++
      "\"type\":\"SYMBOL\"\x7d,\x7b\"type\":\"BLANK\"\x7d],\"type\":\"SEQ\"\x7d").toList := by
    have hmembers := Items.first blank_nil hsymbol <| .next blank_nil blank_nil hblank <|
      .done blank_nil
    rw [text_eq]
    refine recordText_of_perm [] [("members", ListText _), ("type", StringText "SEQ")] nofun
      (.swap _ _ []) ?_
    exact ⟨_, .first blank_nil (keyedText_bare (by decide) ⟨_, hmembers, rfl⟩) <|
      .next blank_nil blank_nil (keyedText_bare (by decide) (stringText_bare (by decide))) <|
      .done blank_nil, by simp⟩
  have htext : r.Text text := by
    have hvalue : Value.Text (.number (-1)) "-1".toList := ⟨by decide, by decide, rfl⟩
    rw [text_eq]
    refine ⟨[("type", StringText "PREC"), ("value", Value.Text (.number (-1))),
        ("content", seq.Text), ("flags", NullText)], [],
      [("content", seq.Text), ("value", Value.Text (.number (-1))), ("flags", NullText),
        ("type", StringText "PREC")], ?_, ?_, nofun, ?_, ?_⟩
    · exact .cons_cons _ <| .cons_cons _ <| .cons _ <| .cons_cons _ <| .cons _ <| .cons _ <|
        .cons_cons _ <| .cons _ .slnil
    · intro name T h
      simp only [r, parts, Label.ofKind, label, kind, content, members, Option.map_none,
        Option.map_some, List.mem_cons, Prod.mk.injEq, reduceCtorEq, and_false, false_or,
        or_false, Option.some.injEq, List.not_mem_nil] at h
      rcases h with ⟨rfl, rfl⟩ | ⟨rfl, rfl⟩ | ⟨rfl, rfl⟩
      · exact .head _
      · exact .tail _ (.head _)
      · exact .tail _ (.tail _ (.head _))
    · exact (List.reverse_perm _).symm.trans (.cons _ (List.perm_append_singleton _ _).symm)
    · exact ⟨_, .first blank_nil (keyedText_bare (by decide) hseq) <|
        .next blank_nil blank_nil (keyedText_bare (by decide) hvalue) <|
        .next blank_nil blank_nil (keyedText_bare (by decide) rfl) <|
        .next blank_nil blank_nil (keyedText_bare (by decide) (stringText_bare (by decide))) <|
        .done blank_nil, by simp [text]⟩
  have hlevels : r.levels ≤ maxLevels := by decide
  have hfront : Blank [' '] := by decide
  have hback : Blank ['\n'] := by decide
  exact ⟨hlevels, hfront, htext, hback, (ofText_spelled hlevels).1 _ _ _ hfront htext hback⟩

end GrammarLoader.Rule
