import GrammarLoader.Language.Load
import GrammarLoader.Proofs.Json.Messages

/-! The message for a grammar that cannot be read. It ends with the place, and is a single plain
line unless it names a kind of rules or precedences that there is not: that name was written in the
text, perhaps by escapes, and the message repeats the characters they stand for. -/

namespace GrammarLoader

open Json Text

namespace Rule

theorem plain_kindName (kind : Kind) : Plain kind.name := by
  cases kind <;> decide

theorem tidy_kindReader (deeper : Bool) : (Kind.reader deeper).Tidy :=
  .enumerated (plain_oneOf (List.forall_mem_map.2 fun kind _ => plain_kindName kind))
    Kind.ofName? deeper

theorem tidy_valueReader (levels : Nat) : (Value.reader levels).Tidy := by
  refine (Json.Value.tidy_reader levels).accept ?_ fun _ _ => rfl
  intro v reason hreason
  unfold Value.ofJson at hreason
  have htype : Reason.Tidy (.noVariant "RuleValue") := by
    change Plain _
    decide
  split at hreason
  · cases hreason
  · split at hreason
    · cases hreason
    · rwa [← Except.error.inj hreason]
  · rwa [← Except.error.inj hreason]

theorem tidy_fields (levels : Nat) {content : Reader Rule} {member : Option (Reader Rule)}
    (hcontent : content.Tidy) (hmember : ∀ r ∈ member, r.Tidy) :
    ∀ f ∈ fields levels content member, f.Tidy := by
  simp only [fields, List.forall_mem_cons]
  refine ⟨.needed (by decide) (tidy_kindReader _) _, .optional (by decide) (tidy_valueReader _) _,
    .optional (by decide) .string _, .optional (by decide) hcontent _,
    .optional (by decide) (.list hmember) _, .optional (by decide) .bool _,
    .optional (by decide) .string _, .optional (by decide) .string _, ?_⟩
  exact fun _ h => absurd h List.not_mem_nil

theorem tidy_readers (levels : Nat) :
    (readers levels).1.Tidy ∧ ∀ r ∈ (readers levels).2, r.Tidy := by
  have htype : Plain "struct Rule" := by decide
  induction levels with
  | zero => exact ⟨.record htype (fun _ h => by cases h) start, nofun⟩
  | succ n ih =>
    obtain ⟨hcontent, hmember⟩ := ih
    refine ⟨.record htype (fun fs hfs => ?_) start, fun r hr => ?_⟩
    · rw [← Option.some.inj hfs]
      exact tidy_fields n hcontent hmember
    · rwa [← Option.some.inj hr]

theorem tidy_reader (levels : Nat) : (reader levels).Tidy := (tidy_readers levels).1

end Rule

namespace Precedence

theorem tidy_kindReader : Kind.reader.Tidy := by
  refine (Reader.Tidy.stringAs (by decide)).accept (fun name reason hreason => ?_) fun _ _ => rfl
  unfold chooseName at hreason
  split at hreason
  · cases hreason
  · rw [← Except.error.inj hreason]
    change Plain _
    decide

theorem plain_field (kind : Kind) : Plain kind.field ∧ Plain kind.typeName := by
  cases kind <;> exact ⟨by decide, by decide⟩

theorem tidy_of_textOf {v : Value} {reason : Reason} (h : textOf v = .error reason) :
    reason.Tidy := by
  unfold textOf at h
  split at h
  · cases h
  · rw [← Except.error.inj h]
    change Plain _
    decide

theorem tidy_of_fieldOf {field : String} (hfield : Plain field) {found : Option String}
    {entries : List (String × Value)} {reason : Reason}
    (h : fieldOf field found entries = .error reason) : reason.Tidy := by
  induction entries generalizing found with
  | nil =>
    unfold fieldOf at h
    split at h
    · cases h
    · rw [← Except.error.inj h]
      exact hfield
  | cons entry entries ih =>
    obtain ⟨key, v⟩ := entry
    rw [fieldOf] at h
    split at h
    · exact ih h
    · split at h
      · rw [← Except.error.inj h]
        exact hfield
      · cases hv : textOf v with
        | error reason' =>
          rw [hv] at h
          rw [← Except.error.inj h]
          exact tidy_of_textOf hv
        | ok text =>
          rw [hv] at h
          exact ih h

theorem tidy_of_elementOf {type : String} (htype : Plain type) {elements : List Value}
    {reason : Reason} (h : elementOf type elements = .error reason) : reason.Tidy := by
  cases elements with
  | nil =>
    rw [← Except.error.inj h]
    exact htype.append (by decide)
  | cons v rest =>
    rw [elementOf] at h
    cases hv : textOf v with
    | error reason' =>
      rw [hv] at h
      rw [← Except.error.inj h]
      exact tidy_of_textOf hv
    | ok text =>
      rw [hv] at h
      change (if rest.isEmpty then Except.ok text else _) = _ at h
      split at h
      · cases h
      · rw [← Except.error.inj h]
        change Plain _
        decide

theorem tidy_of_ofRest {kind : Kind} {rest : Rest} {reason : Reason}
    (h : ofRest kind rest = .error reason) : reason.Tidy := by
  cases rest with
  | list elements =>
    unfold ofRest at h
    dsimp only at h
    cases he : elementOf kind.typeName elements with
    | error reason' =>
      rw [he] at h
      rw [← Except.error.inj h]
      exact tidy_of_elementOf (plain_field kind).2 he
    | ok text =>
      rw [he] at h
      cases h
  | map entries =>
    unfold ofRest at h
    dsimp only at h
    cases he : fieldOf kind.field none entries with
    | error reason' =>
      rw [he] at h
      rw [← Except.error.inj h]
      exact tidy_of_fieldOf (plain_field kind).1 he
    | ok text =>
      rw [he] at h
      cases h

theorem tidy_of_withKind {α : Type} {rest : α → Rest} {read : Option Kind × α} {reason : Reason}
    (h : withKind rest read = .error reason) : reason.Tidy := by
  obtain ⟨_ | kind, found⟩ := read
  · rw [← Except.error.inj h]
    change Plain _
    decide
  · cases h

theorem tidy_listBody {value : Reader Value} (h : value.Tidy) : (listBody value).Tidy := by
  unfold listBody
  refine .accept (.elements (P := fun _ => True) ?_ trivial) fun _ _ => tidy_of_withKind
  rintro ⟨_ | kind, found⟩ r - hr
  · rw [← Option.some.inj hr]
    exact tidy_kindReader.gives_map fun _ => trivial
  · rw [← Option.some.inj hr]
    exact h.gives_map fun _ => trivial

theorem tidy_mapBody {value : Reader Value} (h : value.Tidy) : (mapBody value).Tidy := by
  unfold mapBody
  refine .accept (.entries ?_ ?_ _) fun _ _ => tidy_of_withKind
  · rintro ⟨kind, found⟩ key r hr
    dsimp only at hr
    split at hr
    · rw [← Except.ok.inj hr]
      exact h.map _
    · split at hr
      · cases hr
      · rw [← Except.ok.inj hr]
        exact tidy_kindReader.map _
  · rintro ⟨kind, found⟩ key reason hreason
    dsimp only at hreason
    split at hreason
    · cases hreason
    · split at hreason
      · rw [← Except.error.inj hreason]
        change Plain _
        decide
      · cases hreason

theorem tidy_reader {value : Reader Value} (h : value.Tidy) : (reader (some value)).Tidy := by
  unfold reader
  refine (Reader.Tidy.container (.ofOption fun body hbody => ?_) (.ofOption fun body hbody => ?_)
    (.refuse (by decide))).accept (fun _ _ => tidy_of_ofRest) fun _ _ => rfl
  · rw [← Option.some.inj hbody]
    exact tidy_listBody h
  · rw [← Option.some.inj hbody]
    exact tidy_mapBody h

end Precedence

namespace Grammar

theorem tidy_some {α : Type} {r : Reader α} (h : r.Tidy) : ∀ r' ∈ some r, r'.Tidy := by
  rintro _ ⟨⟩
  exact h

theorem tidy_ruleList : ruleList.Tidy := .list (tidy_some (Rule.tidy_reader _))

theorem tidy_nameList : nameList.Tidy := .list (tidy_some .string)

theorem tidy_fields : ∀ f ∈ fields, f.Tidy := by
  have hprecedence := Precedence.tidy_reader (Value.tidy_reader (levels - 3))
  simp only [fields, List.forall_mem_cons]
  refine ⟨.optional (by decide) .string _, .needed (by decide) .string _,
    .optional (by decide) .string _,
    .needed (by decide) (.dictionary (tidy_some (Rule.tidy_reader _))) _,
    .optional (by decide) tidy_ruleList _, .optional (by decide) tidy_ruleList _,
    .optional (by decide) tidy_nameList _,
    .optional (by decide) (.list (tidy_some (.list (tidy_some hprecedence)))) _,
    .optional (by decide) (.list (tidy_some tidy_nameList)) _,
    .optional (by decide) (.dictionary (tidy_some (.list (tidy_some (Rule.tidy_reader _))))) _,
    .optional (by decide) .string _, .optional (by decide) tidy_nameList _, ?_⟩
  exact fun _ h => absurd h List.not_mem_nil

theorem tidy_reader : reader.Tidy := .record (by decide) (by rintro _ ⟨⟩; exact tidy_fields) start

theorem message_unreadable (e : ReadError) :
    (Malformation.unreadable e).message =
      "JSON parse error: " ++ e.reason.message ++ " at line " ++ toString e.place.line ++
        " column " ++ toString e.place.column := by
  unfold Malformation.message ReadError.message
  dsimp only
  rw [String.append_assoc, String.append_assoc, String.append_assoc, String.append_assoc]
  rw [String.append_assoc, String.append_assoc, String.append_assoc]

theorem plain_message_unreadable {e : ReadError} :
    Plain (Malformation.unreadable e).message ↔ Plain e.reason.message := by
  rw [message_unreadable]
  constructor
  · intro h
    have hwhat := (plain_append.1 (plain_append.1 (plain_append.1 (plain_append.1 h).1).1).1).1
    exact (plain_append.1 hwhat).2
  · intro h
    have hwhat : Plain ("JSON parse error: " ++ e.reason.message) := .append (by decide) h
    have hline := (hwhat.append (t := " at line ") (by decide)).append (plain_nat e.place.line)
    exact (hline.append (t := " column ") (by decide)).append (plain_nat e.place.column)

/-- The message for a text that cannot be read ends with the place, which lies on one of the lines
of the text. It is a single plain line, unless it names an unknown variant whose name is none. -/
theorem ofText_message {text : String} {e : ReadError} (h : ofText text = .error e) :
    (∃ what, (Malformation.unreadable e).message =
      what ++ " at line " ++ toString e.place.line ++ " column " ++ toString e.place.column) ∧
    1 ≤ e.place.line ∧ e.place.line ≤ 1 + text.toList.count '\n' ∧
    (Plain (Malformation.unreadable e).message ↔
      ∀ name variants, e.reason = .unknownVariant name variants → Plain name) := by
  obtain ⟨htidy, offset, hplace⟩ := tidy_reader.toError_readAll h
  obtain ⟨hfirst, hlast⟩ := Place.line_walk ⟨1, 0⟩ offset text.toList
  refine ⟨⟨_, message_unreadable e⟩, ?_, ?_, ?_⟩
  · rw [hplace]
    exact hfirst
  · rw [hplace]
    exact hlast
  · rw [plain_message_unreadable, Reason.plain_message_iff htidy]

/-- A definition on two lines. What stands for a list of names holds an escape, which is quoted. -/
def misplaced : String := "\x7b\"inline\":\n\"\\u001b\"\x7d"

theorem ofText_message_misplaced :
    ∃ e, ofText misplaced = .error e ∧ 1 ≤ e.place.line ∧ e.place.line ≤ 2 ∧
      Plain (Malformation.unreadable e).message := by
  have h : ofText misplaced =
      .error ⟨.invalidType (.scalar (.string "\x1b")) "a sequence", ⟨2, 8⟩⟩ := by
    with_unfolding_all rfl
  have hlines : 1 + misplaced.toList.count '\n' = 2 := by decide
  obtain ⟨-, hfirst, hlast, hplain⟩ := ofText_message h
  rw [hlines] at hlast
  refine ⟨_, h, hfirst, hlast, hplain.2 ?_⟩
  intro name variants heq
  cases heq

def ofKind (name : String) : String :=
  "\x7b\"name\":\"t\",\"rules\":\x7b\"x\":\x7b\"type\":\"" ++ name ++ "\"\x7d\x7d\x7d"

/-- An escaped line break in the name of a kind breaks the message into two lines. -/
theorem ofText_message_broken :
    ∃ e, ofText (ofKind "A\\nB") = .error e ∧
      '\n' ∈ (Malformation.unreadable e).message.toList := by
  refine ⟨⟨.unknownVariant "A\nB" (Rule.Kind.all.map Rule.Kind.name), ⟨1, 39⟩⟩, ?_, ?_⟩
  · with_unfolding_all rfl
  · have hname : '\n' ∈ (Reason.unknownVariant "A\nB"
        (Rule.Kind.all.map Rule.Kind.name)).message.toList := by
      unfold Reason.message
      simp only [String.toList_append, List.mem_append]
      exact .inl (.inl (.inr (by decide)))
    rw [message_unreadable]
    simp only [String.toList_append, List.mem_append]
    exact .inl (.inl (.inl (.inl (.inr hname))))

end Grammar

end GrammarLoader
