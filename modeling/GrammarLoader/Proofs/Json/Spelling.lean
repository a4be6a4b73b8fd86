import GrammarLoader.Json.Failure

/-! How values are spelled in JSON. A value has many spellings: blanks may stand between any two
pieces, characters of strings may be escaped, and the entries of a record stand in any order. Each
kind of value has a predicate that holds of its spellings and says nothing of how they are read. -/

namespace GrammarLoader.Json

abbrev Spelling := List Char → Prop

/-- Only blanks. -/
def Blank (t : List Char) : Prop := ∀ c ∈ t, c ∈ [' ', '\n', '\t', '\r']

instance : DecidablePred Blank := fun t => List.decidableBAll _ t

theorem blank_nil : Blank [] := fun _ h => absurd h List.not_mem_nil

section Strings

def shortEscapes : List (Char × Char) :=
  [('"', '"'), ('\\', '\\'), ('/', '/'), ('b', '\x08'), ('f', '\x0c'), ('n', '\n'), ('r', '\r'),
    ('t', '\t')]

def HexDigit (d : Nat) (c : Char) : Prop := d < 16 ∧ (c = d.digitChar ∨ c = d.digitChar.toUpper)

def UnitText (n : Nat) : Spelling := fun t =>
  ∃ a b c d, HexDigit (n / 4096) a ∧ HexDigit (n / 256 % 16) b ∧ HexDigit (n / 16 % 16) c ∧
    HexDigit (n % 16) d ∧ t = ['\\', 'u', a, b, c, d]

/-- A character of a string: as it is, or escaped in one of three ways. -/
inductive CharText (c : Char) : Spelling
  | plain (hc : ' ' ≤ c) (hquote : c ≠ '"') (hslash : c ≠ '\\') : CharText c [c]
  | short {e : Char} (h : (e, c) ∈ shortEscapes) : CharText c ['\\', e]
  | unit {t : List Char} (h : UnitText c.toNat t) : CharText c t
  /-- The two halves of a surrogate pair. -/
  | pair {t u : List Char} (hc : 0x10000 ≤ c.toNat)
      (ht : UnitText (0xD800 + (c.toNat - 0x10000) / 0x400) t)
      (hu : UnitText (0xDC00 + (c.toNat - 0x10000) % 0x400) u) : CharText c (t ++ u)

inductive BodyText : List Char → Spelling
  | nil : BodyText [] []
  | cons {c : Char} {cs t u : List Char} (ht : CharText c t) (hu : BodyText cs u) :
      BodyText (c :: cs) (t ++ u)

def StringText (s : String) : Spelling := fun t =>
  ∃ u, BodyText s.toList u ∧ t = '"' :: (u ++ ['"'])

end Strings

def NullText : Spelling := (· = ['n', 'u', 'l', 'l'])

def BoolText : Bool → Spelling
  | true => (· = ['t', 'r', 'u', 'e'])
  | false => (· = ['f', 'a', 'l', 's', 'e'])

/-- An integer in decimal. Zero has no sign, since `-0` is not the text of an integer. -/
def IntText (n : Int) : Spelling := (· = (toString n).toList)

section Containers

/--
The items between two brackets, separated by commas and with blanks around them. `first` says
whether nothing stands before them.
-/
inductive Items : (first : Bool) → List Spelling → Spelling
  | done {first : Bool} {b : List Char} (hb : Blank b) : Items first [] b
  | first {T : Spelling} {Ts : List Spelling} {b t v : List Char} (hb : Blank b) (ht : T t)
      (hv : Items false Ts v) : Items true (T :: Ts) (b ++ (t ++ v))
  | next {T : Spelling} {Ts : List Spelling} {b b' t v : List Char} (hb : Blank b) (hb' : Blank b')
      (ht : T t) (hv : Items false Ts v) : Items false (T :: Ts) (b ++ ',' :: (b' ++ (t ++ v)))

def ListText (elements : List Spelling) : Spelling := fun t =>
  ∃ v, Items true elements v ∧ t = '[' :: (v ++ [']'])

def EntryText (key value : Spelling) : Spelling := fun t =>
  ∃ k b b' v, key k ∧ Blank b ∧ Blank b' ∧ value v ∧ t = k ++ (b ++ ':' :: (b' ++ v))

def KeyedText (entry : String × Spelling) : Spelling := EntryText (StringText entry.1) entry.2

def MapText (entries : List Spelling) : Spelling := fun t =>
  ∃ v, Items true entries v ∧ t = '\x7b' :: (v ++ ['\x7d'])

end Containers

section Anything

def Digits (t : List Char) : Prop := t ≠ [] ∧ ∀ c ∈ t, c.isDigit = true

inductive FractionText : Spelling
  | none : FractionText []
  | some {t : List Char} (ht : Digits t) : FractionText ('.' :: t)

inductive ExponentText : Spelling
  | none : ExponentText []
  | some {e : Char} {sign t : List Char} (he : e = 'e' ∨ e = 'E')
      (hsign : sign ∈ [[], ['+'], ['-']]) (ht : Digits t) : ExponentText (e :: (sign ++ t))

/-- Any number. Only a whole part of a single digit begins with a zero. -/
inductive NumberText : Spelling
  | number {sign whole fraction exponent : List Char} (hsign : sign ∈ [[], ['-']])
      (hwhole : Digits whole) (hzero : whole = ['0'] ∨ whole.head? ≠ some '0')
      (hfraction : FractionText fraction) (hexponent : ExponentText exponent) :
      NumberText (sign ++ (whole ++ (fraction ++ exponent)))

inductive AnyCharText : Spelling
  | plain {c : Char} (hc : ' ' ≤ c) (hquote : c ≠ '"') (hslash : c ≠ '\\') : AnyCharText [c]
  | short {e c : Char} (h : (e, c) ∈ shortEscapes) : AnyCharText ['\\', e]
  | unit {n : Nat} {t : List Char} (h : UnitText n t) : AnyCharText t

inductive AnyBodyText : Spelling
  | nil : AnyBodyText []
  | cons {t u : List Char} (ht : AnyCharText t) (hu : AnyBodyText u) : AnyBodyText (t ++ u)

/-- Any string, also one with halves of surrogate pairs that stand alone. -/
def AnyStringText : Spelling := fun t => ∃ u, AnyBodyText u ∧ t = '"' :: (u ++ ['"'])

inductive TokenText : Spelling
  | null {t : List Char} (h : NullText t) : TokenText t
  | bool {b : Bool} {t : List Char} (h : BoolText b t) : TokenText t
  | number {t : List Char} (h : NumberText t) : TokenText t
  | string {t : List Char} (h : AnyStringText t) : TokenText t

/-- How the containers of a value lie inside one another. -/
inductive Shape
  | token
  | list (elements : List Shape)
  | map (values : List Shape)

mutual

def Shape.Text : Shape → Spelling
  | token => TokenText
  | list elements => ListText (texts elements)
  | map values => MapText ((texts values).map (EntryText AnyStringText))

def Shape.texts : List Shape → List Spelling
  | [] => []
  | s :: shapes => s.Text :: texts shapes

end

def ValueText : Spelling := fun t => ∃ s : Shape, s.Text t

end Anything

/--
A record, by the names and the spellings of its fields. Those it has stand in the map in any order;
those it has not are left out or `null`. Under other names there may be any values.
-/
def RecordText (parts : List (String × Option Spelling)) : Spelling := fun t =>
  ∃ known others entries : List (String × Spelling),
    known.Sublist (parts.map fun (name, part) => (name, part.getD NullText)) ∧
    (∀ name T, (name, some T) ∈ parts → (name, T) ∈ known) ∧
    (∀ entry ∈ others, entry.1 ∉ parts.map Prod.fst ∧ entry.2 = ValueText) ∧
    entries.Perm (known ++ others) ∧
    MapText (entries.map KeyedText) t

section Existence

theorem exists_unitText {n : Nat} (hn : n < 0x10000) : ∃ t, UnitText n t := by
  have hdigit (d : Nat) (hd : d < 16) : HexDigit d d.digitChar := ⟨hd, .inl rfl⟩
  exact ⟨_, _, _, _, _, hdigit _ (by omega), hdigit _ (by omega), hdigit _ (by omega),
    hdigit _ (by omega), rfl⟩

def Bare (cs : List Char) : Prop := ∀ c ∈ cs, ' ' ≤ c ∧ c ≠ '"' ∧ c ≠ '\\'

instance : DecidablePred Bare := fun cs => List.decidableBAll _ cs

theorem bodyText_bare {cs : List Char} (h : Bare cs) : BodyText cs cs := by
  induction cs with
  | nil => exact .nil
  | cons c cs ih =>
    obtain ⟨⟨hc, hquote, hslash⟩, hcs⟩ := List.forall_mem_cons.1 h
    exact .cons (.plain hc hquote hslash) (ih hcs)

theorem stringText_bare {s : String} (h : Bare s.toList) :
    StringText s ('"' :: (s.toList ++ ['"'])) := ⟨_, bodyText_bare h, rfl⟩

theorem exists_charText (c : Char) : ∃ t, CharText c t := by
  by_cases hc : ' ' ≤ c ∧ c ≠ '"' ∧ c ≠ '\\'
  · exact ⟨_, .plain hc.1 hc.2.1 hc.2.2⟩
  · have hlt : c.toNat < 0x10000 := by
      simp only [Classical.not_and_iff_not_or_not, Classical.not_not] at hc
      rcases hc with hc | rfl | rfl
      · exact Nat.lt_trans (Char.not_le.1 hc) (by decide)
      · decide
      · decide
    obtain ⟨t, ht⟩ := exists_unitText hlt
    exact ⟨t, .unit ht⟩

theorem exists_stringText (s : String) : ∃ t, StringText s t := by
  have hbody : ∀ cs, ∃ u, BodyText cs u := by
    intro cs
    induction cs with
    | nil => exact ⟨_, .nil⟩
    | cons c cs ih =>
      obtain ⟨t, ht⟩ := exists_charText c
      obtain ⟨u, hu⟩ := ih
      exact ⟨_, .cons ht hu⟩
  obtain ⟨u, hu⟩ := hbody s.toList
  exact ⟨_, u, hu, rfl⟩

theorem exists_items {Ts : List Spelling} (h : ∀ T ∈ Ts, ∃ t, T t) (first : Bool) :
    ∃ v, Items first Ts v := by
  induction Ts generalizing first with
  | nil => exact ⟨_, .done blank_nil⟩
  | cons T Ts ih =>
    obtain ⟨⟨t, ht⟩, hTs⟩ := List.forall_mem_cons.1 h
    obtain ⟨v, hv⟩ := ih hTs false
    cases first with
    | true => exact ⟨_, .first blank_nil ht hv⟩
    | false => exact ⟨_, .next blank_nil blank_nil ht hv⟩

theorem exists_listText {Ts : List Spelling} (h : ∀ T ∈ Ts, ∃ t, T t) : ∃ t, ListText Ts t := by
  obtain ⟨v, hv⟩ := exists_items h true
  exact ⟨_, v, hv, rfl⟩

/-- A record may be spelled with the entries it has in any order and none besides. -/
theorem recordText_of_perm {parts : List (String × Option Spelling)}
    (others entries : List (String × Spelling))
    (hothers : ∀ e ∈ others, e.1 ∉ parts.map Prod.fst ∧ e.2 = ValueText)
    (hperm : entries.Perm (parts.filterMap (fun part => part.2.map (part.1, ·)) ++ others))
    {t : List Char} (ht : MapText (entries.map KeyedText) t) : RecordText parts t := by
  refine ⟨_, others, entries, ?_, ?_, hothers, hperm, ht⟩
  · clear ht hperm hothers
    induction parts with
    | nil => exact .slnil
    | cons part parts ih =>
      obtain ⟨name, part⟩ := part
      cases part with
      | none => exact .cons _ ih
      | some T => exact .cons_cons _ ih
  · intro name T h
    exact List.mem_filterMap.2 ⟨_, h, rfl⟩

theorem keyedText_bare {name : String} {T : Spelling} {t : List Char} (hname : Bare name.toList)
    (ht : T t) :
    KeyedText (name, T) ('"' :: (name.toList ++ ['"']) ++ ([] ++ ':' :: ([] ++ t))) :=
  ⟨_, [], [], _, stringText_bare hname, blank_nil, blank_nil, ht, rfl⟩

theorem exists_recordText {parts : List (String × Option Spelling)}
    (h : ∀ part ∈ parts, ∀ T ∈ part.2, ∃ t, T t) : ∃ t, RecordText parts t := by
  have hentries : ∀ T ∈ (parts.filterMap (fun part => part.2.map (part.1, ·))).map KeyedText,
      ∃ t, T t := by
    intro T hT
    obtain ⟨e, he, rfl⟩ := List.mem_map.1 hT
    obtain ⟨⟨name, part⟩, hpart, he⟩ := List.mem_filterMap.1 he
    obtain ⟨T, rfl, rfl⟩ := Option.map_eq_some_iff.1 he
    obtain ⟨k, hk⟩ := exists_stringText name
    obtain ⟨v, hv⟩ := h (name, some T) hpart T rfl
    exact ⟨_, k, [], [], v, hk, blank_nil, blank_nil, hv, rfl⟩
  obtain ⟨v, hv⟩ := exists_items hentries true
  exact ⟨_, recordText_of_perm [] _ nofun (by rw [List.append_nil]) ⟨v, hv, rfl⟩⟩

end Existence

end GrammarLoader.Json
