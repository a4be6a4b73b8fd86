import GrammarLoader.Proofs.Validation.Accepted

/-!
All violations of a grammar in one list, node by node and name by name. Validation looks for them in
passes that stop at the first one, and finds the head of the list: it fails with that one whenever
there is any, and otherwise only for a finding.
-/

namespace GrammarLoader

namespace Rule

mutual

/-- A node, then the nodes of its members and of its content, whatever its kind. -/
def preorder : Rule → List Rule
  | node label members content =>
    node label members content :: (preorderMembers members ++ preorderContent content)

def preorderMembers : Option (List Rule) → List Rule
  | none => []
  | some rules => preorderAll rules

def preorderContent : Option Rule → List Rule
  | none => []
  | some r => preorder r

def preorderAll : List Rule → List Rule
  | [] => []
  | r :: rules => preorder r ++ preorderAll rules

end

theorem preorderAll_eq (rules : List Rule) : preorderAll rules = rules.flatMap preorder := by
  induction rules with
  | nil => rfl
  | cons r rules ih => rw [preorderAll, ih, List.flatMap_cons]

theorem preorder_eq (r : Rule) : r.preorder = r :: r.children.flatMap preorder := by
  cases r with
  | node label members content =>
    rw [preorder, children, List.flatMap_append]
    cases members <;> cases content <;>
      simp [preorderMembers, preorderContent, preorderAll_eq]

theorem nodes_eq_preorder (r : Rule) : r.nodes = r.preorder := by
  induction r using induction with
  | step r ih => rw [nodes_eq, preorder_eq, List.flatMap_congr ih]

def holdsText (r : Rule) : Bool :=
  match r.label.value with
  | some (.text _) => true
  | _ => false

def holdsNumber (r : Rule) : Bool :=
  match r.label.value with
  | some (.number _) => true
  | _ => false

def lack (what : String) (present : Prop) [Decidable present] : Option String :=
  if present then none else some what

/-- The first thing that the topmost node lacks, kind by kind. -/
def firstLack (r : Rule) : Option String :=
  let noName := lack "name" (r.label.name.getD "" ≠ "")
  let noContent := lack "content" r.content.isSome
  match r.kind with
  | .blank => none
  | .string | .pattern => lack "string value" r.holdsText
  | .symbol => noName
  | .choice | .seq => lack "members" (0 < (r.members.getD []).length)
  | .repeat0 | .repeat1 | .token | .immediateToken => noContent
  | .prec | .precLeft | .precRight =>
    noContent <|> lack "precedence value" r.label.value.isSome
  | .precDynamic => noContent <|> lack "integer precedence value" r.holdsNumber
  | .field => noName <|> noContent
  | .aliased => lack "alias value" r.holdsText <|> noContent
  | .reserved => lack "context name" r.label.contextName.isSome <|> noContent

/-- What is said of a part, if it is not there. -/
def missing (r : Rule) (part : Part) : Option String := lack part.describe (part.presentIn r)

theorem describe_find?_one (r : Rule) (part : Part) :
    ([part].find? (!·.presentIn r)).map Part.describe = r.missing part := by
  cases h : part.presentIn r <;> simp [missing, lack, h]

theorem describe_find?_two (r : Rule) (first second : Part) :
    ([first, second].find? (!·.presentIn r)).map Part.describe =
      (r.missing first <|> r.missing second) := by
  cases h₁ : first.presentIn r <;> cases h₂ : second.presentIn r <;>
    simp [missing, lack, h₁, h₂]

theorem lack_congr {what : String} {p q : Prop} [Decidable p] [Decidable q] (h : p ↔ q) :
    lack what p = lack what q := by
  simp [lack, h]

theorem missing_name (r : Rule) : r.missing .name = lack "name" (r.label.name.getD "" ≠ "") := by
  refine lack_congr ?_
  cases h : r.label.name <;> simp [Part.presentIn, h]

theorem missing_members (r : Rule) :
    r.missing .members = lack "members" (0 < (r.members.getD []).length) := by
  refine lack_congr ?_
  cases h : r.members <;> simp [Part.presentIn, h, List.length_pos_iff]

theorem isSome_textValue (r : Rule) : r.textValue.isSome = r.holdsText := by
  unfold textValue holdsText
  cases r.label.value with
  | none => rfl
  | some value => cases value <;> rfl

theorem missing_stringValue (r : Rule) :
    r.missing .stringValue = lack "string value" r.holdsText := by
  rw [missing, ← isSome_textValue]
  rfl

theorem missing_aliasValue (r : Rule) : r.missing .aliasValue = lack "alias value" r.holdsText := by
  rw [missing, ← isSome_textValue]
  rfl

theorem missingPart?_eq_firstLack (r : Rule) : r.missingPart?.map Part.describe = r.firstLack := by
  unfold missingPart? firstLack
  cases r.kind with
  | blank => rfl
  | string | pattern => exact (describe_find?_one r _).trans r.missing_stringValue
  | repeat0 | repeat1 | token | immediateToken => exact describe_find?_one r _
  | symbol => exact (describe_find?_one r _).trans r.missing_name
  | choice | seq => exact (describe_find?_one r _).trans r.missing_members
  | prec | precLeft | precRight | precDynamic | reserved => exact describe_find?_two r _ _
  | field => exact (describe_find?_two r _ _).trans (by rw [missing_name]; rfl)
  | aliased => exact (describe_find?_two r _ _).trans (by rw [missing_aliasValue]; rfl)

end Rule

namespace Grammar

/-- A name of a rule or of an external token. -/
def Defines (g : Grammar) (name : String) : Prop :=
  name ∈ g.rules ∨ ∃ r ∈ g.externals.getD [], r.kind = .symbol ∧ r.label.name = some name

instance (g : Grammar) (name : String) : Decidable (g.Defines name) :=
  inferInstanceAs (Decidable (name ∈ g.rules ∨
    ∃ r ∈ g.externals.getD [], r.kind = .symbol ∧ r.label.name = some name))

def entryViolations (g : Grammar) (start : String) : List String :=
  (if g.rules.isEmpty then ["grammar has no rules"] else []) ++
    if start ∈ g.rules then [] else ["start rule '" ++ start ++ "' is not defined"]

/-- What is found in the nodes of rules, each of which has a name in messages. -/
def nodeViolations (rules : List (String × Rule)) (find : String → Rule → Option String) :
    List String :=
  rules.flatMap fun (context, r) => r.preorder.filterMap (find context)

def incompleteNode (context : String) (n : Rule) : Option String :=
  n.firstLack.map fun what => n.kind.name ++ " node in rule '" ++ context ++ "' has no " ++ what

def danglingSymbol (g : Grammar) (context : String) (n : Rule) : Option String :=
  if n.kind = .symbol then
    match n.label.name with
    | some name =>
      if g.Defines name then none
      else some ("undefined symbol '" ++ name ++ "' referenced in rule '" ++ context ++ "'")
    | none => none
  else none

def danglingNames (g : Grammar) (listedIn : String) (names : List String) : List String :=
  names.filterMap fun name =>
    if g.Defines name then none
    else some ("undefined symbol '" ++ name ++ "' listed in " ++ listedIn)

def listViolations (g : Grammar) : List String :=
  g.danglingNames "inline" (g.inlined.getD []) ++
    g.danglingNames "supertypes" (g.supertypes.getD []) ++
    g.danglingNames "word" g.word.toList ++
    g.danglingNames "conflicts" (g.conflicts.getD []).flatten

/-- All violations of a grammar that is entered at `start`, in the words of their messages. -/
def violations (g : Grammar) (start : String) : List String :=
  let rules := g.rules.toList
  let extras := (g.extras.getD []).map fun r => ("extras", r)
  let externals := (g.externals.getD []).map fun r => ("externals", r)
  g.entryViolations start ++ nodeViolations (rules ++ extras ++ externals) incompleteNode ++
    nodeViolations (rules ++ extras) g.danglingSymbol ++ g.listViolations

theorem head?_entryViolations (g : Grammar) (start : String) :
    (g.entryViolations start).head? = (g.entryViolation? start).map (·.message) := by
  unfold entryViolations entryViolation?
  by_cases he : g.rules.isEmpty
  · rw [if_pos he, if_pos he]
    rfl
  · rw [if_neg he, if_neg he, List.nil_append]
    by_cases hs : start ∈ g.rules
    · rw [if_pos hs, if_pos (Std.ExtTreeMap.mem_iff_contains.1 hs)]
      rfl
    · rw [if_neg hs, if_neg (mt Std.ExtTreeMap.mem_iff_contains.2 hs)]
      rfl

theorem head?_nodeViolations (rules : List (String × Rule))
    (find : String → Rule → Option String) :
    (nodeViolations rules find).head? =
      rules.findSome? fun (context, r) => r.nodes.findSome? (find context) := by
  unfold nodeViolations
  rw [List.head?_flatMap]
  simp only [List.head?_filterMap, Rule.nodes_eq_preorder]

theorem contains_definedNames {g : Grammar} {name : String} :
    g.definedNames.contains name = true ↔ g.Defines name := by
  rw [Std.ExtTreeSet.contains_iff_mem, definedNames, Names.mem_ofList, List.mem_append,
    mem_ruleNames, externalNames, List.mem_filterMap]
  simp only [Rule.symbolName, Option.ite_none_right_eq_some]
  rfl

theorem findSome?_filterMap {α β γ : Type} (entries : List α) (f : α → Option β)
    (find : β → Option γ) :
    (entries.filterMap f).findSome? find = entries.findSome? fun a => (f a).bind find := by
  rw [← List.head?_filterMap, List.filterMap_filterMap, List.head?_filterMap]

theorem head?_incompleteNodes (g : Grammar) :
    (nodeViolations (g.namedRules ++ g.extraRules ++ g.externalRules) incompleteNode).head? =
      g.shapeViolation?.map (·.message) := by
  have hnode (context : String) (n : Rule) :
      (n.missingPart?.map (Violation.incomplete n.kind context)).map (·.message) =
        incompleteNode context n := by
    rw [incompleteNode, ← Rule.missingPart?_eq_firstLack, Option.map_map, Option.map_map]
    rfl
  rw [head?_nodeViolations]
  unfold shapeViolation?
  simp only [List.map_findSome?, Function.comp_def, hnode]

theorem head?_danglingSymbols (g : Grammar) :
    (nodeViolations (g.namedRules ++ g.extraRules) g.danglingSymbol).head? =
      (g.symbolViolation? g.definedNames).map (·.message) := by
  have hnode (context : String) (n : Rule) :
      (n.symbolName.bind fun name =>
        if g.definedNames.contains name then none
        else some (Violation.undefinedSymbol name context)).map (·.message) =
      g.danglingSymbol context n := by
    unfold danglingSymbol Rule.symbolName
    split
    -- a symbol without a name is incomplete, and no violation of this kind
    · cases n.label.name with
      | none => rfl
      | some name =>
        simp only [Option.bind_some, contains_definedNames]
        split <;> rfl
    · rfl
  rw [head?_nodeViolations]
  unfold symbolViolation?
  simp only [List.map_findSome?, Function.comp_def, findSome?_filterMap, hnode]

theorem head?_listViolations (g : Grammar) :
    g.listViolations.head? = (g.listViolation? g.definedNames).map (·.message) := by
  have hname (listedIn : Section) (name : String) :
      (if g.definedNames.contains name then none
        else some (Violation.undefinedName name listedIn)).map (·.message) =
      if g.Defines name then none
      else some ("undefined symbol '" ++ name ++ "' listed in " ++ listedIn.name) := by
    simp only [contains_definedNames]
    split <;> rfl
  unfold listViolation? listedNames
  simp only [List.map_findSome?, Function.comp_def, hname]
  simp only [← List.head?_filterMap, List.filterMap_append, List.filterMap_map]
  rfl

/-- The passes find the head of the list of all violations. -/
theorem head?_violations (g : Grammar) (start : String) :
    (g.violations start).head? = (g.violation? start).map (·.message) := by
  have hshape := g.head?_incompleteNodes
  have hsymbol := g.head?_danglingSymbols
  unfold namedRules extraRules at hshape hsymbol
  unfold externalRules at hshape
  unfold violation? violations
  simp only [List.head?_append, head?_entryViolations, hshape, hsymbol, head?_listViolations,
    Option.orElse_eq_orElse, Option.orElse_eq_or, Option.or_assoc, Option.map_or]

theorem validate_of_violation {g : Grammar} {start : String} {v : Violation}
    (h : g.violation? start = some v) (strict : Bool) :
    g.validate start strict = ⟨.error (.violation v), []⟩ := by
  rw [validate, h]

theorem validate_error {g : Grammar} {start : String} {strict : Bool} {why : Rejection}
    (h : g.violation? start = none) (hr : (g.validate start strict).result = .error why) :
    strict = true ∧ ∃ f, (g.findings start).head? = some f ∧ why = .finding f := by
  rw [validate, h] at hr
  cases strict with
  | false => cases hr
  | true =>
    cases hf : g.findings start with
    | nil =>
      simp only [hf, if_true] at hr
      cases hr
    | cons f findings =>
      simp only [hf, if_true] at hr
      exact ⟨rfl, f, rfl, (Except.error.inj hr).symm⟩

/-- A grammar with violations is rejected for the first of them, before anything is logged. One
without is rejected only if validation is strict, and for its first finding. -/
theorem validate_violations (g : Grammar) (start : String) (strict : Bool) :
    (∀ name r, (name, r) ∈ g.rules.toList ↔ g.rule? name = some r) ∧
    (g.rules.toList.map Prod.fst).Pairwise (· < ·) ∧
    (match g.violations start with
    | message :: _ => ∃ v, g.validate start strict = ⟨.error (.violation v), []⟩ ∧
        (Rejection.violation v).message = message
    | [] => ∀ why, (g.validate start strict).result = .error why →
        strict = true ∧ ∃ f, (g.findings start).head? = some f ∧
          why = .finding f ∧ why.message = f.message) ∧
    ((∃ findings, (g.validate start false).result = .ok findings) ↔ g.violations start = []) := by
  have hhead := g.head?_violations start
  refine ⟨fun _ _ => Dictionary.mem_toList, g.ascending_namedRules, ?_⟩
  cases hv : g.violations start with
  | nil =>
    rw [hv, List.head?_nil, eq_comm, Option.map_eq_none_iff] at hhead
    refine ⟨fun why hwhy => ?_, iff_of_true ⟨_, result_validate hhead⟩ rfl⟩
    obtain ⟨hstrict, f, hf, rfl⟩ := validate_error hhead hwhy
    exact ⟨hstrict, f, hf, rfl, rfl⟩
  | cons message more =>
    rw [hv, List.head?_cons, eq_comm, Option.map_eq_some_iff] at hhead
    obtain ⟨v, hviolation, hmessage⟩ := hhead
    refine ⟨⟨v, validate_of_violation hviolation strict, hmessage⟩,
      iff_of_false ?_ (List.cons_ne_nil _ _)⟩
    rintro ⟨findings, hok⟩
    rw [validate_of_violation hviolation] at hok
    cases hok

end Grammar
end GrammarLoader
