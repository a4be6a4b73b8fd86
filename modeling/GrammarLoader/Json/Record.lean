import GrammarLoader.Json.Container

/-!
Records. A record is written as a map, with its fields in any order and fields of other names
ignored, or as a list of its fields in the order of their declaration.
-/

namespace GrammarLoader.Json

structure RecordField (σ : Type) where
  name : String
  required : Bool
  read : σ → Reader σ

namespace RecordField

def needed (name : String) (r : Reader α) (store : σ → α → σ) : RecordField σ :=
  ⟨name, true, fun s => r.map (store s)⟩

/-- A field that may be left out or be `null`; `store` puts its value into a record. -/
def optional (name : String) (r : Reader α) (store : σ → Option α → σ) : RecordField σ :=
  ⟨name, false, fun s => r.option.map (store s)⟩

def firstMissing (present : List String) (fields : List (RecordField σ)) : Option (RecordField σ) :=
  fields.find? fun f => f.required && !present.contains f.name

/-- Reads the value of the field `key`, which may come once. `present` are the fields so far. -/
def entry (fields : List (RecordField σ)) : List String × σ → String →
    Except Reason (Reader (List String × σ))
  | (present, s), key =>
    match fields.find? (·.name = key) with
    | none => .ok (.map (fun () => (present, s)) .ignored)
    | some f =>
      if present.contains key then .error (.duplicateField key)
      else .ok ((f.read s).map (key :: present, ·))

def mapBody (fields : List (RecordField σ)) (start : σ) : Body σ :=
  (Body.entries (entry fields) ([], start)).accept fun (present, s) =>
    match firstMissing present fields with
    | some f => .error (.missingField f.name)
    | none => .ok s

/--
The record of a list, which holds the fields in order; optional ones at the end may be left out.
-/
def listBody (type : String) (fields : List (RecordField σ)) (start : σ) : Body σ :=
  let step : List (RecordField σ) × σ → Option (Reader (List (RecordField σ) × σ))
    | ([], _) => none
    | (f :: left, s) => some ((f.read s).map (left, ·))
  (Body.elements step (fields, start)).accept fun (left, s) =>
    match left.findIdx? (·.required) with
    | some i =>
      .error <| .invalidLength (fields.length - left.length + i) <|
        type ++ " with " ++ toString fields.length ++ " elements"
    | none => .ok s

end RecordField

/--
Reads a record, which messages call `type`, unless no level is left for it and so no reader for its
fields. It starts from the record that has no field.
-/
def Reader.record (type : String) (fields : Option (List (RecordField σ))) (start : σ) : Reader σ :=
  .container (.ofOption (fields.map fun fs => RecordField.listBody type fs start))
    (.ofOption (fields.map fun fs => RecordField.mapBody fs start)) (.refuse type)

end GrammarLoader.Json
