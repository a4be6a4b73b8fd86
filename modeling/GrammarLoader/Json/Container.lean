import GrammarLoader.Json.Ignored

/-!
Lists and maps. What is inside the brackets is read element by element into a state; then the
closing bracket is looked for, even behind an element that failed, since an open failure gets its
place there.
-/

namespace GrammarLoader.Json

structure Body (α : Type) where
  run : List Char → Attempt (α × List Char)
  /-- Reading only ever drops characters from the front. -/
  noLonger : ∀ {text a rest}, run text = .ok (a, rest) → rest.length ≤ text.length

def nextElement (first : Bool) (text : List Char) : Attempt (Bool × List Char) :=
  match skipBlanks text with
  | [] => .error (.before (.endIn .list) [])
  | ']' :: rest => .ok (false, ']' :: rest)
  | text =>
    if first then .ok (true, text)
    else
      match text with
      | ',' :: rest =>
        match skipBlanks rest with
        | [] => .error (.before .endInValue [])
        | ']' :: rest => .error (.behind .trailingComma (']' :: rest))
        | rest => .ok (true, rest)
      | text => .error (.behind (.expectedComma .list) text)

@[grind →] theorem length_nextElement_le {first more : Bool} {text rest : List Char}
    (h : nextElement first text = .ok (more, rest)) : rest.length ≤ text.length := by
  have := length_skipBlanks_le
  unfold nextElement at h
  grind

def readKey (atEnd : Reason) : List Char → Attempt (Option String × List Char)
  | [] => .error (.before atEnd [])
  | '"' :: rest => do
    let (key, rest) ← readString rest
    .ok (some key, rest)
  | text => .error (.behind .expectedKey text)

@[grind →] theorem length_readKey_lt {atEnd : Reason} {key : Option String} {text rest : List Char}
    (h : readKey atEnd text = .ok (key, rest)) : rest.length < text.length := by
  unfold readKey at h
  grind

def nextKey (first : Bool) (text : List Char) : Attempt (Option String × List Char) :=
  match skipBlanks text with
  | '\x7d' :: rest => .ok (none, '\x7d' :: rest)
  | text =>
    if first then readKey (.endIn .map) text
    else
      match text with
      | [] => .error (.before (.endIn .map) [])
      | ',' :: rest =>
        match skipBlanks rest with
        | '\x7d' :: rest => .error (.behind .trailingComma ('\x7d' :: rest))
        | rest => readKey .endInValue rest
      | text => .error (.behind (.expectedComma .map) text)

@[grind →] theorem length_nextKey_le {first : Bool} {key : Option String} {text rest : List Char}
    (h : nextKey first text = .ok (key, rest)) : rest.length ≤ text.length := by
  have := length_skipBlanks_le
  unfold nextKey at h
  grind

/--
Reads the elements of a list into a state. The state says how its next element is read; reading
stops when it asks for none, or in front of the closing bracket.
-/
def foldList (step : σ → Option (Reader σ)) (first : Bool) (s : σ) (text : List Char) :
    Attempt (σ × List Char) :=
  match step s with
  | none => .ok (s, text)
  | some element =>
    match _ : nextElement first text with
    | .error f => .error f
    | .ok (false, rest) => .ok (s, rest)
    | .ok (true, rest) =>
      match _ : element.run rest with
      | .error f => .error f
      | .ok (s, rest) => foldList step false s rest
termination_by text.length
decreasing_by
  have := @element.shorter
  grind

theorem length_foldList_le {step : σ → Option (Reader σ)} {first : Bool} {s s' : σ}
    {text rest : List Char} (h : foldList step first s text = .ok (s', rest)) :
    rest.length ≤ text.length := by
  have := fun (r : Reader σ) => @r.shorter
  fun_induction foldList step first s text <;> grind

/--
Reads the entries of a map into a state, up to the closing brace. The state and the key say how the
value is read, or why the key is wrong.
-/
def foldMap (entry : σ → String → Except Reason (Reader σ)) (first : Bool) (s : σ)
    (text : List Char) : Attempt (σ × List Char) :=
  match _ : nextKey first text with
  | .error f => .error f
  | .ok (none, rest) => .ok (s, rest)
  | .ok (some key, rest) =>
    match entry s key with
    | .error reason => .error (.unplaced reason rest)
    | .ok value =>
      match _ : readColon rest with
      | .error f => .error f
      | .ok rest =>
        match _ : value.run rest with
        | .error f => .error f
        | .ok (s, rest) => foldMap entry false s rest
termination_by text.length
decreasing_by
  have := @value.shorter
  grind

theorem length_foldMap_le {entry : σ → String → Except Reason (Reader σ)} {first : Bool} {s s' : σ}
    {text rest : List Char} (h : foldMap entry first s text = .ok (s', rest)) :
    rest.length ≤ text.length := by
  have := fun (r : Reader σ) => @r.shorter
  fun_induction foldMap entry first s text <;> grind

def Body.entries (entry : σ → String → Except Reason (Reader σ)) (start : σ) : Body σ where
  run := foldMap entry true start
  noLonger := length_foldMap_le

def Body.elements (step : σ → Option (Reader σ)) (start : σ) : Body σ where
  run := foldList step true start
  noLonger := length_foldList_le

/-- Accepts what was read, or leaves a failure behind it open. -/
def Body.accept (f : α → Except Reason β) (body : Body α) : Body β where
  run text := do
    let (a, rest) ← body.run text
    match f a with
    | .ok b => .ok (b, rest)
    | .error reason => .error (.unplaced reason rest)
  noLonger h := by
    obtain ⟨⟨a, rest⟩, hrun, h⟩ := Attempt.bind_eq_ok.1 h
    dsimp only at h
    split at h
    · cases h
      exact body.noLonger hrun
    · cases h

def closeList (text : List Char) : Option Failure × List Char :=
  match skipBlanks text with
  | [] => (some (.before (.endIn .list) []), [])
  | ']' :: rest => (none, rest)
  | ',' :: rest =>
    match skipBlanks rest with
    | ']' :: rest => (some (.behind .trailingComma (']' :: rest)), ']' :: rest)
    | rest => (some (.behind .trailingCharacters rest), rest)
  | rest => (some (.behind .trailingCharacters rest), rest)

def closeMap (text : List Char) : Option Failure × List Char :=
  match skipBlanks text with
  | [] => (some (.before (.endIn .map) []), [])
  | '\x7d' :: rest => (none, rest)
  | ',' :: rest => (some (.behind .trailingComma (',' :: rest)), ',' :: rest)
  | rest => (some (.behind .trailingCharacters rest), rest)

def close : Bracket → List Char → Option Failure × List Char
  | .list => closeList
  | .map => closeMap

theorem length_close_le (b : Bracket) (text : List Char) :
    (close b text).2.length ≤ text.length := by
  have := length_skipBlanks_le
  cases b
  · unfold close closeList
    grind
  · unfold close closeMap
    grind

/--
Closes a container behind its body. The body's own failure wins; if it is open, it is placed where
looking for the closing bracket came to rest.
-/
def enclose (b : Bracket) : Attempt (α × List Char) → Attempt (α × List Char)
  | .ok (a, rest) =>
    match close b rest with
    | (none, rest) => .ok (a, rest)
    | (some f, _) => .error f
  | .error (.unplaced reason rest) => .error (.before reason (close b rest).2)
  | .error f => .error f

@[grind →] theorem enclose_eq_ok {b : Bracket} {result : Attempt (α × List Char)} {a : α}
    {rest : List Char} (h : enclose b result = .ok (a, rest)) :
    ∃ rest', result = .ok (a, rest') ∧ rest.length ≤ rest'.length := by
  have := length_close_le b
  fun_cases enclose b result <;> grind [enclose]

inductive Inside (α : Type)
  | refused
  | tooDeep
  | within (body : Body α)

namespace Inside

/-- The inside of a container that can be entered only if there is a level left for it. -/
def ofOption : Option (Body α) → Inside α
  | some body => within body
  | none => tooDeep

def enter (inside : Inside α) (b : Bracket) (other : Reader α) (bracket : Char) (rest : List Char) :
    Attempt (α × List Char) :=
  match inside with
  | refused => other.run (bracket :: rest)
  | tooDeep => .error (.behind .recursionLimit (bracket :: rest))
  | within body => enclose b (body.run rest)

@[grind →] theorem length_enter_le {inside : Inside α} {b : Bracket} {other : Reader α}
    {bracket : Char} {text rest : List Char} {a : α}
    (h : inside.enter b other bracket text = .ok (a, rest)) : rest.length ≤ text.length := by
  cases inside with
  | refused => exact Nat.le_of_lt_succ (other.shorter h)
  | tooDeep => cases h
  | within body =>
    obtain ⟨_, h, hle⟩ := enclose_eq_ok h
    exact Nat.le_trans hle (body.noLonger h)

end Inside

/-- Reads a container by what is inside, and a value that is not such a container by `other`. -/
def Reader.container (list map : Inside α) (other : Reader α) : Reader α where
  run text :=
    match skipBlanks text with
    | '[' :: rest => list.enter .list other '[' rest
    | '\x7b' :: rest => map.enter .map other '\x7b' rest
    | text => other.run text
  shorter {text _ _} h := by
    have := length_skipBlanks_le text
    have := @other.shorter
    grind

def Body.list (element : Reader α) : Body (List α) :=
  let elements : Body (List α) := .elements (fun found => some (element.map (· :: found))) []
  elements.accept (.ok ·.reverse)

/-- Reads a list, unless no level is left for it and so no reader for its elements. -/
def Reader.list (element : Option (Reader α)) : Reader (List α) :=
  .container (.ofOption (element.map .list)) .refused (.refuse "a sequence")

end GrammarLoader.Json
