/-!
Layout tokens: what the indentation of a line contributes to the token stream of a grammar, and
the sets of them that a parser accepts at one place.
-/

namespace GrammarLoader.Layout

inductive Token
  | indent
  | dedent
  | newline
  /-- The end of the text. A grammar declares it, the scanner never emits it. -/
  | endOfInput
  deriving DecidableEq, Repr

namespace Token

/-- Every token, in the order in which a grammar lists its external tokens. -/
def all : List Token := [.indent, .dedent, .newline, .endOfInput]

def name : Token → String
  | .indent => "indent"
  | .dedent => "dedent"
  | .newline => "newline"
  | .endOfInput => "end"

def number : Token → Nat
  | .indent => 0
  | .dedent => 1
  | .newline => 2
  | .endOfInput => 3

def ofName? (name : String) : Option Token := all.find? (·.name == name)

def names : List String := all.map name

end Token

structure TokenSet where
  contains : Token → Bool

namespace TokenSet

instance : Membership Token TokenSet := ⟨fun valid t => valid.contains t = true⟩

instance (t : Token) (valid : TokenSet) : Decidable (t ∈ valid) :=
  inferInstanceAs (Decidable (valid.contains t = true))

theorem mem_iff {t : Token} {valid : TokenSet} : t ∈ valid ↔ valid.contains t = true := Iff.rfl

def full : TokenSet := ⟨fun _ => true⟩

def empty : TokenSet := ⟨fun _ => false⟩

def insert (t : Token) (valid : TokenSet) : TokenSet := ⟨fun u => u = t || valid.contains u⟩

def erase (t : Token) (valid : TokenSet) : TokenSet := ⟨fun u => u ≠ t && valid.contains u⟩

def ofList (ts : List Token) : TokenSet := ts.foldl (fun valid t => valid.insert t) empty

@[simp] theorem mem_full (t : Token) : t ∈ full := rfl

@[simp] theorem not_mem_empty (t : Token) : t ∉ empty := by simp [mem_iff, empty]

@[simp] theorem mem_insert {t u : Token} {valid : TokenSet} :
    u ∈ valid.insert t ↔ u = t ∨ u ∈ valid := by
  simp [mem_iff, insert]

end TokenSet
end GrammarLoader.Layout
