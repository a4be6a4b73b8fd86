import GrammarLoader.Grammar.Decode
import GrammarLoader.Language.Handle
import GrammarLoader.Language.Tables
import GrammarLoader.Layout.Scanner
import GrammarLoader.Validation.Validate

/-!
Loading a grammar: its version is checked, its definition is read and validated, its external
tokens are compared with those of the scanner, and the tables are built.
-/

namespace GrammarLoader

structure LoadOptions where
  strict : Bool
  oldest : UInt32
  newest : UInt32
  deriving DecidableEq, Repr

/-- Findings are let pass, and every version that can be loaded is accepted. -/
def LoadOptions.standard : LoadOptions := ⟨false, Handle.oldestVersion, Handle.newestVersion⟩

inductive Defect
  | wrongName (name : String)
  | rejected (why : Rejection)
  | unnamedExternal
  | otherExternals (declared scanned : List String)
  | tables (why : Tables.Defect)
  deriving DecidableEq, Repr

def Defect.message : Defect → String
  | wrongName name => "definition is for grammar '" ++ name ++ "'"
  | rejected why => why.message
  | unnamedExternal => "externals must be symbols"
  | otherExternals declared scanned =>
    "external tokens " ++ Text.quoteList declared ++ " do not match the scanner's " ++
      Text.quoteList scanned
  | tables why => why.message

inductive Malformation
  | unreadable (e : Json.ReadError)
  | invalid (d : Defect)

def Malformation.message : Malformation → String
  | unreadable e => "JSON parse error: " ++ e.message
  | invalid d => "validation error: " ++ d.message

inductive LoadError
  | incompatible (name : String) (version oldest newest : UInt32)
  | malformed (name : String) (cause : Malformation)

def LoadError.message : LoadError → String
  | incompatible name version oldest newest =>
    "incompatible grammar version for '" ++ name ++ "': version " ++ toString version.toNat ++
      ", supported " ++ toString oldest.toNat ++ " through " ++ toString newest.toNat
  | malformed name cause => "malformed grammar table for '" ++ name ++ "': " ++ cause.message

def LoadError.grammarName : LoadError → String
  | incompatible name _ _ _ => name
  | malformed name _ => name

structure Language where
  name : String
  version : UInt32
  tables : Tables
  findings : List Finding
  grammar : Grammar

namespace Language

def externalDefect? (g : Grammar) (scanned : List String) : Option Defect :=
  if g.externalNames.length ≠ (g.externals.getD []).length then some .unnamedExternal
  else if g.externalNames ≠ scanned then some (.otherExternals g.externalNames scanned)
  else none

def tablesFor (h : Handle) (g : Grammar) : Except Defect Tables :=
  match externalDefect? g h.externalTokens with
  | some d => .error d
  | none => (g.tables h.startRule).mapError .tables

def ofGrammar (h : Handle) (g : Grammar) (strict : Bool) : Logged (Except Defect Language) :=
  if g.name ≠ h.name then ⟨.error (.wrongName g.name), []⟩
  else
    let ⟨verdict, log⟩ := g.validate h.startRule strict
    match verdict with
    | .error why => ⟨.error (.rejected why), log⟩
    | .ok findings =>
      match tablesFor h g with
      | .error d => ⟨.error d, log⟩
      | .ok tables =>
        ⟨.ok ⟨h.name, h.version, tables, findings, g⟩,
          log ++ [.loaded h.name h.version tables.symbols.length tables.fields.length]⟩

def load (h : Handle) (options : LoadOptions) : Logged (Except LoadError Language) :=
  if h.version < options.oldest ∨ options.newest < h.version then
    ⟨.error (.incompatible h.name h.version options.oldest options.newest), []⟩
  else
    match Grammar.ofText h.definition with
    | .error e => ⟨.error (.malformed h.name (.unreadable e)), []⟩
    | .ok g =>
      let ⟨result, log⟩ := ofGrammar h g options.strict
      ⟨result.mapError fun d => .malformed h.name (.invalid d), log⟩

end Language
end GrammarLoader
