import GrammarLoader.Checker.Arguments
import GrammarLoader.Checker.Files
import GrammarLoader.Language.Query
import GrammarLoader.Layout.ScanAll

/-!
The checker loads a grammar and reports what it found: a summary, the findings, and on demand the
symbol table and the layout tokens of a file.
-/

namespace GrammarLoader.Checker

/-- How the log is written: which events are, and the line of each. A line holds the time, so it also
depends on how many events were written before it. -/
structure LogWriter where
  writes : Event → Bool
  line : Nat → Event → String

namespace LogWriter

def silent : LogWriter := ⟨fun _ => false, fun _ _ => ""⟩

def warnings (line : Nat → Event → String) : LogWriter := ⟨(·.level = .warn), line⟩

def lines (w : LogWriter) (log : List Event) : List String := (log.filter w.writes).mapIdx w.line

end LogWriter

structure Outcome where
  logged : List String
  report : List String
  error : Option String
  deriving DecidableEq, Repr

namespace Outcome

def textOf (lines : List String) : String := String.join (lines.map (· ++ "\n"))

def stdout (o : Outcome) : String := textOf o.report

def stderr (o : Outcome) : String :=
  textOf (o.logged ++ (o.error.map ("error: " ++ ·)).toList)

def status (o : Outcome) : UInt32 := if o.error.isSome then 1 else 0

end Outcome

def readFile (files : Files) (path : String) : Except String String :=
  (files.readText path).mapError fun e => "reading " ++ path ++ ": " ++ e.message

/-- The grammar to load: that of a file, with the layout tokens, or else that of automn. -/
def handle (files : Files) (a : Arguments) : Except String Handle := do
  let h ← match a.grammar with
    | some path => do
      let definition ← readFile files path
      let h := Handle.ofDefinition (a.name.getD Handle.automn.name) Handle.automn.version
        (a.start.getD Handle.automn.startRule) definition
      pure (h.withExternalTokens Layout.Token.names)
    | none => pure Handle.automn
  match a.abi with
  | some version => pure (h.withVersion version)
  | none => pure h

def load (files : Files) (a : Arguments) : Logged (Except String Language) :=
  match handle files a with
  | .error e => ⟨.error e, []⟩
  | .ok h =>
    let ⟨result, log⟩ := Language.load h { LoadOptions.standard with strict := a.strict }
    ⟨result.mapError (·.message), log⟩

def summary (l : Language) : List String := [
  "name: " ++ l.name,
  "abi version: " ++ toString l.version.toNat,
  "symbols: " ++ toString l.symbolCount,
  "fields: " ++ toString l.fieldCount,
  "external tokens: " ++ toString l.tables.externalCount]

def symbolLines (l : Language) : List String :=
  l.tables.symbols.mapIdx fun id s => toString id ++ "\t" ++ s.kind.text ++ "\t" ++ s.name

def tokenLines (text : String) : List String :=
  (Layout.scanAll text).map fun t => toString t.offset ++ "\t" ++ t.token.name

def mainLines (a : Arguments) (l : Language) : List String :=
  summary l ++ l.findings.map ("warning: " ++ ·.message) ++ if a.symbols then symbolLines l else []

/--
Runs the checker. The file for the layout tokens is read last; what was reported before is kept.
-/
def run (w : LogWriter) (files : Files) (a : Arguments) : Outcome :=
  let ⟨result, log⟩ := load files a
  match result with
  | .error e => ⟨w.lines log, [], some e⟩
  | .ok l =>
    match a.tokens with
    | none => ⟨w.lines log, mainLines a l, none⟩
    | some path =>
      match readFile files path with
      | .error e => ⟨w.lines log, mainLines a l, some e⟩
      | .ok text => ⟨w.lines log, mainLines a l ++ tokenLines text, none⟩

def runLogging (w : LogWriter) (files : Files) (args : List String) : Outcome :=
  match Arguments.parse args with
  | some a => run w files a
  | none => ⟨[], [], some "Could not parse CLI arguments"⟩

def runArgs (files : Files) (args : List String) : Outcome := runLogging .silent files args

end GrammarLoader.Checker
