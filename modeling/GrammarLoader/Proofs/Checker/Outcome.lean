import GrammarLoader.Checker.Report
import GrammarLoader.Proofs.Language.Kinds
import GrammarLoader.Proofs.Language.Strictness

/-! The checker against the library. What the arguments ask for is one handle, although it comes
about in two ways, with `--grammar` and without. What loading it gives, and what can be read of the
file for the layout tokens, is all that both streams and the status depend on. -/

namespace GrammarLoader.Checker

/-- What a path gives to a reader of texts: the bytes of a file have to be those of a text. -/
inductive Files.Gives (files : Files) (path : String) : Except FileError String → Prop
  | text {text : String} (h : files.read path = .ok text.toUTF8) : Gives files path (.ok text)
  | noText {bytes : ByteArray} (h : files.read path = .ok bytes)
      (hb : ∀ text : String, text.toUTF8 ≠ bytes) : Gives files path (.error .notText)
  | failed {e : FileError} (h : files.read path = .error e) : Gives files path (.error e)

namespace Files

variable {files : Files} {path : String}

theorem fromUTF8?_eq_some_iff {bytes : ByteArray} {text : String} :
    String.fromUTF8? bytes = some text ↔ text.toUTF8 = bytes := by
  unfold String.fromUTF8?
  constructor
  · intro h
    split at h
    · obtain rfl := Option.some.inj h
      rfl
    · cases h
  · rintro rfl
    exact dif_pos text.isValidUTF8

theorem gives_iff {r : Except FileError String} : files.Gives path r ↔ files.readText path = r := by
  unfold readText
  constructor
  · intro h
    cases h with
    | text h =>
      rw [h]
      simp only [bind, Except.bind, fromUTF8?_eq_some_iff.2 rfl]
    | @noText bytes h hb =>
      rw [h]
      cases ht : String.fromUTF8? bytes with
      | none => simp only [bind, Except.bind, ht]
      | some text => exact absurd (fromUTF8?_eq_some_iff.1 ht) (hb text)
    | failed h =>
      rw [h]
      rfl
  · rintro rfl
    cases h : files.read path with
    | error e => exact .failed h
    | ok bytes =>
      cases ht : String.fromUTF8? bytes with
      | some text =>
        obtain rfl := fromUTF8?_eq_some_iff.1 ht
        simpa only [bind, Except.bind, ht] using Gives.text h
      | none =>
        simp only [bind, Except.bind, ht]
        refine .noText h fun text htext => ?_
        rw [fromUTF8?_eq_some_iff.2 htext] at ht
        cases ht

end Files

namespace Arguments

variable {files : Files} {a : Arguments} {definition : String}

/-- What a flag declares about the grammar of a file; that of automn needs no flags. -/
def declared (a : Arguments) (value : Option String) (standard : String) : String :=
  if a.grammar = none then standard else value.getD standard

/-- The handle that the arguments ask for, around a definition. -/
def handleFor (a : Arguments) (definition : String) : Handle where
  name := a.declared a.name "automn"
  version := a.abi.getD 14
  startRule := a.declared a.start "source_file"
  externalTokens := ["indent", "dedent", "newline", "end"]
  definition := definition

def loaded (a : Arguments) (definition : String) : Logged (Except LoadError Language) :=
  Language.load (a.handleFor definition) ⟨a.strict, 13, 15⟩

/-- The definition that the arguments ask for: the one of automn, or the text of a file. -/
def Defines (a : Arguments) (files : Files) (definition : String) : Prop :=
  match a.grammar with
  | none => definition = Automn.definition
  | some path => files.Gives path (.ok definition)

/-- The same arguments without those that add to the report. -/
def brief (a : Arguments) : Arguments := { a with symbols := false, tokens := none }

theorem handle_of_defines (h : a.Defines files definition) :
    handle files a = .ok (a.handleFor definition) := by
  obtain ⟨grammar, name, start, abi, strict, symbols, tokens⟩ := a
  cases grammar with
  | none =>
    obtain rfl : definition = Automn.definition := h
    cases abi <;> rfl
  | some path =>
    have hread : files.readText path = .ok definition := Files.gives_iff.1 h
    cases abi <;> simp only [handle, readFile, hread] <;> rfl

theorem handle_of_unread {path : String} {e : FileError} (ha : a.grammar = some path)
    (h : files.Gives path (.error e)) :
    handle files a = .error ("reading " ++ path ++ ": " ++ e.message) := by
  simp only [handle, readFile, ha, Files.gives_iff.1 h]
  rfl

theorem load_of_defines (h : a.Defines files definition) :
    load files a =
      ⟨(a.loaded definition).result.mapError (·.message), (a.loaded definition).log⟩ := by
  rw [load, handle_of_defines h]
  rfl

theorem load_of_unread {path : String} {e : FileError} (ha : a.grammar = some path)
    (h : files.Gives path (.error e)) :
    load files a = ⟨.error ("reading " ++ path ++ ": " ++ e.message), []⟩ := by
  rw [load, handle_of_unread ha h]

theorem load_of_loaded {l : Language} (hd : a.Defines files definition)
    (h : (a.loaded definition).result = .ok l) :
    load files a = ⟨.ok l, (a.loaded definition).log⟩ := by
  rw [load_of_defines hd, h]
  rfl

end Arguments

def summaryLines (l : Language) : List String := [
  "name: " ++ l.name ++ "\n",
  "abi version: " ++ toString l.version.toNat ++ "\n",
  "symbols: " ++ toString l.tables.symbols.length ++ "\n",
  "fields: " ++ toString l.tables.fields.length ++ "\n",
  "external tokens: " ++ toString l.tables.externalCount ++ "\n"]

def findingText : Finding → String
  | .unreachable rule => "unreachable rule '" ++ rule ++ "'"
  | .mixed rule levels => "rule '" ++ rule ++ "' has multiple precedence levels: [" ++
      ", ".intercalate (levels.map toString) ++ "]"

def warningLine (f : Finding) : String := "warning: " ++ findingText f ++ "\n"

def kindWord : Symbol.Kind → String
  | .builtin => "builtin"
  | .anonymous => "anonymous"
  | .external => "external"
  | .regular => "regular"
  | .hidden => "hidden"

def tokenWord : Layout.Token → String
  | .indent => "indent"
  | .dedent => "dedent"
  | .newline => "newline"
  | .endOfInput => "end"

/-- The lines of a symbol table: that of a symbol stands at the place that is its id. -/
def ListsSymbols (l : Language) (lines : List String) : Prop :=
  lines.length = l.tables.symbols.length ∧ ∀ id : UInt16, lines[id.toNat]? =
    (l.tables.symbols[id.toNat]?).map fun s =>
      toString id.toNat ++ "\t" ++ kindWord s.kind ++ "\t" ++ s.name ++ "\n"

def errorText (message : String) : String := "error: " ++ message ++ "\n"

def unreadText (path : String) (e : FileError) : String :=
  errorText ("reading " ++ path ++ ": " ++ e.message)

/-- What the log leaves on the error stream: a line for each event that is written. -/
def logText (w : LogWriter) (log : List Event) : String :=
  String.join (((log.filter w.writes).mapIdx w.line).map (· ++ "\n"))

/-- What comes of the file for the layout tokens: lines, an error and a status. -/
inductive ListsTokens (files : Files) (a : Arguments) : List String → String → UInt32 → Prop
  | unasked (ha : a.tokens = none) : ListsTokens files a [] "" 0
  | unread {path : String} {e : FileError} (ha : a.tokens = some path)
      (h : files.Gives path (.error e)) : ListsTokens files a [] (unreadText path e) 1
  | scanned {path text : String} (ha : a.tokens = some path) (h : files.Gives path (.ok text)) :
      ListsTokens files a ((Layout.scanAll text).map fun t =>
        toString t.offset ++ "\t" ++ tokenWord t.token ++ "\n") "" 0

/-- What a run leaves on both streams and as its status, by what the library gives. -/
inductive Checks (w : LogWriter) (files : Files) (a : Arguments) : String → String → UInt32 → Prop
  | unread {path : String} {e : FileError} (ha : a.grammar = some path)
      (h : files.Gives path (.error e)) : Checks w files a "" (unreadText path e) 1
  | refused {definition : String} {e : LoadError} (hd : a.Defines files definition)
      (h : (a.loaded definition).result = .error e) :
      Checks w files a "" (logText w (a.loaded definition).log ++ errorText e.message) 1
  | reported {definition : String} {l : Language} {symbols tokens : List String} {errors : String}
      {status : UInt32} (hd : a.Defines files definition)
      (h : (a.loaded definition).result = .ok l)
      (hs : if a.symbols then ListsSymbols l symbols else symbols = [])
      (ht : ListsTokens files a tokens errors status) :
      Checks w files a
        (String.join (summaryLines l ++ l.findings.map warningLine ++ symbols ++ tokens))
        (logText w (a.loaded definition).log ++ errors) status

namespace Outcome

theorem textOf_append (lines more : List String) :
    textOf (lines ++ more) = textOf lines ++ textOf more := by
  simp [textOf]

def Shows (o : Outcome) (stdout stderr : String) (status : UInt32) : Prop :=
  o.stdout = stdout ∧ o.stderr = stderr ∧ o.status = status

end Outcome

section Texts

open Outcome

theorem textOf_summary (l : Language) : textOf (summary l) = String.join (summaryLines l) := rfl

theorem textOf_findings (findings : List Finding) :
    textOf (findings.map ("warning: " ++ ·.message)) = String.join (findings.map warningLine) := by
  have hline (f : Finding) : "warning: " ++ f.message ++ "\n" = warningLine f := by cases f <;> rfl
  simp only [textOf, List.map_map, Function.comp_def, hline]

theorem textOf_tokenLines (text : String) :
    textOf (tokenLines text) = String.join ((Layout.scanAll text).map fun t =>
      toString t.offset ++ "\t" ++ tokenWord t.token ++ "\n") := by
  have hword (t : Layout.Token) : t.name = tokenWord t := by cases t <;> rfl
  simp only [textOf, tokenLines, List.map_map, Function.comp_def, hword]

theorem textOf_lines (w : LogWriter) (log : List Event) : textOf (w.lines log) = logText w log := rfl

theorem textOf_error (message : String) : textOf ["error: " ++ message] = errorText message := by
  simp [textOf, errorText]

end Texts

theorem listsSymbols_iff {l : Language} {lines : List String}
    (hlen : l.tables.symbols.length ≤ maxEntries) :
    ListsSymbols l lines ↔ lines = (symbolLines l).map (· ++ "\n") := by
  have hword (k : Symbol.Kind) : k.text = kindWord k := by cases k <;> rfl
  have hlines : ((symbolLines l).map (· ++ "\n")).length = l.tables.symbols.length := by
    rw [List.length_map, symbolLines, List.length_mapIdx]
  have hget (id : UInt16) : ((symbolLines l).map (· ++ "\n"))[id.toNat]? =
      (l.tables.symbols[id.toNat]?).map fun s =>
        toString id.toNat ++ "\t" ++ kindWord s.kind ++ "\t" ++ s.name ++ "\n" := by
    rw [List.getElem?_map, symbolLines, List.getElem?_mapIdx, Option.map_map]
    simp only [Function.comp_def, hword]
  constructor
  · rintro ⟨hlength, hids⟩
    refine List.ext_getElem? fun i => ?_
    rcases Nat.lt_or_ge i l.tables.symbols.length with hi | hi
    · -- ids are enough for the places of a table that could be loaded
      have hid : (UInt16.ofNat i).toNat = i := Grammar.toNat_ofNat_place hi hlen
      rw [← hid, hids, hget]
    · rw [List.getElem?_eq_none (hlength ▸ hi), List.getElem?_eq_none (hlines ▸ hi)]
  · rintro rfl
    exact ⟨hlines, hget⟩

section Run

variable {w : LogWriter} {files : Files} {a : Arguments} {log : List Event}

theorem exists_listsTokens (files : Files) (a : Arguments) :
    ∃ tokens errors status, ListsTokens files a tokens errors status := by
  cases ha : a.tokens with
  | none => exact ⟨_, _, _, .unasked ha⟩
  | some path =>
    cases hread : files.readText path with
    | error e => exact ⟨_, _, _, .unread ha (Files.gives_iff.2 hread)⟩
    | ok text => exact ⟨_, _, _, .scanned ha (Files.gives_iff.2 hread)⟩

theorem shows_error (report : List String) (message : String) :
    (⟨w.lines log, report, some message⟩ : Outcome).Shows (Outcome.textOf report)
      (logText w log ++ errorText message) 1 := by
  refine ⟨rfl, ?_, rfl⟩
  rw [← textOf_lines, ← textOf_error, ← Outcome.textOf_append]
  rfl

theorem shows_report (report : List String) :
    (⟨w.lines log, report, none⟩ : Outcome).Shows (Outcome.textOf report)
      (logText w log ++ "") 0 := by
  refine ⟨rfl, ?_, rfl⟩
  rw [← textOf_lines, String.append_empty]
  exact congrArg Outcome.textOf (List.append_nil (w.lines log))

theorem run_of_error {message : String} (h : load files a = ⟨.error message, log⟩) :
    (run w files a).Shows "" (logText w log ++ errorText message) 1 := by
  rw [run, h]
  exact shows_error [] message

/-- What is reported of a language stays, whatever comes of the file for the layout tokens. -/
theorem run_of_ok {l : Language} {tokens : List String} {errors : String} {status : UInt32}
    (h : load files a = ⟨.ok l, log⟩) (ht : ListsTokens files a tokens errors status) :
    (run w files a).Shows (Outcome.textOf (mainLines a l) ++ String.join tokens)
      (logText w log ++ errors) status := by
  rw [run, h]
  cases ht with
  | unasked ha =>
    rw [ha, String.join_nil, String.append_empty]
    exact shows_report (mainLines a l)
  | unread ha hread =>
    rw [ha]
    simp only [readFile, Files.gives_iff.1 hread, Except.mapError]
    rw [String.join_nil, String.append_empty]
    exact shows_error (mainLines a l) _
  | scanned ha hread =>
    rw [ha, ← textOf_tokenLines, ← Outcome.textOf_append]
    simp only [readFile, Files.gives_iff.1 hread, Except.mapError]
    exact shows_report _

theorem textOf_mainLines {l : Language} {symbols : List String}
    (hlen : l.tables.symbols.length ≤ maxEntries)
    (hs : if a.symbols then ListsSymbols l symbols else symbols = []) :
    Outcome.textOf (mainLines a l) =
      String.join (summaryLines l ++ l.findings.map warningLine ++ symbols) := by
  have hsymbols : Outcome.textOf (if a.symbols then symbolLines l else []) =
      String.join symbols := by
    split at hs
    · next ha => rw [if_pos ha, (listsSymbols_iff hlen).1 hs, Outcome.textOf]
    · next ha =>
      rw [if_neg ha, hs]
      rfl
  rw [mainLines, Outcome.textOf_append, Outcome.textOf_append, textOf_summary, textOf_findings,
    hsymbols, String.join_append, String.join_append]

theorem run_of_checks {stdout stderr : String} {status : UInt32}
    (h : Checks w files a stdout stderr status) : (run w files a).Shows stdout stderr status := by
  cases h with
  | @unread path e ha h =>
    have hrun : (run w files a).Shows "" (logText w [] ++ unreadText path e) 1 :=
      run_of_error (Arguments.load_of_unread ha h)
    simpa [logText] using hrun
  | @refused definition e hd h =>
    refine run_of_error ?_
    rw [Arguments.load_of_defines hd, h]
    rfl
  | @reported definition l symbols tokens _ _ hd h hs ht =>
    have hmain := textOf_mainLines (Language.symbols_of_load h).1 hs
    rw [String.join_append, ← hmain]
    exact run_of_ok (Arguments.load_of_loaded hd h) ht

theorem exists_checks (w : LogWriter) (files : Files) (a : Arguments) :
    ∃ stdout stderr status, Checks w files a stdout stderr status := by
  have hdefined : (∃ definition, a.Defines files definition) ∨
      ∃ path e, a.grammar = some path ∧ files.Gives path (.error e) := by
    unfold Arguments.Defines
    cases ha : a.grammar with
    | none => exact .inl ⟨_, rfl⟩
    | some path =>
      cases hread : files.readText path with
      | error e => exact .inr ⟨path, e, rfl, Files.gives_iff.2 hread⟩
      | ok text => exact .inl ⟨text, Files.gives_iff.2 hread⟩
  obtain ⟨definition, hd⟩ | ⟨path, e, ha, hread⟩ := hdefined
  · cases h : (a.loaded definition).result with
    | error e => exact ⟨_, _, _, .refused hd h⟩
    | ok l =>
      obtain ⟨tokens, errors, status, ht⟩ := exists_listsTokens files a
      have hs : ∃ symbols, if a.symbols then ListsSymbols l symbols else symbols = [] := by
        split
        · exact ⟨_, (listsSymbols_iff (Language.symbols_of_load h).1).2 rfl⟩
        · exact ⟨_, rfl⟩
      obtain ⟨symbols, hs⟩ := hs
      exact ⟨_, _, _, .reported hd h hs ht⟩
  · exact ⟨_, _, _, .unread ha hread⟩

theorem checks_iff {stdout stderr : String} {status : UInt32} :
    Checks w files a stdout stderr status ↔ (run w files a).Shows stdout stderr status := by
  refine ⟨run_of_checks, fun ⟨hstdout, hstderr, hstatus⟩ => ?_⟩
  obtain ⟨_, _, _, h⟩ := exists_checks w files a
  obtain ⟨rfl, rfl, rfl⟩ := run_of_checks h
  rwa [← hstdout, ← hstderr, ← hstatus]

def Outcome.Extends (o brief : Outcome) : Prop :=
  brief.stdout.toList <+: o.stdout.toList ∧ brief.stderr.toList <+: o.stderr.toList

/-- Symbols and layout tokens stand behind what is reported without them. -/
theorem run_extends_brief (w : LogWriter) (files : Files) (a : Arguments) :
    (run w files a).Extends (run w files a.brief) := by
  have hload : load files a.brief = load files a := rfl
  cases h : load files a with
  | mk result log =>
    cases result with
    | error message =>
      obtain ⟨hstdout, hstderr, -⟩ := run_of_error (w := w) h
      obtain ⟨hstdout', hstderr', -⟩ := run_of_error (w := w) (hload.trans h)
      rw [Outcome.Extends, hstdout, hstdout', hstderr, hstderr']
      exact ⟨List.prefix_rfl, List.prefix_rfl⟩
    | ok l =>
      obtain ⟨tokens, errors, status, ht⟩ := exists_listsTokens files a
      obtain ⟨hstdout, hstderr, -⟩ := run_of_ok (w := w) h ht
      obtain ⟨hstdout', hstderr', -⟩ := run_of_ok (w := w) (hload.trans h) (.unasked rfl)
      have hmain : mainLines a l =
          mainLines a.brief l ++ if a.symbols then symbolLines l else [] := by
        simp [mainLines, Arguments.brief]
      constructor
      · rw [hstdout, hstdout', hmain, Outcome.textOf_append]
        simp only [String.join_nil, String.append_empty, String.toList_append, List.append_assoc]
        exact List.prefix_append ..
      · rw [hstderr, hstderr']
        simp only [String.append_empty, String.toList_append]
        exact List.prefix_append ..

theorem stderr_warnings (line : Nat → Event → String) {definition : String} {l : Language}
    (ha : a.tokens = none) (hd : a.Defines files definition)
    (h : (a.loaded definition).result = .ok l) :
    (run (.warnings line) files a).stderr =
      String.join (((l.findings.map (.finding l.name)).mapIdx line).map (· ++ "\n")) := by
  obtain ⟨-, hstderr, -⟩ :=
    run_of_ok (w := .warnings line) (Arguments.load_of_loaded hd h) (.unasked ha)
  have hwarnings : (a.loaded definition).log.filter (·.level = .warn) =
      l.findings.map (.finding l.name) := Language.warnings_of_load h
  rw [hstderr, String.append_empty, logText, LogWriter.warnings]
  dsimp only
  rw [hwarnings]

end Run

section Handles

variable {files : Files} {a b : Arguments}

theorem run_congr (h : handle files a = handle files b) (hstrict : a.strict = b.strict)
    (hsymbols : a.symbols = b.symbols) (htokens : a.tokens = b.tokens) (w : LogWriter) :
    run w files a = run w files b := by
  have hload : load files a = load files b := by
    unfold load
    rw [h, hstrict]
  have hmain : mainLines a = mainLines b := by
    funext l
    rw [mainLines, mainLines, hsymbols]
  unfold run
  rw [hload, hmain, htokens]

theorem handle_withoutFile (files : Files) (a : Arguments) (name start : Option String) :
    handle files { a with grammar := none, name, start } =
      handle files { a with grammar := none } := rfl

theorem handle_copy {path : String} (h : files.Gives path (.ok Automn.definition))
    (a : Arguments) :
    handle files { a with grammar := some path, name := none, start := none } =
      handle files { a with grammar := none } := by
  have hcopy : Arguments.Defines { a with grammar := some path, name := none, start := none } files
      Automn.definition := h
  have hown : Arguments.Defines { a with grammar := none } files Automn.definition := rfl
  rw [Arguments.handle_of_defines hcopy, Arguments.handle_of_defines hown]
  rfl

end Handles

/-- A run shows what the library gives for the arguments, and nothing else; its log has a warning for
each finding. What symbols and layout tokens add stands at the end; names for the grammar of automn
count for nothing; and a copy of its definition in a file is as good as the definition itself. -/
theorem run_exact (w : LogWriter) (files : Files) (a : Arguments) :
    (∀ stdout stderr status, Checks w files a stdout stderr status ↔
      (run w files a).Shows stdout stderr status) ∧
    (∀ line definition l, a.tokens = none → a.Defines files definition →
      (a.loaded definition).result = .ok l →
      (run (.warnings line) files a).stderr =
        String.join (((l.findings.map (.finding l.name)).mapIdx line).map (· ++ "\n"))) ∧
    (run w files a).Extends (run w files a.brief) ∧
    (∀ name start,
      handle files { a with grammar := none, name, start } =
        handle files { a with grammar := none } ∧
      run w files { a with grammar := none, name, start } =
        run w files { a with grammar := none }) ∧
    ∀ path, files.read path = .ok Automn.definition.toUTF8 →
      handle files { a with grammar := some path, name := none, start := none } =
        handle files { a with grammar := none } ∧
      run w files { a with grammar := some path, name := none, start := none } =
        run w files { a with grammar := none } := by
  refine ⟨fun _ _ _ => checks_iff, fun line _ _ ha hd h => stderr_warnings line ha hd h,
    run_extends_brief w files a, fun name start => ?_, fun path h => ?_⟩
  · have hhandle := handle_withoutFile files a name start
    exact ⟨hhandle, run_congr hhandle rfl rfl rfl w⟩
  · have hhandle := handle_copy (.text h) a
    exact ⟨hhandle, run_congr hhandle rfl rfl rfl w⟩

def spare : List Char :=
  ("\x7b\"name\":\"t\",\"rules\":\x7b\"a\":[\"BLANK\"],\"b\":[\"BLANK\"]\x7d," ++
    "\"externals\":[[\"SYMBOL\",null,\"indent\"],[\"SYMBOL\",null,\"dedent\"]," ++
    "[\"SYMBOL\",null,\"newline\"],[\"SYMBOL\",null,\"end\"]]\x7d").toList

def spareTables : Tables :=
  ⟨[⟨"end", .builtin⟩, ⟨"indent", .external⟩, ⟨"dedent", .external⟩, ⟨"newline", .external⟩,
    ⟨"end", .external⟩, ⟨"a", .regular⟩, ⟨"b", .regular⟩], [], 4, 5⟩

def shelf : Files where
  read path :=
    if path = "spare.json" then .ok (String.ofList spare).toUTF8
    else if path = "g.json" then .ok Automn.definition.toUTF8
    else .error .notFound

def spareArguments : Arguments := ⟨some "spare.json", some "t", some "a", none, false, false, none⟩

def numberedWarnings : LogWriter := .warnings fun n e => toString n ++ " WARN " ++ e.message

def spareHandle (definition : String) : Handle :=
  ⟨"t", 14, "a", ["indent", "dedent", "newline", "end"], definition⟩

theorem handleFor_spareArguments (definition : String) :
    spareArguments.handleFor definition = spareHandle definition := rfl

theorem loaded_spare : ∃ g, (spareArguments.loaded (String.ofList spare)).result =
    .ok ⟨"t", 14, spareTables, [.unreachable "b"], g⟩ := by
  -- the search for rules is not evaluated, but followed for its two turns
  have hread : ∃ g, Grammar.ofText (String.ofList spare) = .ok g ∧
      (decide (g.name = "t" ∧ g.violation? "a" = none ∧ g.mixedRules = [] ∧
          Language.tablesFor (spareHandle "") g = .ok spareTables),
        ((Search.begin g "a").visitedWithin g 2).map fun visited =>
          g.ruleNames.filter fun name => !visited.contains name && !g.isInlined name) =
      (true, some ["b"]) :=
    Grammar.exists_ofText (by decide +kernel)
  obtain ⟨g, hg, hseen⟩ := hread
  simp only [Prod.mk.injEq, decide_eq_true_eq, Option.map_eq_some_iff] at hseen
  obtain ⟨⟨hname, hviolation, hmixed, htables⟩, visited, hvisited, hspare⟩ := hseen
  have hfindings : g.findings "a" = [.unreachable "b"] := by
    rw [Grammar.findings, Grammar.unreachableRules_eq_filter hvisited, hspare, hmixed]
    rfl
  have hv : Language.Validated (spareHandle (String.ofList spare)) ⟨false, 13, 15⟩ g
      (g.findings "a") :=
    ⟨⟨by decide, by decide⟩, hg, hname, Grammar.result_validate hviolation⟩
  have hsame (definition : String) :
      Language.tablesFor (spareHandle definition) g = Language.tablesFor (spareHandle "") g := rfl
  have hload := congrArg Logged.result hv.load_lenient
  rw [Language.conclude, hsame, htables, hfindings] at hload
  rw [Arguments.loaded, handleFor_spareArguments]
  exact ⟨g, hload⟩

/-- The warning about the rule stands in the report and in the log. The copy of the grammar of automn
is checked as this grammar itself is, whatever names the arguments have for it. -/
theorem run_shelf :
    (run numberedWarnings shelf spareArguments).Shows
      ("name: t\nabi version: 14\nsymbols: 7\nfields: 0\nexternal tokens: 4\n" ++
        "warning: unreachable rule 'b'\n") "0 WARN unreachable rule 'b'\n" 0 ∧
    run numberedWarnings shelf
        { spareArguments with grammar := some "g.json", name := none, start := none } =
      run numberedWarnings shelf { spareArguments with grammar := none } := by
  obtain ⟨g, hload⟩ := loaded_spare
  obtain ⟨hchecks, hwarnings, -, -, hcopy⟩ := run_exact numberedWarnings shelf spareArguments
  have hd : spareArguments.Defines shelf (String.ofList spare) := .text rfl
  obtain ⟨hstdout, -, hstatus⟩ := (hchecks _ _ _).1 (.reported hd hload rfl (.unasked rfl))
  refine ⟨⟨hstdout.trans ?_, (hwarnings _ _ _ rfl hd hload).trans ?_, hstatus⟩, (hcopy "g.json" ?_).2⟩
  · rw [summaryLines]
    dsimp only
    decide +kernel
  · dsimp only
    decide +kernel
  · rfl

end GrammarLoader.Checker
