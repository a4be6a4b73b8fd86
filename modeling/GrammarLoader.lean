import GrammarLoader.Main
import GrammarLoader.Layout.Snapshot
import GrammarLoader.Proofs.Layout.ScanOutline
import GrammarLoader.Proofs.Layout.History
import GrammarLoader.Proofs.Language.Kinds
import GrammarLoader.Proofs.Validation.Violations
import GrammarLoader.Proofs.Layout.Ledger
import GrammarLoader.Proofs.Validation.Coverage
import GrammarLoader.Proofs.Layout.Continuation
import GrammarLoader.Proofs.Layout.Chunks
import GrammarLoader.Proofs.Layout.Respelling
import GrammarLoader.Proofs.Language.Unordered
import GrammarLoader.Proofs.Layout.BlankLines
import GrammarLoader.Proofs.Language.Strictness
import GrammarLoader.Proofs.Grammar.Messages
import GrammarLoader.Proofs.Rule.Spelling
import GrammarLoader.Proofs.Layout.Draining
import GrammarLoader.Proofs.Validation.Search
import GrammarLoader.Proofs.Checker.Outcome
import GrammarLoader.Proofs.Layout.Places
import GrammarLoader.Proofs.Language.Fields
import GrammarLoader.Proofs.Grammar.Depth
import GrammarLoader.Proofs.Rule.Forms
import GrammarLoader.Proofs.Validation.LeftRecursion
import GrammarLoader.Proofs.Validation.MixedPrecedence
import GrammarLoader.Proofs.Layout.NormalSnapshot
import GrammarLoader.Proofs.Layout.Boundaries
