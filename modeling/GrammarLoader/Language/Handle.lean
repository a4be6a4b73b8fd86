import GrammarLoader.Automn.Grammar
import GrammarLoader.Layout.Token

/-!
Handles: what a grammar declares about itself, before anybody has looked at its definition.
-/

namespace GrammarLoader

structure Handle where
  name : String
  version : UInt32
  startRule : String
  externalTokens : List String
  definition : String
  deriving DecidableEq

namespace Handle

def newestVersion : UInt32 := 15

def oldestVersion : UInt32 := 13

def automnVersion : UInt32 := 14

def automn : Handle :=
  ⟨"automn", automnVersion, "source_file", Layout.Token.names, Automn.definition⟩

def ofDefinition (name : String) (version : UInt32) (startRule definition : String) : Handle :=
  ⟨name, version, startRule, [], definition⟩

def withExternalTokens (h : Handle) (externalTokens : List String) : Handle :=
  { h with externalTokens }

def withVersion (h : Handle) (version : UInt32) : Handle := { h with version }

end Handle
end GrammarLoader
