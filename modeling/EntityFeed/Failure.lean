import EntityFeed.Misfit
import EntityFeed.Schema.Flaw

/-! What can go wrong, by who can mend it: the configuration, a file, or one of the collaborators
that a feed calls on. Only a collaborator's failure may be gone when the same thing is tried again.
-/
namespace EntityFeed

/-- What a collaborator says about a failure: a message and the causes behind it, outermost first.
-/
abbrev Causes := List String

def Causes.message (c : Causes) : String := String.intercalate ": " c

/-- Why a text is not a document of the kind that is expected. -/
inductive Illegible where
  | malformedJson
  | malformedToml
  | misfit (m : Misfit)
  deriving DecidableEq

def Illegible.message : Illegible → String
  | malformedJson => "malformed JSON"
  | malformedToml => "malformed TOML"
  | misfit m => m.message

inductive Misconfiguration where
  | schemaText (e : Illegible)
  | settingsText (e : Illegible)
  | schemaFlaw (f : Flaw)
  | zeroBatchSize
  deriving DecidableEq

def Misconfiguration.message : Misconfiguration → String
  | schemaText e => "invalid schema: " ++ e.message
  | settingsText e => "invalid config: " ++ e.message
  | schemaFlaw f => f.message
  | zeroBatchSize => "batch_size must be at least 1"

/-- Why a path leads to no content. -/
inductive PathError where
  | missing
  | alreadyThere
  | notDirectory
  | isDirectory
  | nameTooLong
  | nulByte
  | notText
  deriving DecidableEq

def PathError.message : PathError → String
  | missing => "No such file or directory (os error 2)"
  | alreadyThere => "File exists (os error 17)"
  | notDirectory => "Not a directory (os error 20)"
  | isDirectory => "Is a directory (os error 21)"
  | nameTooLong => "File name too long (os error 36)"
  | nulByte => "file name contained an unexpected NUL byte"
  | notText => "stream did not contain valid UTF-8"

/-- Why a file is of no use: it cannot be read, or what it says is refused. -/
inductive FileFault where
  | unreadable (e : PathError)
  | refused (m : Misconfiguration)
  deriving DecidableEq

def FileFault.message : FileFault → String
  | unreadable e => e.message
  | refused m => m.message

inductive Failure where
  | config (m : Misconfiguration)
  | file (path : String) (fault : FileFault)
  | query (causes : Causes)
  | callback (causes : Causes)
  | store (causes : Causes)
  | scheduler (causes : Causes)
  deriving DecidableEq

namespace Failure

def message : Failure → String
  | config m => "Configuration error: " ++ m.message
  | file path fault => "Failed to load " ++ path ++ ": " ++ fault.message
  | query c => "Query execution error: " ++ c.message
  | callback c => "Change callback error: " ++ c.message
  | store c => "Id store error: " ++ c.message
  | scheduler c => "Scheduler error: " ++ c.message

/-- Whether the same operation may succeed when it is tried again. -/
def isTransient : Failure → Bool
  | config _ | file _ _ => false
  | query _ | callback _ | store _ | scheduler _ => true

end Failure
end EntityFeed
