import ApiDoc.Log.Record

/-!
# Settings

What a run can be told: where its log goes, how it treats sources that cannot be parsed, and how
much room texts have in tables. The defaults of the fields are the built-in settings.
-/

namespace ApiDoc

namespace Log

inductive Format where
  | json | console
deriving DecidableEq, Repr

def Format.label : Format → String
  | .json => "json"
  | .console => "console"

structure Output where
  format : Format := .console
  /-- `stderr`, `stdout`, or the absolute path of a file. -/
  destination : String := "stderr"
  /-- The level from which on records are written; that of the log if there is none. -/
  level : Option Level := none
deriving DecidableEq, Repr

end Log

structure LogSettings where
  level : Log.Level := .info
  outputs : List Log.Output := [{}]
deriving DecidableEq, Repr

structure DocumentationSettings where
  /-- Queries of a unit whose source cannot be parsed fail, and do not take it for undocumented. -/
  failOnMalformed : Bool := false
  /-- The marker by which an entry defers to what its symbol overrides or implements. -/
  deferTag : String := "inheritdoc"
deriving DecidableEq, Repr

/-- The least room for a text: a character and an ellipsis. -/
def leastBudget : Nat := 4

structure RenderSettings where
  /-- The characters that a summary in a table may have. -/
  summaryBudget : Nat := 100
  /-- The characters that a signature in a table may have. -/
  signatureBudget : Nat := 25
  codeLanguage : String := "cs"
  ignoredMethods : List String := ["Equals", "ToString", "GetHashCode", "Finalize"]
  ignoredAttributes : List String :=
    ["IteratorStateMachineAttribute", "AsyncStateMachineAttribute", "DefaultMemberAttribute"]
  summary_room : leastBudget ≤ summaryBudget := by decide
  signature_room : leastBudget ≤ signatureBudget := by decide
deriving DecidableEq, Repr

structure Settings where
  logging : LogSettings := {}
  documentation : DocumentationSettings := {}
  render : RenderSettings := {}
deriving DecidableEq, Repr

/-- The settings as they are if nothing is set. -/
def Settings.usual : Settings := {}

end ApiDoc
