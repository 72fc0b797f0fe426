import ApiDoc.Data.Basic

/-!
# Log records

What happened, how grave it is, and the particulars by name.
-/

namespace ApiDoc.Log

inductive Level where
  | debug | info | warning | error | critical
deriving DecidableEq, Repr

namespace Level

def all : List Level := [.debug, .info, .warning, .error, .critical]

/-- The name that settings give a level. -/
def label : Level → String
  | .debug => "DEBUG"
  | .info => "INFO"
  | .warning => "WARNING"
  | .error => "ERROR"
  | .critical => "CRITICAL"

/-- The name under which records carry a level. -/
def tag : Level → String
  | .debug => "debug"
  | .info => "info"
  | .warning => "warning"
  | .error => "error"
  | .critical => "critical"

/-- The weight by which levels are compared. -/
def weight : Level → Nat
  | .debug => 10
  | .info => 20
  | .warning => 30
  | .error => 40
  | .critical => 50

end Level

structure Record where
  level : Level
  event : String
  fields : List (String × Data) := []
deriving Repr

end ApiDoc.Log
