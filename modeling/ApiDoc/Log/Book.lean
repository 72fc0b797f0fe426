import ApiDoc.Log.Line
import ApiDoc.Settings.Basic

/-!
# Log books

A book takes records and writes them to its outputs. What is below the level of the book is dropped,
and so is, for each output, what is below the level of that output. A book without outputs writes
what is at least a warning to `stderr`, as it is.
-/

namespace ApiDoc.Log

/-- Whether a level is at least as grave as another. -/
def Level.reaches (level least : Level) : Bool := least.weight ≤ level.weight

/-- Whether a destination is no file. -/
def isStandard (destination : String) : Bool := destination = "stderr" || destination = "stdout"

structure Book where
  level : Level := .warning
  outputs : List Output := []
  run : Option String := none
  /-- What has been written so far, each text with its destination, in order. -/
  written : List (String × String) := []

/-- A record that comes from the program itself or from a library. -/
inductive Entry where
  | own (logger : Option String) (record : Record)
  /-- From a library: there is only a text. -/
  | foreign (level : Level) (message : String)

namespace Entry

def level : Entry → Level
  | .own _ r => r.level
  | .foreign level _ => level

/-- All that is known of an entry. A library's logger is not named. -/
def entries (e : Entry) (time : String) (run : Option String) : Data.Entries :=
  match e with
  | .own logger r => r.entries { logger, time, run }
  | .foreign level message => ({ level, event := message } : Record).entries { time, run }

/-- An entry as it is written without an output. -/
def bare (e : Entry) (time : String) (run : Option String) : String :=
  match e with
  | .own .. => (Data.map (e.entries time run)).literal
  | .foreign _ message => message

end Entry

namespace Book

/-- The level from which on an output writes. -/
def outputLevel (b : Book) (o : Output) : Level := o.level.getD b.level

/-- The first file that a book writes to. -/
def file? (b : Book) : Option String := (b.outputs.map Output.destination).find? fun d => !isStandard d

/-- The same book with other settings; what has been written stays. -/
def configure (b : Book) (s : LogSettings) : Book := { b with level := s.level, outputs := s.outputs }

/-! ## Runs -/

/-- Names the run, by a fresh name if none is given. -/
def setRun (b : Book) (given : Option String) (fresh : String) : Book :=
  { b with run := some ((given.filter fun name => !name.isEmpty).getD fresh) }

def clearRun (b : Book) : Book := { b with run := none }

/-! ## Writing -/

/-- An entry as an output writes it. -/
def lineFor (o : Output) (entries : Data.Entries) : String :=
  match o.format with
  | .json => jsonLine entries
  | .console => consoleLine entries

/-- What an entry adds to the destinations. -/
def texts (b : Book) (time : String) (e : Entry) : List (String × String) :=
  if !e.level.reaches b.level then []
  else if b.outputs.isEmpty then
    if e.level.reaches .warning then [("stderr", e.bare time b.run)] else []
  else
    (b.outputs.filter fun o => e.level.reaches (b.outputLevel o)).map fun o =>
      (o.destination, lineFor o (e.entries time b.run))

def write (b : Book) (time : String) (e : Entry) : Book := { b with written := b.written ++ b.texts time e }

/-- What has been written to a destination, in order. -/
def textsAt (b : Book) (destination : String) : List String :=
  (b.written.filter fun w => w.1 = destination).map Prod.snd

end Book

end ApiDoc.Log
