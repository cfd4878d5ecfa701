import JsonApi.Entries

/-!
Records that operations leave behind, and how loud a log has to be to show them.
-/

namespace JsonApi

inductive Level where
  | debug
  | warning
  | error
deriving DecidableEq, Repr

namespace Level

def rank : Level → Nat
  | .debug => 10
  | .warning => 30
  | .error => 40

def label : Level → String
  | .debug => "DEBUG"
  | .warning => "WARNING"
  | .error => "ERROR"

end Level

structure Record where
  level : Level
  message : String
deriving DecidableEq, Repr

/-- The least level that the log shows; zero leaves the choice to the surroundings. -/
structure Verbosity where
  level : Int
deriving DecidableEq, Repr

namespace Verbosity

def effective (v : Verbosity) : Int := if v.level = 0 then 30 else v.level

/-- Details that may be confidential are shown below this level only. -/
def isDebug (v : Verbosity) : Bool := v.effective < 20

def shows (v : Verbosity) (record : Record) : Bool := v.effective ≤ record.level.rank

def isUnset (v : Verbosity) : Bool := v.level = 0

/-- A log that nobody has set up yet gets a level; any other keeps its own. -/
def setUp (v : Verbosity) (level : Int) : Verbosity := if v.isUnset then ⟨level⟩ else v

def named? (name : String) : Option Int :=
  Entries.get? [("CRITICAL", 50), ("FATAL", 50), ("ERROR", 40), ("WARN", 30), ("WARNING", 30),
    ("INFO", 20), ("DEBUG", 10), ("NOTSET", 0)] name

def usual : Verbosity := ⟨Level.warning.rank⟩

end Verbosity

end JsonApi
