import TreePath.Settings
import TreePath.Value.Display

namespace TreePath

/-- A logger starts at level zero without a handler. -/
structure Logger where
  level : Int := 0
  /-- The handlers, each known by how often the logger had been configured before. -/
  handlers : List Nat := []
  /-- How often the logger was configured. -/
  configured : Nat := 0
deriving DecidableEq, Repr

/-- What is no level. -/
inductive LevelFault where
  | unknownName (name : String)
  | notLevel (shown : String)
deriving DecidableEq, Repr

def LevelFault.message : LevelFault → String
  | unknownName name => "Unknown level: " ++ Text.quote name
  | notLevel shown => "Level not an integer or a valid string: " ++ shown

/-- An operation on a logger. What it did up to a fault stays done. -/
abbrev LoggerM := ExceptT LevelFault (StateM Logger)

namespace Logger

def name : String := "jsonreader"

/-- The number of a level given by name, in any case, or by number. -/
def levelOf : Value → Except LevelFault Int
  | .str s =>
    let name := String.ofList (Text.upper s.toList)
    match levelNumber? name with
    | some n => .ok n
    | none => .error (.unknownName name)
  | .int n => .ok n
  | .bool b => .ok (if b then 1 else 0)
  | v => .error (.notLevel v.display)

/-- Sets the level. -/
def setLevel (level : Value) : LoggerM Unit := do
  let n ← levelOf level
  modify fun logger => { logger with level := n }

/-- The logger with a handler, its own if it has one. -/
def withHandler (logger : Logger) : Logger :=
  if logger.handlers.isEmpty then { logger with handlers := [logger.configured] } else logger

/-- Sets the level, that of the settings where none is given, and then sees to it that there is a
handler. -/
def configure (settings : Settings) (level : Value) : LoggerM Unit := do
  setLevel (if level.isNull then .str settings.level else level)
  modify fun logger => { logger.withHandler with configured := logger.configured + 1 }

/-- The number of the level at which a trace is kept. -/
def debugLevel : Int := 10

/-- A logger at level zero takes the level of the root logger, which keeps no trace. -/
def isTracing (logger : Logger) : Bool := logger.level != 0 && logger.level ≤ debugLevel

end Logger

/-- An event of the trace. -/
inductive TraceEvent where
  | parsed (text : String) (count : Nat)
  | fetchFailed (path reason : String)
deriving DecidableEq, Repr

namespace TraceEvent

def message : TraceEvent → String
  | parsed text count =>
    "parse " ++ Text.quote text ++ " (" ++ toString count ++ " components)"
  | fetchFailed path reason => "traverse " ++ path ++ " failed: " ++ reason

def color : TraceEvent → String
  | parsed _ _ => "cyan"
  | fetchFailed _ _ => "yellow"

def levelName : String := "DEBUG"

end TraceEvent

/-- What is emitted for an event. -/
structure Emission where
  level : String
  text : String
  color : String
deriving DecidableEq, Repr

def TraceEvent.emission (event : TraceEvent) : Emission :=
  ⟨levelName, event.message, event.color⟩

end TreePath
