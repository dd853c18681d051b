import TreePath.Numeral
import TreePath.Text.Quoted
import TreePath.Text.Uppercase
import TreePath.Decimal.Layout

namespace TreePath

/-- The level names and the numbers they stand for. -/
def levelNumbers : List (String × Int) :=
  [("CRITICAL", 50), ("FATAL", 50), ("ERROR", 40), ("WARN", 30), ("WARNING", 30), ("INFO", 20),
   ("DEBUG", 10), ("NOTSET", 0)]

def levelNumber? (name : String) : Option Int := levelNumbers.lookup name

structure Settings where
  memoBound : Option Int := none
  level : String := "WARNING"
  fragments : Bool := false
deriving DecidableEq, Repr

/-- What is wrong with the text of a variable. -/
inductive SettingFlaw where
  | notNumber
  | tooSmall (found : Int)
  | notLevel
  | notTruthValue
deriving DecidableEq, Repr

structure SettingFault where
  name : String
  text : String
  flaw : SettingFlaw
deriving DecidableEq, Repr

def SettingFault.message (f : SettingFault) : String :=
  match f.flaw with
  | .notNumber => f.name ++ " must be a positive integer, got " ++ Text.quote f.text
  | .tooSmall found => f.name ++ " must be >= 1, got " ++ String.ofList (Decimal.intDigits found)
  | .notLevel => f.name ++ " must be a logging level name, got " ++ Text.quote f.text
  | .notTruthValue => f.name ++ " must be a boolean, got " ++ Text.quote f.text

namespace Settings

def boundVariable : String := "JSONREADER_PATH_CACHE_MAX_ENTRIES"

def levelVariable : String := "JSONREADER_LOG_LEVEL"

def fragmentsVariable : String := "JSONREADER_ALLOW_FRAGMENTS"

/-- The stripped text in lower case. Only ASCII letters are changed: the words that it is compared
with have no letter that is the lower case of another character. -/
def word (text : String) : String := String.ofList ((Text.strip text.toList).map Char.toLower)

def readBound (text : String) : Except SettingFlaw (Option Int) :=
  if word text = "" ∨ word text = "none" then .ok none
  else
    match looseInt? text.toList with
    | none => .error .notNumber
    | some n => if n < 1 then .error (.tooSmall n) else .ok (some n)

/-- Level names are kept in upper case. -/
def readLevel (text : String) : Except SettingFlaw String :=
  let name := String.ofList (Text.upper (Text.strip text.toList))
  match levelNumber? name with
  | some _ => .ok name
  | none => .error .notLevel

def readFragments (text : String) : Except SettingFlaw Bool :=
  if ["1", "true", "yes", "on"].contains (word text) then .ok true
  else if ["0", "false", "no", "off", ""].contains (word text) then .ok false
  else .error .notTruthValue

/-- Reads one variable, or takes the default if the environment lacks it. -/
def readVariable {α : Type} (environment : List (String × String)) (name : String)
    (read : String → Except SettingFlaw α) (default : α) : Except SettingFault α :=
  match environment.lookup name with
  | none => .ok default
  | some text => (read text).mapError fun flaw => ⟨name, text, flaw⟩

/-- Of several faults the first in the order bound, level, fragments is reported. -/
def ofEnvironment (environment : List (String × String)) : Except SettingFault Settings := do
  let defaults : Settings := {}
  let memoBound ← readVariable environment boundVariable readBound defaults.memoBound
  let level ← readVariable environment levelVariable readLevel defaults.level
  let fragments ← readVariable environment fragmentsVariable readFragments defaults.fragments
  .ok { memoBound, level, fragments }

def describe (s : Settings) : String :=
  "JSONReaderConfig(path_cache_max_entries="
    ++ ((s.memoBound.map fun n => String.ofList (Decimal.intDigits n)).getD "None")
    ++ ", log_level=" ++ Text.quote s.level ++ ", allow_fragments="
    ++ (if s.fragments then "True" else "False") ++ ")"

end Settings

end TreePath
