import TreePath.Message.Styled
import TreePath.Message.Template

namespace TreePath

structure LogRecord where
  level : Int
  file : String
  line : Int
  template : String
  values : List Value
  /-- Seconds since the start of the epoch, in universal time. -/
  created : Int
  /-- The style of the first word; an empty one counts as none. -/
  color : Option String

namespace LogRecord

/-- The name of a level; of two names for one number the longer is shown. -/
def levelName (level : Int) : String :=
  if level = 50 then "CRITICAL"
  else if level = 40 then "ERROR"
  else if level = 30 then "WARNING"
  else if level = 20 then "INFO"
  else if level = 10 then "DEBUG"
  else if level = 0 then "NOTSET"
  else "Level " ++ String.ofList (Decimal.intDigits level)

def levelStyles : List (String × String) :=
  [("DEBUG", "dim"), ("INFO", "blue"), ("WARNING", "yellow"), ("ERROR", "red"),
   ("CRITICAL", "bold red")]

def levelStyle (name : String) : String := (levelStyles.lookup name).getD ""

def message (r : LogRecord) : Except Template.Fault (List Char) := Template.fill r.template r.values

/-- The characters before the first space. -/
def firstWord (s : List Char) : List Char := s.takeWhile (· != ' ')

/-- A message with its first word in colour. The word is measured before the text is cleaned of
control codes. -/
def styleMessage (color : Option String) (message : List Char) : Styled :=
  let text := Styled.ofText message
  match color with
  | none => text
  | some style => text.styleFirst style (firstWord message).length

def styledMessage (r : LogRecord) : Except Template.Fault Styled :=
  r.message.map (styleMessage r.color)

/-- The segments of a file path, without empty ones and those that stay in place. -/
def segments (path : List Char) : List (List Char) :=
  (path.splitOn '/').filter fun s => !s.isEmpty && s != ['.']

/-- The last segment of a file path. -/
def fileName (path : List Char) : List Char := (segments path).getLast?.getD []

def location (r : LogRecord) : List Char :=
  '[' :: (fileName r.file.toList ++ ':' :: (Decimal.intDigits r.line ++ [']']))

/-- The start of the first year and the end of the last one that a calendar of 32 bits counts. -/
def leastTime : Int := -67768040609740800

def greatestTime : Int := 67767976233532799

/-- Two digits for each of hours, minutes and seconds; none for a time outside the calendar. -/
def timeOfDay? (seconds : Int) : Option (List Char) :=
  if leastTime ≤ seconds ∧ seconds ≤ greatestTime then
    let s := (seconds % 86400).toNat
    some (Decimal.padDigits 2 (s / 3600) ++ ':' :: (Decimal.padDigits 2 (s / 60 % 60)
      ++ ':' :: Decimal.padDigits 2 (s % 60)))
  else none

/-- Puts time and level before a message, and the place that it comes from behind it. -/
def frame (r : LogRecord) (time : List Char) (message : Styled) : Styled :=
  let name := levelName r.level
  let front := (Styled.empty.add time "dim").add [' '] ""
  let level := (front.add name.toList (levelStyle name)).add [' '] ""
  ((level.append message).add [' '] "").add r.location "dim"

/-- The line of a record; none if its time lies outside the calendar or its message cannot be formed. -/
def styledLine? (r : LogRecord) : Option Styled :=
  match timeOfDay? r.created, r.styledMessage with
  | some time, .ok message => some (r.frame time message)
  | _, _ => none

end LogRecord

end TreePath
