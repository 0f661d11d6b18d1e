import ClasspathAudit.Json.Value
import ClasspathAudit.Text.Hex
import ClasspathAudit.Text.Letter
import ClasspathAudit.Text.Quote

/-!
Log records and the two forms they are written in: words with an equals sign, or an object of JSON on a
line. A record is written when its level is at least the level of the log.
-/

namespace ClasspathAudit

structure LogLevel where
  value : Int
deriving DecidableEq, Repr

namespace LogLevel

def debug : LogLevel := ⟨-4⟩

def info : LogLevel := ⟨0⟩

def warn : LogLevel := ⟨4⟩

def error : LogLevel := ⟨8⟩

/-- Above every level that is in use. -/
def silent : LogLevel := ⟨100⟩

/-- The level that a word means, by default `info`. -/
def parse (word : String) : LogLevel :=
  match Text.lower (Text.trimBlank word) with
  | "debug" => debug
  | "warn" => warn
  | "warning" => warn
  | "error" => error
  | "silent" => silent
  | "off" => silent
  | _ => info

/-- The level for a number of requests to say more. -/
def ofVerbosity (verbosity : Int) (quiet : Bool) : LogLevel :=
  if quiet then silent
  else if verbosity = 0 then warn
  else if verbosity = 1 then info
  else debug

/-- A level is named by the next named level below it and its distance to that. -/
def text (level : LogLevel) : String :=
  let named (name : String) (base : LogLevel) : String :=
    let distance := level.value - base.value
    if distance = 0 then name
    else if distance < 0 then name ++ toString distance
    else name ++ "+" ++ toString distance
  if level.value < info.value then named "DEBUG" debug
  else if level.value < warn.value then named "INFO" info
  else if level.value < error.value then named "WARN" warn
  else named "ERROR" error

end LogLevel

inductive LogValue where
  | text (value : String)
  | number (value : Int)
deriving DecidableEq, Repr

structure LogRecord where
  level : LogLevel
  message : String
  attributes : List (String × LogValue) := []
deriving DecidableEq, Repr

inductive LogFormat where
  | text
  | json
deriving DecidableEq, Repr

/-- Only the exact word asks for JSON. -/
def LogFormat.ofText (word : String) : LogFormat := if word = "json" then .json else .text

namespace LogRecord

open Text

/-- Whether a character makes it necessary to quote a word: blanks, an equals sign, a quote, and what
is not printable. -/
def needsQuotes (c : Char) : Bool :=
  c = ' ' || c = '=' || c = '\x22' || c.toNat < 0x20 || c.toNat = 0xFFFD ||
    (decide (0x80 ≤ c.toNat) && (isBlank c || !isPrintable c))

def word (s : String) : String :=
  if s.isEmpty || s.toList.any needsQuotes then quote s else s

def valueText : LogValue → String
  | .text value => word value
  | .number value => toString value

def escapeChar (c : Char) : List Char :=
  if c = '\x22' ∨ c = '\\' then ['\\', c]
  else if c = '\n' then ['\\', 'n']
  else if c = '\r' then ['\\', 'r']
  else if c = '\t' then ['\\', 't']
  else if c.toNat < 0x20 ∨ c.toNat = 0x2028 ∨ c.toNat = 0x2029 then '\\' :: 'u' :: hexFixed 4 c.toNat
  else [c]

def jsonString (s : String) : String :=
  String.ofList ('\x22' :: s.toList.flatMap escapeChar ++ ['\x22'])

def valueJson : LogValue → String
  | .text value => jsonString value
  | .number value => toString value

/-- The line of a record; `time` is the text of its time in the wanted format. -/
def line (format : LogFormat) (time : String) (r : LogRecord) : String :=
  match format with
  | .text =>
    String.intercalate " " (["time=" ++ time, "level=" ++ r.level.text, "msg=" ++ word r.message] ++
      r.attributes.map fun (key, value) => word key ++ "=" ++ valueText value) ++ "\n"
  | .json =>
    "\x7b" ++ String.intercalate "," (["\"time\":" ++ jsonString time,
        "\"level\":" ++ jsonString r.level.text, "\"msg\":" ++ jsonString r.message] ++
      r.attributes.map fun (key, value) => jsonString key ++ ":" ++ valueJson value) ++ "\x7d\n"

/-- The lines of the records that a log of a level writes. -/
def lines (level : LogLevel) (format : LogFormat) (time : String) (records : List LogRecord) : String :=
  String.join ((records.filter fun r => decide (level.value ≤ r.level.value)).map (line format time))

end LogRecord

end ClasspathAudit
