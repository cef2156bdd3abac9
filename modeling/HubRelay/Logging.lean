import HubRelay.Text.Quoted

/-!
The two options of the program's log: how much is written, and in what form.
-/

namespace HubRelay

/-- How much is written to the log. -/
inductive LogLevel
  | error
  | warn
  | info
  | debug
  | trace
  deriving DecidableEq, Repr

/-- In what form the log is written. -/
inductive LogFormat
  | text
  | json
  deriving DecidableEq, Repr

/-- A text that names none of the choices of an option. -/
structure UnknownOption where
  kind : String
  text : String

def UnknownOption.message (e : UnknownOption) : String :=
  "unknown " ++ e.kind ++ " " ++ Text.quoted e.text

/-- The text with the capitals of the English alphabet made small. -/
def lowered (text : String) : String := String.ofList (text.toList.map Char.toLower)

namespace LogLevel

def text : LogLevel → String
  | error => "error"
  | warn => "warn"
  | info => "info"
  | debug => "debug"
  | trace => "trace"

def name : LogLevel → String
  | error => "Error"
  | warn => "Warn"
  | info => "Info"
  | debug => "Debug"
  | trace => "Trace"

def ofText (word : String) : Except UnknownOption LogLevel :=
  match [error, warn, info, debug, trace].find? fun level => level.text == lowered word with
  | some level => .ok level
  | none => .error { kind := "log level", text := word }

end LogLevel

namespace LogFormat

def word : LogFormat → String
  | text => "text"
  | json => "json"

def name : LogFormat → String
  | text => "Text"
  | json => "Json"

def ofText (word : String) : Except UnknownOption LogFormat :=
  match [text, json].find? fun form => form.word == lowered word with
  | some form => .ok form
  | none => .error { kind := "log format", text := word }

end LogFormat

end HubRelay
