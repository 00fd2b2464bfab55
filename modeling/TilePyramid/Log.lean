/-!
# Log messages

What the library reports beside its results: a text with a severity.
-/

namespace TilePyramid

/-- How much a message matters. -/
inductive Severity where
  | warning
  | debug
  | trace
deriving DecidableEq, Repr

/-- The name of a severity at the start of a log line. -/
def Severity.name : Severity → String
  | warning => "WARN"
  | debug => "DEBUG"
  | trace => "TRACE"

/-- A message for the log. -/
structure Message where
  severity : Severity
  text : String
deriving DecidableEq, Repr

/-- The log line of a message. -/
def Message.line (m : Message) : String := m.severity.name ++ " " ++ m.text

end TilePyramid
