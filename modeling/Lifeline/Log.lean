import Lifeline.Text.Terminal

/-! Lines of the log, and what is said of an error. -/
namespace Lifeline

/-- Importance of a log line. -/
inductive Level where
  | debug
  | info
  | warn
  deriving DecidableEq, Repr

def Level.name : Level → String
  | debug => "DEBUG"
  | info => "INFO"
  | warn => "WARN"

/-- One line of the log. -/
structure LogLine where
  level : Level
  text : String
  deriving DecidableEq, Repr

namespace LogLine

def debug (text : String) : LogLine := ⟨.debug, text⟩
def info (text : String) : LogLine := ⟨.info, text⟩
def warn (text : String) : LogLine := ⟨.warn, text⟩

/-- Level and text. -/
def render (l : LogLine) : String :=
  l.level.name ++ " " ++ l.text

/-- The line as it is written: without control sequences, and indented behind a line end. -/
def plain (l : LogLine) : String :=
  Text.plain ("\n    ".intercalate (l.render.splitOn "\n"))

/-- Whether a line is written; debugging lines are for verbose logs only. -/
def isShown (verbose : Bool) (l : LogLine) : Bool :=
  verbose || l.level != .debug

end LogLine

/-- An error in words: what failed, and below it the reasons, outermost first. -/
structure Explanation where
  message : String
  causes : List String
  deriving DecidableEq, Repr

namespace Explanation

/-- An error with no further reason. -/
def plain (message : String) : Explanation := ⟨message, []⟩

/-- An error seen as the reason of another. -/
def under (message : String) (e : Explanation) : Explanation := ⟨message, e.message :: e.causes⟩

/-- Message and reasons on one line. -/
def oneLine (e : Explanation) : String :=
  ": ".intercalate (e.message :: e.causes)

end Explanation

end Lifeline
