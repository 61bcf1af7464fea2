import Lifeline.Files.Path
import Lifeline.Log
import Lifeline.Report.Json
import Lifeline.Report.Text
import Lifeline.Text.Quoted

/-! Export formats of reports. -/
namespace Lifeline.Report

/-- How a report is written. -/
inductive Format where
  | json
  | text
  deriving DecidableEq, Repr

/-- A name that is no format. -/
structure UnknownFormat where
  name : String

def UnknownFormat.message (u : UnknownFormat) : String :=
  s!"Unsupported format: {u.name}. Use json or text"

/-- The format of a name, letters of either case; no letter beyond ASCII has one of these
as its lower case. -/
def Format.ofName (name : String) : Except UnknownFormat Format :=
  let lower := name.map Char.toLower
  if lower = "json" then .ok .json
  else if lower = "text" ∨ lower = "txt" then .ok .text
  else .error ⟨name⟩

/-- The content of the report's file. -/
def render (format : Format) (r : Report) : String :=
  match format with
  | .json => r.pretty
  | .text => r.text

/-- A file that cannot be created. -/
def explainUncreated (path : String) (reason : Files.FileError) : Explanation :=
  ⟨"Failed to create output file: " ++ Text.quote path, [reason.message]⟩

/-- A file that was created but cannot be written. -/
def explainUnwritten (path : String) (reason : Errno) : Explanation :=
  ⟨"Failed to write to output file: " ++ Text.quote path, [reason.message]⟩

end Lifeline.Report
