import Lifeline.Errno

/-! Paths of files.

A path is taken apart at its slashes; what stands between two that touch says nothing. A
text that holds the null character, is empty or is too long is refused before any file is
looked for (`Path.read?`). -/
namespace Lifeline.Files

/-- Why a file cannot be used. -/
inductive FileError where
  /-- The null character ends a path and cannot stand in it. -/
  | nullInPath
  | refused (reason : Errno)
  deriving DecidableEq, Repr

def FileError.message : FileError → String
  | nullInPath => "file name contained an unexpected NUL byte"
  | refused reason => reason.message

/-- Where a file or directory lies: the names to enter one after the other, beginning at
the root of all. -/
abbrev Place := List String

/-- What lies under a name at a place; two names lead nowhere and up. -/
def Place.enter (place : Place) (name : String) : Place :=
  if name = "." then place
  else if name = ".." then place.dropLast
  else place ++ [name]

/-- A path as it is written. -/
structure Path where
  /-- Whether it begins at the root. -/
  isAbsolute : Bool
  names : List String
  /-- Whether a slash follows the last name. -/
  endsInSlash : Bool
  deriving DecidableEq, Repr

namespace Path

/-- Bytes of the longest path. -/
def maxLength : Nat := 4095

/-- Bytes of the longest name in a path. -/
def maxNameLength : Nat := 255

def ofString (text : String) : Path where
  isAbsolute := text.toList.head? == some '/'
  names := (text.splitOn "/").filter (· != "")
  endsInSlash := text.toList.getLast? == some '/'

/-- The path of a text, if it can be one. -/
def read? (text : String) : Except FileError Path :=
  if '\x00' ∈ text.toList then .error .nullInPath
  else if text = "" then .error (.refused .noSuchFile)
  else if maxLength < text.utf8ByteSize then .error (.refused .nameTooLong)
  else .ok (ofString text)

end Path

end Lifeline.Files
