import Std.Data.ExtTreeMap
import Lifeline.Address
import Lifeline.Log
import Lifeline.Text.Blank
import Lifeline.Text.Integer

/-! Names of kernel functions and their addresses.

The kernel lists its symbols one on a line: address, type, name and perhaps a module,
between blanks. Only text symbols (type `t` or `T`) are kept, and the first address of
a name stays. A kernel that hides its addresses lists them all as zero. -/
namespace Lifeline

/-- Addresses by name. -/
structure Symbols where
  addresses : Std.ExtTreeMap String Address compare

/-- Why a list of symbols cannot be used. -/
inductive SymbolsError where
  | notText
  | noTextSymbol
  | hidden
  deriving DecidableEq, Repr

def SymbolsError.explain : SymbolsError → Explanation
  | notText => ⟨"Failed to read kallsyms", ["stream did not contain valid UTF-8"]⟩
  | noTextSymbol => .plain "No text symbol found in kallsyms"
  | hidden =>
    .plain "Kernel addresses are hidden (check kernel.kptr_restrict and run as root)"

namespace Symbols

def addressOf? (s : Symbols) (name : String) : Option Address :=
  s.addresses[name]?

/-- Number of known names. -/
def size (s : Symbols) : Nat :=
  s.addresses.size

/-- A text symbol: its name and address. -/
structure Entry where
  name : String
  address : Address
  deriving DecidableEq

/-- The text symbol on a line, if there is one. -/
def readLine? (line : List Char) : Option Entry :=
  match Text.words line with
  | address :: kind :: name :: _ =>
    if kind = ['t'] ∨ kind = ['T'] then
      match Text.readNatural 16 (UInt64.size - 1) address with
      | .ok n => some ⟨String.ofList name, UInt64.ofNat n⟩
      | .error _ => none
    else none
  | _ => none

/-- Bytes as text, if they are UTF-8. -/
def decodeLine? (line : List UInt8) : Option (List Char) :=
  (String.fromUTF8? ⟨line.toArray⟩).map String.toList

/-- The text symbols of a list, line by line; nothing if a line is not text. -/
def readEntries? (bytes : List UInt8) : Option (List Entry) :=
  (bytes.splitOn 10).foldr
    (fun line later =>
      match decodeLine? line, later with
      | some line, some entries => some ((readLine? line).toList ++ entries)
      | _, _ => none)
    (some [])

/-- Keeps the first address of every name. -/
def ofEntries (entries : List Entry) : Symbols where
  addresses := entries.foldl (fun t e => t.insertIfNew e.name e.address) ∅

/-- Reads a list of symbols. -/
def read (bytes : List UInt8) : Except SymbolsError Symbols :=
  match readEntries? bytes with
  | none => .error .notText
  | some entries =>
    if entries = [] then .error .noTextSymbol
    else if entries.all (·.address == 0) then .error .hidden
    else .ok (ofEntries entries)

end Symbols

end Lifeline
