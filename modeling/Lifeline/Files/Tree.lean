import Lifeline.Files.Path

/-! Files and directories, and what reading and writing them does.

A path is walked name by name (`Tree.walk`): every place that is entered from must be a
directory, and only there is the length of the next name looked at. To read, the whole
path is walked; to write, all but its last name, so that the file may be new. -/
namespace Lifeline.Files

/-- What lies at a place. -/
inductive Entry where
  | directory
  | file (content : List UInt8)
  /-- Reads as empty and forgets what is written. -/
  | null
  /-- Reads as empty and has no room. -/
  | full
  deriving DecidableEq, Repr

/-- Files and directories, and the directory that paths begin at. -/
structure Tree where
  workingDirectory : Place
  entries : List (Place × Entry)

namespace Tree

/-- What lies at a place, if anything: places above an entry are directories. -/
def find? (t : Tree) (place : Place) : Option Entry :=
  match t.entries.find? (·.1 == place) with
  | some found => some found.2
  | none =>
    if place.isPrefixOf t.workingDirectory ∨ t.entries.any (place.isPrefixOf ·.1) then
      some .directory
    else none

/-- Where a path begins. -/
def start (t : Tree) (path : Path) : Place :=
  if path.isAbsolute then [] else t.workingDirectory

/-- Goes on from a place by one name. -/
def step (t : Tree) (place : Place) (name : String) : Except Errno Place :=
  match t.find? place with
  | none => .error .noSuchFile
  | some .directory =>
    if Path.maxNameLength < name.utf8ByteSize then .error .nameTooLong
    else .ok (place.enter name)
  | some _ => .error .notADirectory

/-- Goes on from a place by names in order; nothing need lie where the last one leads. -/
def walk (t : Tree) (place : Place) : List String → Except Errno Place
  | [] => .ok place
  | name :: rest => do
    let place ← t.step place name
    t.walk place rest

/-- Content of the entry at a place. -/
def content (t : Tree) (place : Place) : Except Errno (List UInt8) :=
  match t.find? place with
  | none => .error .noSuchFile
  | some .directory => .error .isADirectory
  | some (.file content) => .ok content
  | some .null => .ok []
  | some .full => .ok []

/-- Content of a file; a slash behind its name asks for a directory. -/
def read (t : Tree) (text : String) : Except FileError (List UInt8) := do
  let path ← Path.read? text
  let names := if path.endsInSlash then path.names ++ ["."] else path.names
  (t.walk (t.start path) names >>= t.content).mapError .refused

/-- Where a file is created, or emptied if it is there already; the last name may not be
that of a directory, nor ask for one. -/
def create (t : Tree) (text : String) : Except FileError Place := do
  let path ← Path.read? text
  let last := if path.endsInSlash then "." else path.names.getLast?.getD "."
  let target := do
    let parent ← t.walk (t.start path) path.names.dropLast
    t.step parent last
  let place ← target.mapError .refused
  if t.find? place = some .directory then .error (.refused .isADirectory)
  else .ok place

/-- A tree with a file at a place. -/
def put (t : Tree) (place : Place) (content : List UInt8) : Tree :=
  { t with entries := (place, .file content) :: t.entries.filter (·.1 != place) }

/-- Fills the file that was created at a place. -/
def fill (t : Tree) (place : Place) (content : List UInt8) : Except Errno Tree :=
  match t.find? place with
  | some .full => if content = [] then .ok t else .error .noSpaceLeft
  | some .null => .ok t
  | _ => .ok (t.put place content)

/-! ### Where sessions run -/

/-- Names of the directories at the root. -/
def rootDirectories : List String :=
  [ "bin", "boot", "dev", "etc", "home", "lib", "media", "mnt", "opt", "proc", "root", "run",
    "sbin", "srv", "sys", "tmp", "usr", "var" ]

/-- A system with an empty working directory. Its name holds a slash: a path that leaves it
does not find back. -/
def blank : Tree where
  workingDirectory := ["tmp", "session/"]
  entries :=
    [(["dev", "null"], .null), (["dev", "full"], .full)] ++
      rootDirectories.map fun name => ([name], .directory)

/-- A tree with one more file; its path is taken as it is written. -/
def addFile (t : Tree) (text : String) (content : List UInt8) : Tree :=
  let path := Path.ofString text
  t.put (path.names.foldl Place.enter (t.start path)) content

/-- A tree with one more directory, that of a file. -/
def addParent (t : Tree) (text : String) : Tree :=
  let path := Path.ofString text
  let place := path.names.dropLast.foldl Place.enter (t.start path)
  { t with entries := t.entries ++ [(place, .directory)] }

/-- A system whose working directory holds these files. -/
def ofFiles (files : List (String × List UInt8)) : Tree :=
  files.foldl (fun t file => t.addFile file.1 file.2) blank

end Tree

end Lifeline.Files
