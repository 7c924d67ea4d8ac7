import ScatterGather.Cli.Session
/-!
Sessions played in a directory of text files instead of a file system.
-/
namespace ScatterGather.Cli

/-- The files by name, as seen from the working directory. A name with slashes lies in a directory
below it. -/
abbrev Directory := StringMap String

namespace Directory

/-- Names from the working directory on, the innermost first. In place of a name, `..` leads to the
directory above, and a blank one stands for the root. -/
abbrev Place := List String

def nameOf (p : Place) : String := "/".intercalate p.reverse

/-- The directory above; the root lies in itself. -/
def above : Place → Place
  | [] => [".."]
  | [""] => [""]
  | ".." :: p => ".." :: ".." :: p
  | _ :: p => p

/-- Directories that lie in the root of every system. -/
def systemDirectories : List Place :=
  ["bin", "boot", "dev", "etc", "home", "lib", "media", "mnt", "opt", "proc", "root", "run", "sbin",
    "srv", "sys", "tmp", "usr", "var"].map fun name => [name, ""]

/-- The file that is empty whatever is written to it. -/
def nullDevice : Place := ["null", "dev", ""]

/-- The working directory, those above it, those of the system and those that hold a file. -/
def isDirectory (d : Directory) (p : Place) : Bool :=
  p = [] ∨ p = [""] ∨ p.head? = some ".." ∨ p ∈ systemDirectories ∨
    d.keys.any fun name => (nameOf p ++ "/").toList.isPrefixOf name.toList

def content? (d : Directory) (p : Place) : Option String :=
  if p = nullDevice then some "" else d.get? (nameOf p)

/-- The greatest number of bytes in a name. -/
def longestName : Nat := 255

/-- The greatest number of bytes in a path. -/
def longestPath : Nat := 4095

/-- Whether a name leads to a directory wherever it stands. -/
def isLink (name : String) : Bool := name = "." ∨ name = ".."

/-- Goes from a directory into another one. -/
def enter (d : Directory) (p : Place) (name : String) : Except FileError Place :=
  if name = "." then .ok p
  else if name = ".." then .ok (above p)
  else if longestName < name.utf8ByteSize then .error .nameTooLong
  else if d.isDirectory (name :: p) then .ok (name :: p)
  else if (d.content? (name :: p)).isSome then .error .notDirectory
  else .error .notFound

/-- A path without its last name leads to a directory. -/
structure Target where
  place : Place
  last : String
  /-- Whether a slash stands behind the last name. -/
  wantsDirectory : Bool

/-- Each name on the way has to be one of a directory, also where the next one leads back. -/
def target (d : Directory) (path : String) : Except FileError Target := do
  if path = "" then throw .notFound
  if longestPath < path.utf8ByteSize then throw .nameTooLong
  let names := (path.splitOn "/").filter (· ≠ "")
  let origin : Place := if path.toList.head? = some '/' then [""] else []
  let place ← names.dropLast.foldlM d.enter origin
  return ⟨place, names.getLast?.getD ".", path.toList.getLast? = some '/'⟩

/-- A file is there to be read. -/
def find (d : Directory) (path : String) : Except FileError String := do
  let t ← d.target path
  if t.wantsDirectory ∨ isLink t.last then
    let _ ← d.enter t.place t.last
    throw .isDirectory
  if d.isDirectory (t.last :: t.place) then throw .isDirectory
  if longestName < t.last.utf8ByteSize then throw .nameTooLong
  match d.content? (t.last :: t.place) with
  | some content => return content
  | none => throw .notFound

def read (d : Directory) (path : String) : FileContent := (d.find path).map String.toUTF8

/-- Replaces a file, or puts a new one into a directory that is there. A write either fails before
the file is touched or writes the whole content: one that breaks off midway is left out. -/
def write (d : Directory) (path content : String) : Except FileError Directory := do
  let t ← d.target path
  if t.wantsDirectory ∨ isLink t.last ∨ d.isDirectory (t.last :: t.place) then throw .isDirectory
  if longestName < t.last.utf8ByteSize then throw .nameTooLong
  return StringMap.insert d (nameOf (t.last :: t.place)) content

end Directory

/-- What a session has printed, how it ended and the directory after it. -/
structure Transcript where
  printed : List String
  result : Except Failure Unit
  directory : Directory

def Transcript.printing (line : String) (t : Transcript) : Transcript :=
  { t with printed := line :: t.printed }

def Transcript.output (t : Transcript) : String := String.join (t.printed.map (· ++ "\n"))

/-- Plays a session; its pauses take no time. -/
def Session.play : Session → Directory → Transcript
  | .finish result, d => ⟨[], result, d⟩
  | .print line next, d => (next.play d).printing line
  | .pause _ next, d => next.play d
  | .load path next, d => (next (d.read path)).play d
  | .save path content next, d =>
    match d.write path content with
    | .ok d' => (next (.ok ())).play d'
    | .error e => (next (.error e)).play d

end ScatterGather.Cli
