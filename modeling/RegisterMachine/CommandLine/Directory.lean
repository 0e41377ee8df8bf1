import RegisterMachine.CommandLine.Job

/-!
# Jobs on a directory

What a job comes to when its requests are answered from a working directory that is itself a value.
A path is followed part by part, and each part but the last has to lead to a directory: the working
directory, one above it, the top of the file system, or one in which a file lies.
-/

namespace RegisterMachine.CommandLine

/-- Where something lies, by the names on the way from the working directory. A step up is the name
`..`, and a way that starts at the top of the file system has an empty name in front. -/
abbrev Location := List String

/-- Files by location, the one written last first. -/
structure Directory where
  files : List (Location × List UInt8)

namespace Directory

/-! ## Problems -/

def absent : FileProblem :=
  .absent "No such file or directory (os error 2)"

def notDirectory : FileProblem :=
  .absent "Not a directory (os error 20)"

/-- The problem of a path or a name in it that is too long. -/
def nameTooLong : FileProblem :=
  .absent "File name too long (os error 36)"

def notFile : FileProblem :=
  .unusable "Is a directory (os error 21)"

def maxNameSize : Nat := 255

def maxPathSize : Nat := 4095

/-! ## Locations -/

/-- A working directory with files at paths that lead straight down. -/
def ofFiles (files : List (String × List UInt8)) : Directory :=
  ⟨files.map fun file =>
    ((file.1.splitOn "/").filter fun part => part != "" && part != ".", file.2)⟩

def contents? (directory : Directory) (location : Location) : Option (List UInt8) :=
  directory.files.lookup location

def isDirectory (directory : Directory) (location : Location) : Bool :=
  location.all (· == "..") || location == [""] ||
    directory.files.any fun file => location.isPrefixOf file.1 && location != file.1

/-- The directory that contains another one. The top contains itself. -/
def above (location : Location) : Location :=
  if location == [""] then location
  else if location.all (· == "..") then ".." :: location
  else location.dropLast

def follow (directory : Directory) (location : Location) :
    List String → Except FileProblem Location
  | [] => .ok location
  | part :: rest =>
    if !directory.isDirectory location then
      .error (if (directory.contents? location).isSome then notDirectory else absent)
    else if part == "" || part == "." then directory.follow location rest
    else if part == ".." then directory.follow (above location) rest
    else if maxNameSize < part.utf8ByteSize then .error nameTooLong
    else directory.follow (location ++ [part]) rest

/-- Follows some parts of a path from where the path starts. -/
def walk (directory : Directory) (path : String) (parts : List String) :
    Except FileProblem Location :=
  if path.isEmpty then .error absent
  else if maxPathSize < path.utf8ByteSize then .error nameTooLong
  else directory.follow (if path.startsWith "/" then [""] else []) parts

/-- The location that a path leads to. Nothing has to be there. -/
def locate (directory : Directory) (path : String) : Except FileProblem Location :=
  directory.walk path (path.splitOn "/")

/-- The location at which a path lets a file be written. A slash at the end asks for a directory,
and then the location is that of the directory around the last name. -/
def locateTarget (directory : Directory) (path : String) : Except FileProblem Location :=
  if path.endsWith "/" then
    let names := (path.splitOn "/").reverse.dropWhile (· == "")
    directory.walk path (names.tail.reverse ++ ["."])
  else directory.locate path

/-! ## Files -/

def get? (directory : Directory) (path : String) : Option (List UInt8) :=
  (directory.locate path).toOption.bind directory.contents?

def read (directory : Directory) (path : String) : Except FileProblem (List UInt8) := do
  let location ← directory.locate path
  match directory.contents? location with
  | some contents => return contents
  | none => throw (if directory.isDirectory location then notFile else absent)

def write (directory : Directory) (path : String) (contents : List UInt8) :
    Except FileProblem Directory := do
  let location ← directory.locateTarget path
  if directory.isDirectory location then throw notFile
  else return ⟨(location, contents) :: directory.files⟩

end Directory

/-- What a job comes to on a directory, given how a run ends; a run that does not end has no
report. -/
def Job.performOn (finish : Program → Progress → Option Ended) (directory : Directory) :
    Job → Option (Report × Directory)
  | .done report => some (report, directory)
  | .read path next => performOn finish directory (next (directory.read path))
  | .write path contents next =>
    match directory.write path contents with
    | .ok directory => performOn finish directory (next none)
    | .error problem => performOn finish directory (next (some problem))
  | .run program progress next =>
    match finish program progress with
    | some ended => performOn finish directory (next ended)
    | none => none

end RegisterMachine.CommandLine
