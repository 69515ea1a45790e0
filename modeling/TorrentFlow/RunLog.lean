import TorrentFlow.Table

/-!
# The run log

Each run starts a log file of its own, in place of the one before. The file system is kept as a list
of directories and a list of files with their contents, both by the components of their paths; what
is not listed does not exist. Making the directory of the log fails where a file stands in the way,
and making the file where a directory does.
-/

namespace TorrentFlow

abbrev Components := List String

/-- Directories, and files with their contents. The directory that everything is in is always
there. -/
structure Volume where
  directories : List Components := []
  files : List (Components × String) := []

namespace Volume

def content? (v : Volume) (path : Components) : Option String :=
  (v.files.find? fun f => f.1 == path).map (·.2)

def isFile (v : Volume) (path : Components) : Bool := (v.content? path).isSome

def isDirectory (v : Volume) (path : Components) : Bool :=
  path.isEmpty || v.directories.contains path

/-- The components of a written path; empty ones and those that stay where they are count for
nothing. -/
def components (path : String) : Components :=
  (path.splitOn "/").filter fun c => c != "" && c != "."

def maxName : Nat := 255

def isName (name : String) : Bool :=
  decide (name.utf8ByteSize ≤ maxName) && !name.toList.contains '\x00'

def makeDirectory (v : Volume) (path : Components) : Option Volume :=
  if v.isFile path then none
  else if v.isDirectory path then some v
  else some { v with directories := v.directories ++ [path] }

/-- Makes every directory on the way along `names` from the directory `here`, and answers where the
way leads. Two dots go back up, but not above the top. -/
def makeDirectories (v : Volume) (here : Components) : Components → Option (Components × Volume)
  | [] => some (here, v)
  | ".." :: names => makeDirectories v here.dropLast names
  | name :: names =>
    if !isName name then none
    else
      match v.makeDirectory (here ++ [name]) with
      | none => none
      | some v => makeDirectories v (here ++ [name]) names

def createFile (v : Volume) (path : Components) : Option Volume :=
  if v.isDirectory path then none
  else some { v with files := v.files.filter (fun f => f.1 != path) ++ [(path, "")] }

def append (v : Volume) (path : Components) (text : String) : Volume :=
  { v with files := v.files.map fun f => if f.1 = path then (f.1, f.2 ++ text) else f }

def place (v : Volume) (path content : String) : Volume :=
  match (components path).reverse with
  | [] => v
  | name :: parents =>
    match v.makeDirectories [] parents.reverse with
    | none => v
    | some (here, v) =>
      match v.createFile (here ++ [name]) with
      | none => v
      | some v => v.append (here ++ [name]) content

end Volume

namespace RunLog

def fileName : String := "undertow-last-run.log"

def defaultDirectory : String := "logs"

def dropHere : List Char → List Char
  | '.' :: '/' :: rest => dropHere rest
  | '/' :: rest => dropHere rest
  | rest => rest

/-- The written path of the log file in a directory. Inside, the path stays as it was given. -/
def path (directory : String) : String :=
  let parent := if directory == "" || directory.endsWith "/" then directory else directory ++ "/"
  String.ofList (dropHere (parent ++ fileName).toList)

structure Prepared where
  volume : Volume
  file : Components

/-- Makes the directory if need be, and an empty log file in it; none if that is impossible. -/
def prepare (v : Volume) (directory : String) : Option Prepared :=
  match v.makeDirectories [] (Volume.components directory) with
  | none => none
  | some (here, v) => (v.createFile (here ++ [fileName])).map fun v => ⟨v, here ++ [fileName]⟩

end RunLog

end TorrentFlow
