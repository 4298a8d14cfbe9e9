import Workbench.SandboxPaths
import Mathlib.Logic.Function.Basic

/-!
`write_file`, `read_file` and `list_files` of the autonomous agent, over a file system whose files
have UTF-8 text in them.
-/

namespace Workbench.Sandbox

open FileSystems PyJson KeyedTable

/-- `texts` tells what is in a file; of a path that is none it says nothing. -/
structure Disk where
  fs : FileSystem
  texts : Path → String

inductive ToolError
  | sandbox (error : SandboxError)
  | path (error : PathError)
  | isADirectory
  deriving DecidableEq

structure WorkspaceLibrary where
  dumps : List String → String

inductive ToolCall
  | writeFile (filename content : String)
  | readFile (filename : String)
  | listFiles

def maxFileBytes : ℕ := 100000

def rooted (fs : FileSystem) (env : Environment) (name : String) : FileSystem :=
  if PyText.strip name = "" ∨ isAbsolute name then fs
  else match workspaceRoot fs env with
    | .ok (made, _) => made
    | .error _ => fs

def refused (disk : Disk) : SandboxError → Disk × Except ToolError String
  | .valueError message => (disk, .ok ("rejected: " ++ message))
  | .raised error => (disk, .error (.path error))

def relative (root path : Path) : String :=
  if path = root then "." else "/".intercalate (path.drop root.length)

def writeText (disk : Disk) (path : Path) (content : String) : Except ToolError Disk :=
  match locate disk.fs true path with
  | .error error => .error (.path error)
  | .ok target =>
    if disk.fs.node target = some .dir then .error .isADirectory
    else .ok ⟨disk.fs.put (target, .file), Function.update disk.texts target content⟩

def writeFile (env : Environment) (disk : Disk) (filename content : String) :
    Disk × Except ToolError String :=
  if maxFileBytes < content.utf8ByteSize then
    (disk, .ok ("content too large (max " ++ toString maxFileBytes ++ " bytes)"))
  else
    match safePath disk.fs env filename with
    | .error error => refused { disk with fs := rooted disk.fs env filename } error
    | .ok (made, path) =>
      match makeDirs made path.names.dropLast with
      | .error error => ({ disk with fs := made }, .error (.path error))
      | .ok dirs =>
        match writeText { disk with fs := dirs } path.names content with
        | .error error => ({ disk with fs := dirs }, .error error)
        | .ok written =>
          match workspaceRoot written.fs env with
          | .error error => (written, .error (.sandbox error))
          | .ok (again, root) => ({ written with fs := again },
              .ok ("wrote " ++ toString content.length ++ " chars to " ++ relative root.names path.names))

/-- Text mode reads every line ending as a newline. -/
def universal : List Char → List Char
  | '\r' :: '\n' :: cs => '\n' :: universal cs
  | '\r' :: cs => '\n' :: universal cs
  | c :: cs => c :: universal cs
  | [] => []

def readText (text : String) : String := .ofList (universal text.toList)

def readFile (env : Environment) (disk : Disk) (filename : String) : Disk × Except ToolError String :=
  match safePath disk.fs env filename with
  | .error error => refused { disk with fs := rooted disk.fs env filename } error
  | .ok (made, path) => ({ disk with fs := made },
      match stat made path.names with
      | .error _ => .ok ("file not found: " ++ filename)
      | .ok target =>
        if made.node target = some .file then .ok (readText (disk.texts target))
        else .ok ("file not found: " ++ filename))

/-- The files beneath the root, by their names in it, sorted. Links to directories are not entered;
those to files are files. -/
def filesIn (fs : FileSystem) (root : Path) : List String :=
  match stat fs root with
  | .error _ => []
  | .ok top =>
    let inside := (fs.rows.map Prod.fst).filter fun path => top <+: path ∧ path ≠ top
    let files := (inside.map (List.drop top.length)).filter fun names => isFile fs (root ++ names)
    (files.map "/".intercalate).mergeSort fun a b => a ≤ b

def listFiles (lib : WorkspaceLibrary) (env : Environment) (disk : Disk) :
    Disk × Except ToolError String :=
  match workspaceRoot disk.fs env with
  | .error error => (disk, .error (.sandbox error))
  | .ok (made, root) =>
    let files := filesIn made root.names
    ({ disk with fs := made }, .ok (if files = [] then "(workspace is empty)" else lib.dumps files))

def callTool (lib : WorkspaceLibrary) (env : Environment) (disk : Disk) :
    ToolCall → Disk × Except ToolError String
  | .writeFile filename content => writeFile env disk filename content
  | .readFile filename => readFile env disk filename
  | .listFiles => listFiles lib env disk

def runTools (lib : WorkspaceLibrary) (env : Environment) (disk : Disk) (calls : List ToolCall) : Disk :=
  calls.foldl (fun disk call => (callTool lib env disk call).1) disk

end Workbench.Sandbox
