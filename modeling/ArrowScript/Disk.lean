import ArrowScript.Path
import ArrowScript.Text.Quoted

/-!
# Disks

A disk is a list of directories and a list of files with their texts. All paths are
absolute and normalized. A file can be written where its directory exists and no
directory has its name, unless that name or the path is too long; otherwise the disk
refuses with the reason, and stays as it is. A file that is written again keeps its
place in the list.
-/

namespace ArrowScript

/-- The reasons for which a file cannot be written. -/
inductive Refusal where
  | missingDirectory
  | blockedByFile
  | blockedByDirectory
  | nameTooLong
  deriving DecidableEq, Repr

/-- The text that reports why a path cannot be written. The path is given as it was
asked for. -/
def Refusal.message (refusal : Refusal) (path : String) : String :=
  let reason := match refusal with
    | missingDirectory => "[Errno 2] No such file or directory"
    | blockedByFile => "[Errno 20] Not a directory"
    | blockedByDirectory => "[Errno 21] Is a directory"
    | nameTooLong => "[Errno 36] File name too long"
  s!"{reason}: {Text.quoted path}"

/-- Directories and files by their absolute paths. -/
structure Disk where
  directories : List String := []
  files : List (String × String) := []
  deriving DecidableEq, Repr, Inhabited

namespace Disk

/-- The text of a file, if there is one. -/
def read? (disk : Disk) (path : String) : Option String := disk.files.lookup path

/-- Files with the text of one of them replaced, or with a further file. -/
def replace (path text : String) : List (String × String) → List (String × String)
  | [] => [(path, text)]
  | (name, old) :: rest =>
    if name = path then (path, text) :: rest else (name, old) :: replace path text rest

/-- The names along a path. -/
def names (path : String) : List String :=
  ((Text.split '/' path.toList).filter (!·.isEmpty)).map String.ofList

/-- The directories to which names lead, one after the other, from a directory down. -/
def directoriesBelow (directory : String) : List String → List String
  | [] => []
  | name :: rest =>
    let path := directory ++ "/" ++ name
    path :: directoriesBelow path rest

/-- The disk that holds a directory, files, and the directories on the way to them. -/
def holding (directory : String) (files : List (String × String)) : Disk :=
  { directories := (directory :: files.map (Path.parent ·.1)).flatMap fun path =>
      directoriesBelow "" (names path)
    files }

/-- The number of bytes that a name in a directory can have. -/
def longestName : Nat := 255

/-- The number of bytes that a path can have. -/
def longestPath : Nat := 4095

/-- Follows names down from a directory, and gives the reason for which no file can be
written at the end. -/
def refusalBelow (disk : Disk) (directory : String) : List String → Option Refusal
  | [] => some .blockedByDirectory
  | name :: rest =>
    let path := directory ++ "/" ++ name
    if name.utf8ByteSize > longestName then some .nameTooLong
    else if disk.directories.contains path then disk.refusalBelow path rest
    else if rest.isEmpty then none
    else if (disk.read? path).isSome then some .blockedByFile
    else some .missingDirectory

/-- The reason for which no file can be written at a path, if there is one. -/
def refusal? (disk : Disk) (path : String) : Option Refusal :=
  if path.utf8ByteSize > longestPath then some .nameTooLong
  else disk.refusalBelow "" (names path)

/-- Writes a file. -/
def write (disk : Disk) (path text : String) : Except Refusal Disk :=
  match disk.refusal? path with
  | some refusal => .error refusal
  | none => .ok { disk with files := replace path text disk.files }

/-- A file that was written has its text. -/
theorem lookup_replace_self (path text : String) (files : List (String × String)) :
    (replace path text files).lookup path = some text := by
  induction files with
  | nil => simp [replace]
  | cons file rest inductionHypothesis =>
    obtain ⟨name, old⟩ := file
    by_cases same : name = path
    · simp [replace, same]
    · have other : (path == name) = false := beq_eq_false_iff_ne.2 (Ne.symm same)
      simp only [replace, if_neg same, List.lookup_cons, other, inductionHypothesis]

end Disk

end ArrowScript
