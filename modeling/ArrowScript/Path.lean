import ArrowScript.Text.Split

/-!
# File paths

Paths are texts whose parts are separated by slashes. They are made absolute and
normalized by their text alone, without looking at any file: empty parts and parts
that are a single dot are dropped, and two dots take the part before them away.

A path that begins with exactly two slashes keeps them both; more are one.
-/

namespace ArrowScript.Path

/-- Adds a part to the normalized parts before it, of which the last one comes first. -/
def addPart (rooted : Bool) (before : List (List Char)) (part : List Char) : List (List Char) :=
  if part = [] ∨ part = ['.'] then before
  else if part = ['.', '.'] then
    match before with
    | [] => if rooted then [] else [part]
    | last :: earlier => if last = ['.', '.'] then part :: before else earlier
  else part :: before

/-- The slashes that a normalized path begins with. -/
def leadingSlashes : List Char → List Char
  | '/' :: '/' :: '/' :: _ => ['/']
  | '/' :: '/' :: _ => ['/', '/']
  | '/' :: _ => ['/']
  | _ => []

/-- A path without redundant parts. An empty path is the current directory. -/
def normalize (path : String) : String :=
  let characters := path.toList
  let slashes := leadingSlashes characters
  let normalized := ((Text.split '/' characters).foldl (addPart !slashes.isEmpty) []).reverse
  let text := slashes ++ ['/'].intercalate normalized
  if text.isEmpty then "." else String.ofList text

/-- A path that does not depend on the working directory. -/
def absolute (workingDirectory path : String) : String :=
  if path.startsWith "/" then normalize path
  else if workingDirectory.endsWith "/" then normalize (workingDirectory ++ path)
  else normalize (workingDirectory ++ "/" ++ path)

/-- The length of the last extension of a file name that is given backwards, or nothing
if the name has none. Dots at the beginning of a name begin no extension. -/
def extensionLength (backwards : List Char) : Option Nat :=
  let name := backwards.takeWhile (· != '/')
  let extension := name.takeWhile (· != '.')
  let stem := (name.dropWhile (· != '.')).drop 1
  if stem.any (· != '.') then some (extension.length + 1) else none

/-- A path without the extension of its file name. -/
def withoutExtension (path : String) : String :=
  let backwards := path.toList.reverse
  match extensionLength backwards with
  | some length => String.ofList (backwards.drop length).reverse
  | none => path

/-- The directory that contains a path. -/
def parent (path : String) : String :=
  match path.toList.reverse.dropWhile (· != '/') with
  | [] => "."
  | [slash] => String.singleton slash
  | _ :: directory => String.ofList directory.reverse

end ArrowScript.Path
