import IncBackup.File.Record

/-!
# Lexical paths

`File.Path` joins a record's root and name with `filepath.Join`, which cleans
the result with `filepath.Clean`.  Both are modelled here element by element:
`Clean` drops empty and `.` elements, lets each `..` cancel the real element
before it (or vanish at the root of an absolute path), and writes the rest back
with single separators, an empty relative path becoming `.`.
-/

namespace IncBackup

namespace Filepath

/-- The separator `/`. -/
def separator : UInt8 := 47

/-- The dot `.` of the `.` and `..` elements. -/
def dot : UInt8 := 46

/-- The elements of a path between its separators, empty ones included. -/
def elements : GoString → List GoString
  | [] => [[]]
  | byte :: rest =>
    match elements rest with
    | [] => [[byte]]
    | first :: others =>
      if byte = separator then [] :: first :: others else (byte :: first) :: others

/-- One element of `Clean`, on the stack of kept elements (top first). -/
def cleanStep (rooted : Bool) (stack : List GoString) (element : GoString) : List GoString :=
  if element = [] ∨ element = [dot] then stack
  else if element = [dot, dot] then
    match stack with
    | top :: rest => if top = [dot, dot] then (if rooted then stack else element :: stack) else rest
    | [] => if rooted then [] else [element]
  else element :: stack

/-- `filepath.Clean`. -/
def clean (path : GoString) : GoString :=
  let rooted := path.head? = some separator
  let kept := ((elements path).foldl (cleanStep rooted) []).reverse
  let body := [separator].intercalate kept
  if rooted then separator :: body
  else if body = [] then [dot] else body

/-- `filepath.Join` of two elements: leading empty elements are ignored. -/
def join (directory name : GoString) : GoString :=
  if directory ≠ [] then clean (directory ++ separator :: name)
  else if name ≠ [] then clean name
  else []

example : clean (ascii "/a//b/./../c/") = ascii "/a/c" := by decide
example : clean (ascii "../x/..") = ascii ".." := by decide

/-- `filepath.Dir`: the path up to its last separator, cleaned. -/
def dir (path : GoString) : GoString :=
  clean (path.reverse.dropWhile (· ≠ separator)).reverse

/-- `filepath.Base`: the last element, trailing separators dropped; `.` for an empty path
and `/` for a path of separators only. -/
def base (path : GoString) : GoString :=
  if path = [] then [dot]
  else
    let trimmed := path.reverse.dropWhile (· = separator)
    if trimmed = [] then [separator] else (trimmed.takeWhile (· ≠ separator)).reverse

example : dir (ascii "/home/u/f") = ascii "/home/u" ∧ base (ascii "/home/u/f") = ascii "f" := by
  decide

end Filepath

/-- `File.Path`: the full path `filepath.Join(Root, Name)`. -/
def File.path (file : File) : GoString := Filepath.join file.root file.name

end IncBackup
