import JvmTaint.Text.Split

set_option autoImplicit false
set_option relaxedAutoImplicit false

/-!
# Locations of files

Names of files with slashes between their parts.

## Main definitions

* `JvmTaint.Location.clean`: the shortest name of the same place.
* `JvmTaint.Location.parent`: the directory of a file.
* `JvmTaint.Location.join`: a name inside a directory.
-/

namespace JvmTaint.Location

/-- Whether a name starts at the root. -/
def isAbsolute (path : String) : Bool := path.toList.head? == some '/'

/-- Adds a part to the parts before it, last first. A part `..` takes back the part before it. -/
def addPart (rooted : Bool) (parts : List String) (part : String) : List String :=
  if part == "" || part == "." then parts
  else if part == ".." then
    match parts with
    | [] => if rooted then [] else [".."]
    | last :: before => if last == ".." then ".." :: parts else before
  else part :: parts

/-- The shortest name of the same place. The empty name is the current directory. -/
def clean (path : String) : String :=
  let rooted := isAbsolute path
  let parts := ((Text.split '/' path).foldl (addPart rooted) []).reverse
  let body := "/".intercalate parts
  if rooted then "/" ++ body else if parts.isEmpty then "." else body

/-- The directory of a file. -/
def parent (path : String) : String :=
  match (Text.split '/' path).reverse with
  | [] => "."
  | _ :: before => clean ("/".intercalate (before.reverse ++ (if before.isEmpty then [] else [""])))

/-- The place of a name inside a directory. -/
def join (dir name : String) : String :=
  match [dir, name].filter (!·.isEmpty) with
  | [] => ""
  | parts => clean ("/".intercalate parts)

end JvmTaint.Location
