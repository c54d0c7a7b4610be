import Schematic.Entries
import Schematic.Text.Pieces
/-!
A tree of text files, looked at from a working folder in it.
-/

namespace Schematic

namespace Files

inductive Found
  | nothing
  | folder
  | text (content : String)
  | unnameable
  deriving DecidableEq

inductive Error
  | notFound
  | isFolder
  | notFolder
  | alreadyFile
  | longName
  | nulCharacter
  deriving DecidableEq, Repr

def Error.message : Error → String
  | notFound => "No such file or directory"
  | isFolder => "Is a directory"
  | notFolder => "Not a directory"
  | alreadyFile => "File exists"
  | longName => "File name too long"
  | nulCharacter => "embedded null byte"

/-- The greatest number of bytes in a name and in a path. -/
def maxName : Nat := 255

def maxPath : Nat := 4095

/-- The names along a path; a dot stands for where it is. -/
def names (path : String) : List String :=
  ((Text.runs (· == '/') path.toList).map String.ofList).filter (· != ".")

/-- The slashes that a path begins with. Two of them are kept apart from one; more than two are one. -/
def leading (path : String) : String :=
  match path.toList.takeWhile (· == '/') with
  | [] => ""
  | [_, _] => "//"
  | _ => "/"

def tidyPath (path : String) : String :=
  let tidied := leading path ++ "/".intercalate (names path)
  if tidied = "" then "." else tidied

def lastName (path : String) : String :=
  (names path).getLastD ""

/-- The last name of a path without its extension. A dot at either end of a name begins none. -/
def stem (path : String) : String :=
  let name := (lastName path).toList
  match name.reverse.dropWhile (· != '.') with
  | _ :: front =>
    if front.isEmpty || name.getLast? = some '.' then String.ofList name
    else String.ofList front.reverse
  | [] => String.ofList name

def start (path : String) : List String :=
  if path.startsWith "/" then ["/"] else []

/-- The folder around a place. The working folder lies in folders without known names. -/
def around (place : List String) : List String :=
  if place = ["/"] then place
  else if place.all (· == "..") then place ++ [".."]
  else place.dropLast

def standardFolders : List String :=
  ["bin", "boot", "dev", "etc", "home", "lib", "media", "mnt", "opt", "proc", "root", "run", "sbin",
    "srv", "sys", "tmp", "usr", "var"]

/-- What lies at a place whatever has been written: the working folder, the folders around it, the
root with its standard folders, and the device that is always empty. -/
def fixed? (place : List String) : Option Found :=
  match place with
  | ["/"] => some .folder
  | ["/", name] => if name ∈ standardFolders then some .folder else none
  | ["/", "dev", "null"] => some (.text "")
  | names => if names.all (· == "..") then some .folder else none

end Files

/-- Files and folders by their places, the names that lead to them from the working folder or from
the root. -/
structure Files where
  entries : Entries (List String) Files.Found
  deriving Inhabited

namespace Files

def empty : Files := ⟨[]⟩

def node (fs : Files) (place : List String) : Found :=
  match fixed? place with
  | some found => found
  | none => (fs.entries.get? place).getD .nothing

def put (fs : Files) (place : List String) (found : Found) : Files :=
  match fixed? place with
  | some _ => fs
  | none => ⟨fs.entries.put place found⟩

/-- Where names lead from a place: all but the last must be folders. -/
def follow (fs : Files) : List String → List String → Except Error (List String)
  | place, [] => .ok place
  | place, n :: ns =>
    match fs.node place with
    | .folder =>
      if maxName < n.utf8ByteSize then .error .longName
      else fs.follow (if n = ".." then around place else place ++ [n]) ns
    | .text _ => .error .notFolder
    | .nothing | .unnameable => .error .notFound

def locate (fs : Files) (path : String) : Except Error (List String) :=
  if path.contains '\x00' then .error .nulCharacter
  else if maxPath < (tidyPath path).utf8ByteSize then .error .longName
  else fs.follow (start path) (names path)

def find (fs : Files) (path : String) : Found :=
  match fs.locate path with
  | .ok place => fs.node place
  | .error .longName => .unnameable
  | .error _ => .nothing

def read (fs : Files) (path : String) : Except Error String := do
  match fs.node (← fs.locate path) with
  | .text content => return content
  | .folder => throw .isFolder
  | .nothing | .unnameable => throw .notFound

def write (fs : Files) (path content : String) : Except Error Files := do
  let place ← fs.locate path
  match fs.node place with
  | .folder => throw .isFolder
  | _ => return fs.put place (.text content)

def makeFolders (fs : Files) (place : List String) : List String → Except Error Files
  | [] => .ok fs
  | n :: ns =>
    if n = ".." then fs.makeFolders (around place) ns
    else if maxName < n.utf8ByteSize then .error .longName
    else
      let place := place ++ [n]
      match fs.node place with
      | .folder => fs.makeFolders place ns
      | .text _ => .error (if ns.isEmpty then .alreadyFile else .notFolder)
      | .nothing | .unnameable => makeFolders (fs.put place .folder) place ns

def writeWithFolder (fs : Files) (path content : String) : Except Error Files := do
  if path.contains '\x00' then throw .nulCharacter
  (← fs.makeFolders (start path) (names path).dropLast).write path content

def texts (fs : Files) : List (String × String) :=
  fs.entries.filterMap fun (place, found) =>
    match found with
    | .text content =>
      if place.head? = some ".." || place.head? = some "/" then none
      else some ("/".intercalate place, content)
    | _ => none

end Files

end Schematic
