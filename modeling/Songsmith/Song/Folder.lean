import Songsmith.Document.Basic
import Songsmith.Text.Blank

/-!
# The folder of a run

The program runs in a folder that holds song documents and no other folder. `Folder.step` follows a
path name by name; what lies around the folder is known to be there, and of what it holds only the
null device is known. `Folder.read` is what a path gives to read, and `Folder.destination` where
something goes that is written to a path.
-/

namespace Songsmith

/-- What a path leads to. -/
inductive Place where
  /-- The folder itself. -/
  | here
  /-- A folder around it. -/
  | around
  /-- The folder that holds all others. -/
  | root
  /-- The folder of the devices. -/
  | devices
  /-- The device that is empty and takes everything. -/
  | nullDevice
  | document (d : Document)

namespace Place

/-- The folder that a folder is in. -/
def parent : Place → Place
  | here | around => around
  | _ => root

/-- The place is a folder. -/
def isFolder : Place → Bool
  | nullDevice | document _ => false
  | _ => true

/-- The place is the folder of the run. -/
def isHere : Place → Bool
  | here => true
  | _ => false

end Place

/-- A folder without folders in it, that holds song documents. -/
structure Folder where
  documents : List (Text × Document)

namespace Folder

/-- The number of bytes that a name may have. -/
def nameLimit : Nat := 255

/-- The number of bytes that a path has to stay below. -/
def pathLimit : Nat := 4096

/-- The number of bytes of a text. -/
def byteLength (text : Text) : Nat := (String.ofList text).utf8ByteSize

/-- The name stays in the folder that it is looked up in, or leads out of it. -/
def isRelative (name : Text) : Bool := name == [] || name == ['.'] || name == ['.', '.']

/-- What a name stands for in a folder. -/
def child? (folder : Folder) (place : Place) (name : Text) : Option Place :=
  match place with
  | .here => (folder.documents.find? (·.1 == name)).map fun entry => .document entry.2
  | .root => if name = "dev".toList then some .devices else none
  | .devices => if name = "null".toList then some .nullDevice else none
  | _ => none

/-- Follows one name of a path. -/
def step (folder : Folder) (place : Place) (name : Text) : Except Inaccessible Place :=
  if !place.isFolder then .error .notFolder
  else if name = ['.', '.'] then .ok place.parent
  else if isRelative name then .ok place
  else if nameLimit < byteLength name then .error .nameTooLong
  else (folder.child? place name).elim (.error .missing) .ok

/-- Follows the names of a path from where the path starts. -/
def follow (folder : Folder) (path : Text) (names : List Text) : Except Inaccessible Place :=
  if pathLimit ≤ byteLength path then .error .nameTooLong
  else if path.isEmpty then .error .missing
  else names.foldlM folder.step (if path.head? = some '/' then Place.root else Place.here)

/-- The document at a path. There is none behind a path that leads nowhere, and a folder cannot be
read. -/
def read (folder : Folder) (path : Text) : Except Error (Option Document) :=
  if path.contains '\x00' then .ok none
  else
    match folder.follow path (path.splitOn '/') with
    | .error _ => .ok none
    | .ok (.document d) => .ok (some d)
    | .ok .nullDevice => .ok (some .null)
    | .ok _ => .error (.inaccessible .folder path)

/-- Where in a folder a file of a name goes: the name, if that is a new file in the folder of the
run. -/
def fileIn (folder : Folder) (place : Place) (name : Text) : Except Inaccessible (Option Text) :=
  if nameLimit < byteLength name then .error .nameTooLong
  else
    match folder.child? place name with
    | none => .ok (if place.isHere then some name else none)
    | some found => if found.isFolder then .error .folder else .ok none

/-- Where something goes that is written to a path: the name of a new file in the folder of the run,
unless it replaces a document or goes elsewhere. A path that ends like that of a folder is none of a
file. -/
def target (folder : Folder) (path : Text) : Except Inaccessible (Option Text) := do
  let names := (Text.dropEndWhile (· == '/') path).splitOn '/'
  let name := names.getLast?.getD []
  let place ← folder.follow path (if isRelative name then path.splitOn '/' else names.dropLast)
  if !place.isFolder then .error .notFolder
  else if isRelative name || path.getLast? == some '/' then .error .folder
  else folder.fileIn place name

/-- The name of the new file, if there is one, that is written at a path. -/
def destination (folder : Folder) (path : Text) : Except Error (Option Text) :=
  if path.contains '\x00' then .error (.invalid .nullCharacter)
  else (folder.target path).mapError (.inaccessible · path)

end Folder

end Songsmith
