import HtmlMarkdown.Text.Split

/-!
The files that a run of the program can see. A path is followed component by component, from the
working folder or from the root, and the file that it leads to is known by the names on the way
there from the root.
-/
namespace HtmlMarkdown.World

/-- Why the operating system refuses something. -/
inductive SystemError where
  | notFound
  | permissionDenied
  | notADirectory
  | isADirectory
  | nameTooLong
  | nulInName
  | invalidUtf8
  /-- Anything else, by its number and the system's words for it. -/
  | other (number : Nat) (words : String)
deriving DecidableEq, Repr

def SystemError.message : SystemError → String
  | notFound => "No such file or directory (os error 2)"
  | permissionDenied => "Permission denied (os error 13)"
  | notADirectory => "Not a directory (os error 20)"
  | isADirectory => "Is a directory (os error 21)"
  | nameTooLong => "File name too long (os error 36)"
  | nulInName => "file name contained an unexpected NUL byte"
  | invalidUtf8 => "stream did not contain valid UTF-8"
  | other number words => words ++ " (os error " ++ toString number ++ ")"

/-- What the system does not let anyone do with a file, and why. -/
structure Guard where
  reading : Option SystemError := none
  writing : Option SystemError := none
  /-- The folder that holds the file may forbid this while the file can be read. -/
  removing : Option SystemError := none
deriving DecidableEq

inductive Entry where
  | regular (bytes : List UInt8) (guard : Guard)
  | directory
deriving DecidableEq

/-- A file with which everything may be done. -/
@[match_pattern]
def Entry.file (bytes : List UInt8) : Entry := .regular bytes {}

/-- A place that a path leads to, by the names on the way there from the root. -/
structure Place where
  names : List (List Char) := []
deriving DecidableEq

/-- The files and folders that there are, each under the key of its place. What is not among them
reads as missing, but the root and the working folder need not be listed, nor what the way up from
there leads to. -/
structure Folder where
  entries : List (String × Entry) := []
  /-- The working folder, from which a path is followed that does not start at the root. -/
  start : Place := {}
deriving DecidableEq

namespace Place

/-- The path from the root to the place that makes no detour. -/
def key (place : Place) : String := String.ofList (['/'].intercalate place.names)

def below (place : Place) (name : List Char) : Place := ⟨place.names ++ [name]⟩

/-- The folder that holds the place. The root has none but itself. -/
def above (place : Place) : Place := ⟨place.names.dropLast⟩

/-- The place that a component of a path leads to. -/
def step (place : Place) (component : List Char) : Place :=
  if component = [] ∨ component = ['.'] then place
  else if component = ['.', '.'] then place.above
  else place.below component

/-- Where a path sets out, and the components that it follows from there. -/
def route (start : Place) (path : String) : Place × List (List Char) :=
  match Text.splitAt '/' path.toList with
  | [] :: rest => ({}, rest)
  | components => (start, components)

/-- The place that a path names, whatever is there. -/
def follow (start : Place) (path : String) : Place :=
  (start.route path).2.foldl step (start.route path).1

end Place

namespace Folder

def lookup? (folder : Folder) (key : String) : Option Entry :=
  (folder.entries.find? fun entry => entry.1 == key).map Prod.snd

/-- The folder without what has the given key. -/
def without (folder : Folder) (key : String) : Folder :=
  { folder with entries := folder.entries.filter fun entry => entry.1 != key }

/-- The folder with nothing under the key but the given entry. -/
def put (folder : Folder) (key : String) (entry : Entry) : Folder :=
  { folder with entries := (key, entry) :: (folder.without key).entries }

/-- Goes along the components of a path. The walk stands at the given place, where the given entry
is. The outcome is the key of the place at which the path ends, and what is there. -/
def walk (folder : Folder) (place : Place) (entry : Entry) :
    List (List Char) → Except SystemError (String × Entry)
  | [] => .ok (place.key, entry)
  | component :: rest =>
    match entry with
    | .regular _ _ => .error .notADirectory
    | .directory =>
      if component = [] ∨ component = ['.'] then walk folder place .directory rest
      else if 255 < (String.ofList component).utf8ByteSize then .error .nameTooLong
      else if component = ['.', '.'] then walk folder place.above .directory rest
      else
        match folder.lookup? (place.below component).key with
        | none => .error .notFound
        | some entry => walk folder (place.below component) entry rest

/-- The key and the entry that a path leads to. A path of 4096 bytes or more leads nowhere. -/
def locate (folder : Folder) (path : String) : Except SystemError (String × Entry) :=
  if path.toList.contains '\x00' then .error .nulInName
  else if 4096 ≤ path.utf8ByteSize then .error .nameTooLong
  else if path = "" then .error .notFound
  else folder.walk (folder.start.route path).1 .directory (folder.start.route path).2

def exists? (folder : Folder) (path : String) : Bool :=
  match folder.locate path with
  | .ok _ => true
  | .error _ => false

/-- The bytes of a file. -/
def read (folder : Folder) (path : String) : Except SystemError (List UInt8) :=
  match folder.locate path with
  | .ok (_, .regular bytes guard) =>
    match guard.reading with
    | some refusal => .error refusal
    | none => .ok bytes
  | .ok (_, .directory) => .error .isADirectory
  | .error e => .error e

/-- Takes away the file that a path leads to. Folders are not taken away. -/
def remove (folder : Folder) (path : String) : Except SystemError Folder :=
  match folder.locate path with
  | .ok (key, .regular _ guard) =>
    match guard.removing with
    | some refusal => .error refusal
    | none => .ok (folder.without key)
  | .ok (_, .directory) => .error .isADirectory
  | .error e => .error e

/-- Puts bytes at the end of the file that a path leads to. No file is made for them. -/
def append (folder : Folder) (path : String) (more : List UInt8) : Except SystemError Folder :=
  match folder.locate path with
  | .ok (key, .regular bytes guard) =>
    match guard.writing with
    | some refusal => .error refusal
    | none => .ok (folder.put key (.regular (bytes ++ more) guard))
  | .ok (_, .directory) => .error .isADirectory
  | .error e => .error e

end Folder
end HtmlMarkdown.World
