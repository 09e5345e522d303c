import HtmlMarkdown.World.Folder

/-!
Opt-in telemetry, which never leaves the machine: where the opt-in file exists, each run puts the
time at the end of it. Nothing ever makes the file.
-/
namespace HtmlMarkdown.Telemetry

open World

/-- Puts a component behind a path. -/
def join (path component : String) : String :=
  if path = "" then component
  else if path.toList.getLast? = some '/' then path ++ component
  else path ++ "/" ++ component

/-- Where the opt-in file of a home folder lies. -/
def fileIn (home : String) : String :=
  join (join (join home ".config") "2md") "local-telemetry-opt-in"

/-- Where the opt-in file lies; nowhere without a home folder. -/
def file? (home : Option String) : Option String := home.map fileIn

/-- The line that tells of a run at a number of milliseconds. -/
def stamp (millis : Int) : List UInt8 := (toString millis ++ "\n").toUTF8.data.toList

/-- Puts the time at the end of the file of the given path if there is one. The answer tells
whether it has been written. -/
def record (millis : Int) (path : String) (folder : Folder) : Except SystemError Bool × Folder :=
  if folder.exists? path then
    match folder.append path (stamp millis) with
    | .ok written => (.ok true, written)
    | .error e => (.error e, folder)
  else (.ok false, folder)

/-- What a run that is told of leaves. Failing to write is no error. -/
def tell (home : Option String) (millis : Int) (folder : Folder) : Folder :=
  match file? home with
  | none => folder
  | some path => (record millis path folder).2

end HtmlMarkdown.Telemetry
