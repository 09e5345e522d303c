import HtmlMarkdown.CommandLine.Run
import Std.Time.DateTime.Timestamp

/-!
The program: reads the input that its arguments name and prints it in the format asked for. It
starts no other programs, so the clipboard is out of its reach and reads as lacking a program.
-/
namespace HtmlMarkdown.CommandLine

open World

def systemError : IO.Error → SystemError
  | .noFileOrDirectory .. => .notFound
  | .permissionDenied .. => .permissionDenied
  | .inappropriateType _ number words =>
    if number = 20 then .notADirectory
    else if number = 21 then .isADirectory
    else .other number.toNat words
  | .invalidArgument _ number words => .other number.toNat words
  | error => .other 5 (toString error)

def readFile (path : String) : IO (Except SystemError (List UInt8)) := do
  try
    let bytes ← IO.FS.readBinFile path
    return .ok bytes.toList
  catch error => return .error (systemError error)

/-- Reads a stream to its end. -/
partial def readAll (stream : IO.FS.Stream) (read : ByteArray) : IO ByteArray := do
  let more ← stream.read 65536
  if more.isEmpty then return read else readAll stream (read ++ more)

def readInput (o : Options) : IO (Except RunError String) := do
  match o.input with
  | .clipboard => return (o.readInput {}).1
  | .standardInput => return htmlOfStandardInput (← readAll (← IO.getStdin) .empty).toList
  | .file path => return o.htmlOfFile path (← readFile path)

/-- Puts the time at the end of the opt-in file if there is one. -/
def recordRun : IO Unit := do
  match Telemetry.file? (← IO.getEnv "HOME") with
  | none => return
  | some path =>
    try
      let _ ← IO.FS.Handle.mk path .readWrite
      let file ← IO.FS.Handle.mk path .append
      let now ← Std.Time.Timestamp.now
      file.write ⟨(Telemetry.stamp now.toMillisecondsSinceUnixEpoch.val).toArray⟩
    catch _ => return

def runProgram (arguments : List String) : IO Report := do
  match Options.ofArguments arguments with
  | .error r => return .ofRejection r
  | .ok o =>
    match ← readInput o with
    | .error e => return .ofResult (.error e)
    | .ok input =>
      recordRun
      return .ofResult (o.output input)

end HtmlMarkdown.CommandLine

def main (arguments : List String) : IO UInt32 := do
  let report ← HtmlMarkdown.CommandLine.runProgram arguments
  (← IO.getStdout).putStr report.output
  (← IO.getStderr).putStr report.complaint
  return report.status.toUInt32
