import HtmlMarkdown.Clipboard.Formats
import HtmlMarkdown.Text.Blank
import HtmlMarkdown.World.Folder
import HtmlMarkdown.World.Program

/-!
Reading the clipboard. Each platform has a clipboard program of its own. They are tried in turn,
and one that cannot be found is passed over.
-/
namespace HtmlMarkdown.Clipboard

open World

/-- The clipboard programs, in the order in which they are tried. -/
structure Programs where
  osascript : Program := .missing
  xclip : Program := .missing
  powershell : Program := .missing
deriving DecidableEq

inductive ClipboardError where
  /-- A program could not be started, or what it produced could not be read. -/
  | system (error : SystemError)
  /-- A program ran and complained. -/
  | commandFailed (program : String) (complaint : String)
  /-- The clipboard holds something that is no formatted text. -/
  | noHtml
  | malformed (fault : FormatFault)
  | noProgram
deriving DecidableEq

def ClipboardError.message : ClipboardError → String
  | system error => "I/O error: " ++ error.message
  | commandFailed program complaint => program ++ " printed an error: " ++ complaint
  | noHtml => "the clipboard does not contain any formatted text"
  | malformed fault => "could not parse " ++ fault.program ++ " output: " ++ fault.reason
  | noProgram =>
    "unable to find a clipboard-reading program, please try file input instead"

/-- What a program has done, or why it did not start. -/
def start : Program → Except ClipboardError ProgramRun
  | .refused error => .error (.system error)
  | .runs run => .ok run

def textOf (bytes : List UInt8) : String := String.ofList (Text.decodeLossy bytes)

def html (result : Except FormatFault (List Char)) : Except ClipboardError String :=
  match result with
  | .ok cs => .ok (String.ofList cs)
  | .error fault => .error (.malformed fault)

/-- The text that tells that the clipboard cannot be had as HTML. -/
def coercionFailure : List Char := "(-1700)".toList

/-- The HTML that `osascript` prints as a literal. -/
def readOsascript (program : Program) : Except ClipboardError String := do
  let run ← start program
  if run.ending.isSuccess then html (htmlOfLiteral (Text.decodeLossy run.output))
  else
    let complaint := Text.decodeLossy run.errorOutput
    if run.ending.code? = some 1 ∧ Text.occursIn coercionFailure complaint then .error .noHtml
    else .error (.commandFailed "osascript" (String.ofList complaint))

/-- The HTML that `xclip` prints as it is. -/
def readXclip (program : Program) : Except ClipboardError String := do
  let run ← start program
  if run.errorOutput.isEmpty && run.ending.isSuccess then .ok (textOf run.output)
  else .error (.commandFailed "xclip" (textOf run.errorOutput))

/-- The file that a run of `powershell.exe` names. -/
def namedFile (run : ProgramRun) : String :=
  String.ofList (Text.trim (Text.decodeLossy run.output))

/-- The files after the temporary file has been cleared away. That this may fail is no error: the
file stays then. -/
def clearTemporary (folder : Folder) (path : String) : Folder :=
  match folder.remove path with
  | .ok cleared => cleared
  | .error _ => folder

/-- The HTML in the temporary file that `powershell.exe` names. The file is cleared away. -/
def readPowershell (program : Program) (folder : Folder) :
    Except ClipboardError String × Folder :=
  match start program with
  | .error e => (.error e, folder)
  | .ok run =>
    let path := namedFile run
    if run.errorOutput.isEmpty then
      let cleared := clearTemporary folder path
      match folder.read path with
      | .error e => (.error (.system e), cleared)
      | .ok bytes => (html (unscramble bytes >>= htmlAfterHeader), cleared)
    else
      let cleared := if folder.exists? path then clearTemporary folder path else folder
      (.error (.commandFailed "powershell" (textOf run.errorOutput)), cleared)

/-- The result of the first program that does not fail for want of a file. -/
def readClipboard (programs : Programs) (folder : Folder) :
    Except ClipboardError String × Folder :=
  match readOsascript programs.osascript with
  | .error (.system .notFound) =>
    match readXclip programs.xclip with
    | .error (.system .notFound) =>
      match readPowershell programs.powershell folder with
      | (.error (.system .notFound), folder) => (.error .noProgram, folder)
      | result => result
    | result => (result, folder)
  | result => (result, folder)

end HtmlMarkdown.Clipboard
