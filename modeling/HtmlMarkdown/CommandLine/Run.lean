import HtmlMarkdown.Clipboard.Read
import HtmlMarkdown.CommandLine.Options
import HtmlMarkdown.CommonMark.Render
import HtmlMarkdown.Html.Markup
import HtmlMarkdown.Html.Parse
import HtmlMarkdown.Layout.Dump
import HtmlMarkdown.Markdown
import HtmlMarkdown.Telemetry

/-!
A run of the program: it reads the input that its options name, leaves a line in the opt-in file,
and puts the input into the format asked for. Whatever the run changes outside of it is part of the
result.
-/
namespace HtmlMarkdown.CommandLine

open World Document Layout

/-- What a run meets outside of it. -/
structure Environment where
  /-- All files, those that the run is to read and the opt-in file alike. -/
  folder : Folder := {}
  standardInput : List UInt8 := []
  programs : Clipboard.Programs := {}
  home : Option String := none
  /-- The time in milliseconds. -/
  now : Int := 0
deriving DecidableEq

/-- Why a run has no output. -/
inductive RunError where
  | conversion (fault : LayoutFault)
  | clipboard (error : Clipboard.ClipboardError)
  /-- The file that was asked for cannot be read. -/
  | unreadable (path : String) (error : SystemError)
  /-- Standard input cannot be read. -/
  | system (error : SystemError)
deriving DecidableEq

def RunError.message : RunError → String
  | conversion fault => fault.message
  | clipboard error => error.message
  | unreadable path error => "could not read " ++ path ++ ": " ++ error.message
  | system error => "I/O error: " ++ error.message

/-! Input. -/

/-- The last part of a path that is a name of its own. -/
def fileName? (path : String) : Option (List Char) :=
  ((Text.splitAt '/' path.toList).filter fun part => part != [] && part != ['.']).getLast?

/-- True if a path leads to a name with the extension `md`. A name that only starts with a period
has no extension. -/
def isMarkdownPath (path : String) : Bool :=
  match fileName? path with
  | none => false
  | some name => ".md".toList.isSuffixOf name && ".md".length < name.length

def textOf (bytes : List UInt8) : Except SystemError String :=
  match Text.decode? bytes with
  | none => .error .invalidUtf8
  | some text => .ok (String.ofList text)

/-- The HTML that a file of the given path stands for, from what reading it has yielded. -/
def Options.htmlOfFile (o : Options) (path : String) (read : Except SystemError (List UInt8)) :
    Except RunError String :=
  match read.bind textOf with
  | .error e => .error (.unreadable path e)
  | .ok text => .ok (if o.markdownFirst && isMarkdownPath path then CommonMark.toHtml text else text)

/-- The HTML that standard input holds. -/
def htmlOfStandardInput (bytes : List UInt8) : Except RunError String :=
  (textOf bytes).mapError RunError.system

/-- The HTML to convert, and the files after it has been read. -/
def Options.readInput (o : Options) (e : Environment) : Except RunError String × Folder :=
  match o.input with
  | .clipboard =>
    let (html, left) := Clipboard.readClipboard e.programs e.folder
    (html.mapError RunError.clipboard, left)
  | .standardInput => (htmlOfStandardInput e.standardInput, e.folder)
  | .file path => (o.htmlOfFile path (e.folder.read path), e.folder)

/-! Output. -/

/-- How the input is converted. It is quoted unless the options forbid it. -/
def Options.conversion (o : Options) : ConversionOptions :=
  { quote := !o.noQuote, links := !o.noLinks }

/-- The input in the format asked for. -/
def Options.output (o : Options) (input : String) : Except RunError String :=
  match o.format with
  | .raw => .ok input
  | .html => .ok ((Html.outerMarkup? (Html.parse input)).getD "")
  | .tree =>
    match Tree.ofHtml (Html.parse input) o.conversion with
    | .ok t => .ok (t.outline Tree.root).indented
    | .error fault => .error (.conversion (.document fault))
  | .blocks => ((draftOfHtml (Html.parse input) o.conversion).map Draft.dump).mapError .conversion
  | .markdown => (markdownOfHtml (Html.parse input) o.conversion).mapError .conversion

/-! Runs. -/

/-- The output of a run, and the files that it leaves. The run is told of in the opt-in file once
its input has been read, whether or not the input can be converted. -/
def Options.run (o : Options) (e : Environment) : Except RunError String × Folder :=
  match o.readInput e with
  | (.error error, left) => (.error error, left)
  | (.ok input, left) => (o.output input, Telemetry.tell e.home e.now left)

/-- How the program ends: its exit status, and what it prints on its two outputs. -/
structure Report where
  status : Nat
  output : String := ""
  complaint : String := ""
deriving DecidableEq, Repr

/-- A text that ends with a line end; one is added if need be. -/
def endLine (text : String) : String :=
  if text.toList.getLast? = some '\n' then text else text ++ "\n"

/-- The report on what a run has yielded. -/
def Report.ofResult : Except RunError String → Report
  | .ok output => { status := 0, output := endLine output }
  | .error e => { status := 1, complaint := "tomd: " ++ e.message ++ "\n" }

def Rejection.message : Rejection → String
  | unknownArgument => "an argument is not known"
  | invalidValue => "an argument has a value that it cannot have"
  | argumentConflict => "two arguments cannot be used together"
  | tooManyValues => "an argument takes no value"
  | displayHelp =>
    "Usage: tomd [-v | -q] [--output-format raw|html|ir|blocks|md] [--no-quote] [--no-links] [FILE]"
  | displayVersion => "tomd 0.1.0"

/-- The report on arguments that start no run. To ask for a text about the program is no
mistake. -/
def Report.ofRejection (r : Rejection) : Report :=
  match r with
  | .displayHelp | .displayVersion => { status := 0, output := r.message ++ "\n" }
  | _ => { status := 2, complaint := "error: " ++ r.message ++ "\n" }

/-- The report of the program with the given arguments. -/
def report (arguments : List String) (e : Environment) : Report :=
  match Options.ofArguments arguments with
  | .error r => .ofRejection r
  | .ok o => .ofResult (o.run e).1

end HtmlMarkdown.CommandLine
