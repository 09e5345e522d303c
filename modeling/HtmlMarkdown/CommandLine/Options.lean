/-!
The options of the program and how its arguments are read. Arguments are read from left to right;
the value of an option or of the file argument is only looked at when the next argument that is
known follows or the arguments end.
-/
namespace HtmlMarkdown.CommandLine

/-- What the program prints. -/
inductive OutputFormat where
  /-- The input as it is. -/
  | raw
  /-- The input as it was parsed. -/
  | html
  /-- The document tree. -/
  | tree
  /-- The blocks that the tree is laid out into. -/
  | blocks
  | markdown
deriving DecidableEq, Repr

/-- The word that selects a format. -/
def OutputFormat.ofWord? : String → Option OutputFormat
  | "raw" => some .raw
  | "html" => some .html
  | "ir" => some .tree
  | "blocks" => some .blocks
  | "md" => some .markdown
  | _ => none

/-- Why arguments are not accepted, or that they only ask for a text about the program. -/
inductive Rejection where
  | unknownArgument
  | invalidValue
  | argumentConflict
  | tooManyValues
  | displayHelp
  | displayVersion
deriving DecidableEq, Repr

/-- How much is logged. -/
inductive Verbosity where
  | off
  | error
  | warn
  | info
  | debug
  | trace
deriving DecidableEq, Repr

/-- Where the HTML comes from. -/
inductive Input where
  | clipboard
  | standardInput
  | file (path : String)
deriving DecidableEq, Repr

structure Options where
  verbose : Nat := 0
  quiet : Nat := 0
  format : OutputFormat := .markdown
  noQuote : Bool := false
  noLinks : Bool := false
  /-- Render a Markdown file to HTML before anything else. -/
  markdownFirst : Bool := false
  file : Option String := none
deriving DecidableEq, Repr

namespace Options

/-- Errors are logged unless more or less is asked for. -/
def verbosity (o : Options) : Verbosity :=
  match 1 + o.verbose - o.quiet with
  | 0 => .off
  | 1 => .error
  | 2 => .warn
  | 3 => .info
  | 4 => .debug
  | _ => .trace

/-- A lone hyphen stands for standard input. -/
def input (o : Options) : Input :=
  match o.file with
  | none => .clipboard
  | some path => if path = "-" then .standardInput else .file path

end Options

/-- A value that has been read but not looked at. -/
inductive Pending where
  | nothing
  | format (word : Option String)
  | file (path : String)
deriving DecidableEq, Repr

/-- What is known of the arguments read so far. -/
structure Reading where
  options : Options := {}
  formatGiven : Bool := false
  fileSeen : Bool := false
  pending : Pending := .nothing
deriving DecidableEq, Repr

namespace Reading

/-- Takes a word for the output format, which can be given once. -/
def takeFormat (r : Reading) (word : String) : Except Rejection Reading :=
  if r.formatGiven then .error .argumentConflict
  else match OutputFormat.ofWord? word with
    | none => .error .invalidValue
    | some format =>
      .ok { r with options := { r.options with format := format }, formatGiven := true }

/-- Looks at the value that is pending. -/
def settle (r : Reading) : Except Rejection Reading :=
  let settled := { r with pending := .nothing }
  match r.pending with
  | .nothing => .ok r
  | .format none => .error .invalidValue
  | .format (some word) => settled.takeFormat word
  | .file path =>
    if path = "" then .error .invalidValue
    else .ok { settled with options := { r.options with file := some path } }

/-- True if the next argument can be the value of the output format. -/
def awaitsWord (r : Reading) : Bool := r.pending == .format none

end Reading

/-- The options that take no value. -/
inductive Switch where
  | verbose
  | quiet
  | noQuote
  | noLinks
  | markdownFirst
  | help
  | version
deriving DecidableEq, Repr

def Switch.ofLetter? : Char → Option Switch
  | 'v' => some .verbose
  | 'q' => some .quiet
  | 'h' => some .help
  | 'V' => some .version
  | _ => none

def Switch.ofWord? : String → Option Switch
  | "verbose" => some .verbose
  | "quiet" => some .quiet
  | "no-quote" => some .noQuote
  | "no-links" => some .noLinks
  | "dev-mode-md-to-html-first" => some .markdownFirst
  | "help" => some .help
  | "version" => some .version
  | _ => none

/-- Sets a switch that can be given once. -/
def setOnce (given : Bool) (options : Options) : Except Rejection Options :=
  if given then .error .argumentConflict else .ok options

/-- What a switch does to the options. -/
def Switch.apply (o : Options) : Switch → Except Rejection Options
  | verbose => .ok { o with verbose := o.verbose + 1 }
  | quiet => .ok { o with quiet := o.quiet + 1 }
  | noQuote => setOnce o.noQuote { o with noQuote := true }
  | noLinks => setOnce o.noLinks { o with noLinks := true }
  | markdownFirst => setOnce o.markdownFirst { o with markdownFirst := true }
  | help => .error .displayHelp
  | version => .error .displayVersion

namespace Reading

def takeSwitch (r : Reading) (s : Switch) : Except Rejection Reading := do
  let r ← r.settle
  let options ← s.apply r.options
  return { r with options := options }

/-- Switches that are written as letters behind one hyphen. -/
def takeLetters (r : Reading) : List Char → Except Rejection Reading
  | [] => .ok r
  | letter :: rest =>
    match Switch.ofLetter? letter with
    | none => .error .unknownArgument
    | some s => do
      let r ← r.takeSwitch s
      r.takeLetters rest

/-- An option that is written as a word behind two hyphens, perhaps with a value behind an equals
sign. -/
def takeWord (r : Reading) (argument : List Char) : Except Rejection Reading :=
  let name := String.ofList (argument.takeWhile (· != '='))
  let value := argument.dropWhile (· != '=')
  if name = "output-format" then do
    let r ← r.settle
    match value with
    | [] => return { r with pending := .format none }
    | _ :: word => r.takeFormat (String.ofList word)
  else match Switch.ofWord? name with
    | none => .error .unknownArgument
    | some s => if value.isEmpty then r.takeSwitch s else .error .tooManyValues

/-- The file argument, of which there is one at most. -/
def takeFile (r : Reading) (argument : String) : Except Rejection Reading :=
  if r.fileSeen then .error .unknownArgument
  else do
    let r ← r.settle
    return { r with pending := .file argument, fileSeen := true }

/-- Reads the arguments one by one. Behind `--` every argument is a file. -/
def takeAll (r : Reading) (onlyFiles : Bool) : List String → Except Rejection Reading
  | [] => r.settle
  | argument :: rest => do
    if onlyFiles then
      let r ← r.takeFile argument
      r.takeAll true rest
    else match argument.toList with
      | ['-', '-'] => r.takeAll true rest
      | '-' :: '-' :: word =>
        let r ← r.takeWord word
        r.takeAll false rest
      | '-' :: letter :: letters =>
        let r ← r.takeLetters (letter :: letters)
        r.takeAll false rest
      | _ =>
        if r.awaitsWord then
          let r := { r with pending := .format (some argument) }
          r.takeAll false rest
        else
          let r ← r.takeFile argument
          r.takeAll false rest

end Reading

/-- The options that arguments stand for. Asking for more and for less log output at once is a
conflict, found only when all arguments have been read. -/
def Options.ofArguments (arguments : List String) : Except Rejection Options := do
  let r ← ({} : Reading).takeAll false arguments
  if 0 < r.options.verbose ∧ 0 < r.options.quiet then .error .argumentConflict
  else return r.options

end HtmlMarkdown.CommandLine
