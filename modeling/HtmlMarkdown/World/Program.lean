import HtmlMarkdown.World.Folder

/-!
Other programs that may be installed and what running one of them yields.
-/
namespace HtmlMarkdown.World

/-- How a program ends: by itself with a status, or by a signal. -/
inductive Ending where
  | exited (status : Nat)
  | killed (signal : Nat)
deriving DecidableEq, Repr

/-- The status that the parent of a program gets to see, which has eight bits. -/
def Ending.code? : Ending → Option Nat
  | exited status => some (status % 256)
  | killed _ => none

def Ending.isSuccess (ending : Ending) : Bool := ending.code? == some 0

/-- What a finished program has printed, and how it ended. -/
structure ProgramRun where
  output : List UInt8
  errorOutput : List UInt8
  ending : Ending
deriving DecidableEq

inductive Program where
  /-- The system does not start it. -/
  | refused (error : SystemError)
  /-- It prints and ends like this, whatever its arguments. -/
  | runs (run : ProgramRun)
deriving DecidableEq

/-- A program that is not there. -/
@[match_pattern]
def Program.missing : Program := .refused .notFound

/-- A program that is there but must not be started. -/
@[match_pattern]
def Program.forbidden : Program := .refused .permissionDenied

end HtmlMarkdown.World
