/-!
Doctypes. All that a doctype decides is whether the document is laid out the old way, in which
a table may stand inside a paragraph.
-/
namespace HtmlMarkdown.Html

structure Doctype where
  name : Option String := none
  publicId : Option String := none
  systemId : Option String := none
  /-- The source of the doctype is broken. -/
  isBroken : Bool := false
deriving DecidableEq

namespace Doctype

def isSpace (c : Char) : Bool := c == '\t' || c == '\n' || c == '\x0c' || c == ' '

def skipSpace (s : List Char) : List Char := s.dropWhile isSpace

/-- What follows the next `>`. -/
def skipToEnd (s : List Char) : List Char := (s.dropWhile (· != '>')).drop 1

/-- An identifier up to its closing quote: whether it is closed, and what follows it. A `>` breaks
the doctype off. -/
def readIdentifier (mark : Char) (s : List Char) : String × Bool × List Char :=
  let ends := fun c => c == mark || c == '>'
  let value := String.ofList ((s.takeWhile (!ends ·)).map fun c =>
    if c = '\x00' then '\uFFFD' else c)
  match s.dropWhile (!ends ·) with
  | c :: rest => (value, c == mark, rest)
  | [] => (value, false, [])

/-- The doctype ends here, or something else stands where it should. -/
def finish (d : Doctype) (s : List Char) : Doctype × List Char :=
  match skipSpace s with
  | '>' :: rest => (d, rest)
  | [] => ({ d with isBroken := true }, [])
  | s => (d, skipToEnd s)

/-- Reads the system identifier. It may be missing where a public identifier stands before it. -/
def readSystem (d : Doctype) (s : List Char) : Doctype × List Char :=
  let broken := { d with isBroken := true }
  let quoted := fun mark rest =>
    let (value, closed, rest) := readIdentifier mark rest
    let d := { d with systemId := some value }
    if closed then finish d rest else ({ d with isBroken := true }, rest)
  match skipSpace s with
  | '"' :: rest => quoted '"' rest
  | '\'' :: rest => quoted '\'' rest
  | '>' :: rest => (if d.publicId.isSome then d else broken, rest)
  | [] => (broken, [])
  | s => (broken, skipToEnd s)

/-- Reads the public identifier and what follows it. -/
def readPublic (d : Doctype) (s : List Char) : Doctype × List Char :=
  let broken := { d with isBroken := true }
  let quoted := fun mark rest =>
    let (value, closed, rest) := readIdentifier mark rest
    let d := { d with publicId := some value }
    if closed then readSystem d rest else ({ d with isBroken := true }, rest)
  match skipSpace s with
  | '"' :: rest => quoted '"' rest
  | '\'' :: rest => quoted '\'' rest
  | '>' :: rest => (broken, rest)
  | [] => (broken, [])
  | s => (broken, skipToEnd s)

/-- Reads what follows the name. -/
def readIdentifiers (d : Doctype) (s : List Char) : Doctype × List Char :=
  let broken := { d with isBroken := true }
  match skipSpace s with
  | '>' :: rest => (d, rest)
  | [] => (broken, [])
  | s =>
    let word := String.ofList ((s.take 6).map Char.toLower)
    if word = "public" then readPublic d (s.drop 6)
    else if word = "system" then readSystem d (s.drop 6)
    else (broken, skipToEnd s)

end Doctype

/-- Reads a doctype behind its first word. -/
def readDoctype (s : List Char) : Doctype × List Char :=
  match Doctype.skipSpace s with
  | '>' :: rest => ({ isBroken := true }, rest)
  | [] => ({ isBroken := true }, [])
  | s =>
    let ends := fun c => Doctype.isSpace c || c == '>'
    let name := String.ofList ((s.takeWhile (!ends ·)).map fun c =>
      if c = '\x00' then '\uFFFD' else c.toLower)
    Doctype.readIdentifiers { name := some name } (s.dropWhile (!ends ·))

/-- Beginnings of public identifiers, in lower case, of documents laid out the old way. -/
def oldPublicBeginnings : List String :=
  ["-//advasoft ltd//dtd html 3.0 aswedit + extensions//",
    "-//as//dtd html 3.0 aswedit + extensions//",
    "-//ietf//dtd html 2.0 level 1//",
    "-//ietf//dtd html 2.0 level 2//",
    "-//ietf//dtd html 2.0 strict level 1//",
    "-//ietf//dtd html 2.0 strict level 2//",
    "-//ietf//dtd html 2.0 strict//",
    "-//ietf//dtd html 2.0//",
    "-//ietf//dtd html 2.1e//",
    "-//ietf//dtd html 3.0//",
    "-//ietf//dtd html 3.2 final//",
    "-//ietf//dtd html 3.2//",
    "-//ietf//dtd html 3//",
    "-//ietf//dtd html level 0//",
    "-//ietf//dtd html level 1//",
    "-//ietf//dtd html level 2//",
    "-//ietf//dtd html level 3//",
    "-//ietf//dtd html strict level 0//",
    "-//ietf//dtd html strict level 1//",
    "-//ietf//dtd html strict level 2//",
    "-//ietf//dtd html strict level 3//",
    "-//ietf//dtd html strict//",
    "-//ietf//dtd html//",
    "-//metrius//dtd metrius presentational//",
    "-//microsoft//dtd internet explorer 2.0 html strict//",
    "-//microsoft//dtd internet explorer 2.0 html//",
    "-//microsoft//dtd internet explorer 2.0 tables//",
    "-//microsoft//dtd internet explorer 3.0 html strict//",
    "-//microsoft//dtd internet explorer 3.0 html//",
    "-//microsoft//dtd internet explorer 3.0 tables//",
    "-//netscape comm. corp.//dtd html//",
    "-//netscape comm. corp.//dtd strict html//",
    "-//o'reilly and associates//dtd html 2.0//",
    "-//o'reilly and associates//dtd html extended 1.0//",
    "-//o'reilly and associates//dtd html extended relaxed 1.0//",
    "-//softquad software//dtd hotmetal pro 6.0::19990601::extensions to html 4.0//",
    "-//softquad//dtd hotmetal pro 4.0::19971010::extensions to html 4.0//",
    "-//spyglass//dtd html 2.0 extended//",
    "-//sq//dtd html 2.0 hotmetal + extensions//",
    "-//sun microsystems corp.//dtd hotjava html//",
    "-//sun microsystems corp.//dtd hotjava strict html//",
    "-//w3c//dtd html 3 1995-03-24//",
    "-//w3c//dtd html 3.2 draft//",
    "-//w3c//dtd html 3.2 final//",
    "-//w3c//dtd html 3.2//",
    "-//w3c//dtd html 3.2s draft//",
    "-//w3c//dtd html 4.0 frameset//",
    "-//w3c//dtd html 4.0 transitional//",
    "-//w3c//dtd html experimental 19960712//",
    "-//w3c//dtd html experimental 970421//",
    "-//w3c//dtd w3 html//",
    "-//w3o//dtd w3 html 3.0//",
    "-//webtechs//dtd mozilla html 2.0//",
    "-//webtechs//dtd mozilla html//"]

/-- Whole public identifiers, in lower case, of documents laid out the old way. -/
def oldPublicIds : List String :=
  ["-//w3o//dtd w3 html strict 3.0//en//", "-/w3c/dtd html 4.0 transitional/en", "html"]

/-- What stands behind the scheme and the slashes in such system identifiers, whose scheme is
`http`. -/
def oldSystemIds : List String := ["www.ibm.com/data/dtd/v11/ibmxhtml1-transitional.dtd"]

/-- Beginnings of public identifiers that mean the old way where no system identifier follows. -/
def oldWithoutSystem : List String :=
  ["-//w3c//dtd html 4.01 frameset//", "-//w3c//dtd html 4.01 transitional//"]

/-- True if the document is laid out the old way. -/
def Doctype.isOld (d : Doctype) : Bool :=
  let lower := fun s : String => s.map Char.toLower
  let begins := fun (beginnings : List String) (id : String) =>
    beginnings.any fun b => b.toList.isPrefixOf id.toList
  let publicId := d.publicId.map lower
  d.isBroken || d.name != some "html"
    || publicId.any oldPublicIds.contains
    || (d.systemId.map lower).any (fun id => oldSystemIds.any fun s => id == "http:/" ++ "/" ++ s)
    || publicId.any (begins oldPublicBeginnings)
    || (d.systemId.isNone && publicId.any (begins oldWithoutSystem))

end HtmlMarkdown.Html
