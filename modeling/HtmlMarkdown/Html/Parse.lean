import HtmlMarkdown.Html.Builder.OtherRules

/-!
Parsing HTML. Every source has a document: what is broken is mended the way a browser mends it.
-/
namespace HtmlMarkdown.Html

namespace Builder

/-- Treats a token, again and again until it is done with, at most `rounds` times. -/
def treat (token : Token) : (rounds : Nat) → Builder → Builder
  | 0, b => b
  | rounds + 1, b =>
    let outcome := if b.treatsAsForeign token then b.inForeign token else b.byMode token
    match outcome with
    | .done b => b
    | .again b => treat token rounds b

/-- A token is put off once for each element that has to be closed before it and once for each
mode on the way to the one that it is done with in. -/
def roundsFor (b : Builder) : Nat := 2 * b.opened.length + 32

/-- Takes the next token. A doctype counts only at the very beginning. -/
def take (b : Builder) (token : Token) : Builder :=
  let skips := b.skipNewline
  let b := { b with skipNewline := false }
  match token with
  | .doctype doctype =>
    if b.mode == .initial then { b with mode := .beforeHtml, isOld := doctype.isOld } else b
  | .nothing => b
  | .char '\n' => if skips then b else treat token b.roundsFor b
  | _ => treat token b.roundsFor b

/-- Takes the tokens of the source one after the other. -/
def takeAll (b : Builder) (s : List Char) : Builder :=
  match s with
  | [] => b.take .endOfSource
  | c :: rest =>
    let (tokens, after) := readTokens b.model b.currentIsForeign (c :: rest)
    let b := tokens.foldl take b
    if after.length < (c :: rest).length then b.takeAll after else b
termination_by s.length
decreasing_by assumption

end Builder

/-- The document that a source stands for. -/
def parse (source : String) : List Node :=
  (({} : Builder).takeAll (prepareSource source.toList)).forest.nodes

end HtmlMarkdown.Html
