import HtmlMarkdown.Layout.Draft

/-!
Dumps of blocks, for a look at how a document has been laid out. Every field and every item of a
list stands on a line of its own, four columns further in than what holds it, and ends in a comma.
-/
namespace HtmlMarkdown.Layout

/-- What a dump is made of. -/
inductive Dump where
  | atom (text : String)
  /-- A name with a value in parentheses. -/
  | wrapped (name : String) (value : Dump)
  | record (name : String) (fields : List (String × Dump))
  | list (items : List Dump)

namespace Dump

/-- A line break, and the indentation of a line at the given depth. -/
def freshLine (depth : Nat) : List Char := '\n' :: List.replicate (4 * depth) ' '

mutual

def render (depth : Nat) : Dump → List Char
  | atom text => text.toList
  | wrapped name value =>
    name.toList ++ ['('] ++ freshLine (depth + 1) ++ render (depth + 1) value ++ [',']
      ++ freshLine depth ++ [')']
  | record name [] => name.toList
  | record name (first :: rest) =>
    name.toList ++ [' ', '\x7b'] ++ renderFields (depth + 1) (first :: rest) ++ freshLine depth
      ++ ['\x7d']
  | list [] => ['[', ']']
  | list (first :: rest) =>
    ['['] ++ renderItems (depth + 1) (first :: rest) ++ freshLine depth ++ [']']

def renderFields (depth : Nat) : List (String × Dump) → List Char
  | [] => []
  | (name, value) :: rest =>
    freshLine depth ++ name.toList ++ [':', ' '] ++ render depth value ++ [',']
      ++ renderFields depth rest

def renderItems (depth : Nat) : List Dump → List Char
  | [] => []
  | value :: rest =>
    freshLine depth ++ render depth value ++ [','] ++ renderItems depth rest

end

def ofBool (b : Bool) : Dump := .atom (if b then "true" else "false")

def ofNat (n : Nat) : Dump := .atom (toString n)

def ofString (s : String) : Dump := .atom (Text.quote s)

end Dump

def LinePrefix.toDump (p : LinePrefix) : Dump :=
  .record "Prefix" [("first", .ofString p.first), ("subsequent", .ofString p.later)]

def Margin.toDump (m : Margin) : Dump :=
  .record "StackedPrefix" [("prefix", m.linePrefix.toDump), ("slot", .ofNat m.slot)]

def BlockOptions.toDump (o : BlockOptions) : Dump :=
  .record "BlockOptions"
    [("max_width", .ofNat o.maxWidth), ("preserve_newlines", .ofBool o.preserveNewlines),
      ("accepts_trailers", .ofBool o.acceptsTrailers),
      ("ends_with_hard_break", .ofBool o.endsWithHardBreak)]

def Block.toDump (b : Block) : Dump :=
  .record "OutputBlock"
    [("prefix_stack", .list (b.margins.map Margin.toDump)), ("options", b.options.toDump),
      ("contents", match b.contents with
        | none => .atom "None"
        | some contents => .wrapped "Some" (.ofString contents))]

/-- The dump of a draft's blocks. -/
def Draft.dump (draft : Draft) : String :=
  String.ofList ((Dump.list (draft.blocks.map Block.toDump)).render 0)

end HtmlMarkdown.Layout
