import HtmlMarkdown.Text.ClusterClass

/-!
The width of a text, in user-perceived characters (extended grapheme clusters). Reading from
left to right, a code point starts a new character unless one of the joining rules holds; the
rules need no more of the text on the left than what `ClusterContext` keeps.
-/
namespace HtmlMarkdown.Text

/-- How far a conjunct has been read: nothing of it, a consonant with its marks, or a consonant
after which a linker has been seen. -/
inductive ConjunctProgress where
  | none
  | consonant
  | linked
deriving DecidableEq, Repr

/-- How far an emoji sequence has been read: nothing of it, a pictograph with its marks, or a
pictograph, its marks and a joiner. -/
inductive PictographProgress where
  | none
  | pictograph
  | joined
deriving DecidableEq, Repr

/-- What the boundary rules need to know of the text read so far. -/
structure ClusterContext where
  last : ClusterClass
  conjunct : ConjunctProgress
  pictograph : PictographProgress
  /-- An odd number of regional indicators has been read last. -/
  openFlag : Bool
deriving DecidableEq, Repr

namespace ClusterContext

def conjunctAfter (progress : ConjunctProgress) : ClusterClass → ConjunctProgress
  | .consonant => .consonant
  | .linker => if progress = .none then .none else .linked
  | .mark | .joiner => progress
  | _ => .none

def pictographAfter (progress : PictographProgress) : ClusterClass → PictographProgress
  | .pictograph => .pictograph
  | .mark | .linker | .nonJoiner => if progress = .pictograph then .pictograph else .none
  | .joiner => if progress = .pictograph then .joined else .none
  | _ => .none

/-- The context of a text of one code point. -/
def single (next : ClusterClass) : ClusterContext where
  last := next
  conjunct := conjunctAfter .none next
  pictograph := pictographAfter .none next
  openFlag := next == .regional

def advance (context : ClusterContext) (next : ClusterClass) : ClusterContext where
  last := next
  conjunct := conjunctAfter context.conjunct next
  pictograph := pictographAfter context.pictograph next
  openFlag := next == .regional && !context.openFlag

end ClusterContext

/-- Carriage returns, line feeds and controls, which combine with nothing but a carriage return
with the line feed after it. -/
def ClusterClass.isBreaking : ClusterClass → Bool
  | .carriageReturn | .lineFeed | .control => true
  | _ => false

/-- The Hangul rules: jamos and syllables that continue the syllable before them. -/
def ClusterClass.continuesSyllable : ClusterClass → ClusterClass → Bool
  | .leadingJamo, .leadingJamo | .leadingJamo, .vowelJamo
  | .leadingJamo, .openSyllable | .leadingJamo, .closedSyllable => true
  | .openSyllable, .vowelJamo | .openSyllable, .trailingJamo
  | .vowelJamo, .vowelJamo | .vowelJamo, .trailingJamo => true
  | .closedSyllable, .trailingJamo | .trailingJamo, .trailingJamo => true
  | _, _ => false

/-- Marks, joiners and spacing marks belong to the character before them. -/
def ClusterClass.extendsPrevious : ClusterClass → Bool
  | .mark | .nonJoiner | .joiner | .linker | .spacingMark => true
  | _ => false

/-- True if a new character starts between the text of `context` and a code point of class
`next`. -/
def ClusterContext.startsCluster (context : ClusterContext) (next : ClusterClass) : Bool :=
  if context.last = .carriageReturn ∧ next = .lineFeed then false
  else if context.last.isBreaking || next.isBreaking then true
  else !(ClusterClass.continuesSyllable context.last next
    || next.extendsPrevious
    || context.last == .prepended
    || (context.conjunct == .linked && next == .consonant)
    || (context.pictograph == .joined && next == .pictograph)
    || (context.openFlag && next == .regional))

/-- The number of characters that start after the text of `context`. -/
def ClusterContext.count (context : ClusterContext) : List Char → Nat
  | [] => 0
  | c :: rest =>
    let next := ClusterClass.ofChar c
    (if context.startsCluster next then 1 else 0) + (context.advance next).count rest

/-- The number of columns that a text takes: one for each user-perceived character. -/
def columns : List Char → Nat
  | [] => 0
  | c :: rest => 1 + (ClusterContext.single (ClusterClass.ofChar c)).count rest

end HtmlMarkdown.Text
