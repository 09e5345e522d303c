/-!
Ranges of code points, in ascending order, and membership in them. A range holds both of
its ends.
-/
namespace HtmlMarkdown.Text

/-- Disjoint ranges of code points, each with its first and last member, in ascending order. -/
abbrev CodeRanges := Array (Nat × Nat)

namespace CodeRanges

/-- Halves the index interval from `lo` up to `hi` until it is empty or its middle range holds `c`. -/
def search (ranges : CodeRanges) (c lo hi : Nat) : Bool :=
  if _h : lo < hi then
    let mid := (lo + hi) / 2
    match ranges[mid]? with
    | none => false
    | some (first, last) =>
      if c < first then search ranges c lo mid
      else if last < c then search ranges c (mid + 1) hi
      else true
  else false
termination_by hi - lo

def mem (ranges : CodeRanges) (c : Char) : Bool :=
  search ranges c.toNat 0 ranges.size

end CodeRanges
end HtmlMarkdown.Text
