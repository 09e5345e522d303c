import HtmlMarkdown.Proofs.KeptText
import HtmlMarkdown.Proofs.LayoutRuns
import HtmlMarkdown.Proofs.Unfolding

/-!
The table of references. The targets of the links that are laid out as references get their
numbers in the order in which the links begin, each target one number, and the lines that follow
the last block are the rows of the table.
-/
namespace HtmlMarkdown

open Document Layout

namespace Document

/-- The target of a node that is laid out as a reference: a link that does not show its own
target. -/
def referenceOf? : Kind → List Outline → Option String
  | .link href, children => if isAutolink href children then none else some href
  | _, _ => none

mutual

/-- The targets of the references in an outline, in preorder. -/
def Outline.references : Outline → List String
  | .text _ => []
  | .node k children =>
    if k.endsBlock then [] else (referenceOf? k children).toList ++ allReferences children

def Outline.allReferences : List Outline → List String
  | [] => []
  | first :: rest => first.references ++ allReferences rest

end

/-- What stands before and behind the contents of a node, if the targets have the given numbers. -/
def enclosing (number : String → Nat) : Kind → List Outline → String × String
  | .link href, children =>
    if isAutolink href children then ("<", ">") else ("[", "][" ++ toString (number href) ++ "]")
  | k, _ => ((delimiterOf? k).getD "", (delimiterOf? k).getD "")

mutual

/-- How an outline reads without prefixes and lines. -/
def Outline.written (number : String → Nat) : Outline → String
  | .text contents => contents
  | .node k children =>
    if k.endsBlock then ""
    else (enclosing number k children).1 ++ allWritten number children
      ++ (enclosing number k children).2

def Outline.allWritten (number : String → Nat) : List Outline → String
  | [] => ""
  | first :: rest => first.written number ++ allWritten number rest

end

end Document

namespace Layout

/-- A link shows its own target if it holds texts only, and joined they are its target. -/
theorem isAutolink_iff (href : String) (children : List Outline) :
    isAutolink href children ↔
      ∃ texts : List String, children = texts.map .text ∧ String.join texts = href := by
  have hjoined : ∀ texts, children.mapM Outline.text? = some texts ↔
      children = texts.map .text := by
    induction children with
    | nil => intro texts; cases texts <;> simp
    | cons first rest ih =>
      intro texts
      cases first with
      | text s => cases texts <;> simp [Outline.text?, ih, Option.bind_eq_some_iff, and_comm]
      | node => cases texts <;> simp [Outline.text?]
  simp only [isAutolink, Outline.joinedTexts?, beq_iff_eq, Option.map_eq_some_iff, hjoined]

/-! The numbers. -/

/-- A target takes the next number unless it has one. -/
def register (hrefs : List String) (href : String) : List String :=
  if href ∈ hrefs then hrefs else hrefs ++ [href]

theorem foldl_register (targets : List String) :
    targets.foldl register [] = targets.eraseDups := by
  induction targets using List.reverseRecOn with
  | nil => rfl
  | append_singleton targets href ih =>
    rw [List.foldl_append, ih, List.eraseDups_append, List.foldl_cons, List.foldl_nil, register]
    by_cases hmem : href ∈ targets
    · simp [hmem, List.removeAll]
    · simp [hmem, List.removeAll, List.eraseDups_cons]

/-- The rows of the table, as the lines that follow the last block. -/
def referenceLines (hrefs : List String) : List String :=
  hrefs.mapIdx fun i href => Draft.referenceLine (i + 1) href

/-- The targets have been registered in order, and if the rows of the table have been the lines to
follow, they are so still. -/
structure Draft.Registers (d : Draft) (targets : List String) (d' : Draft) : Prop where
  hrefs_eq : d'.hrefs = targets.foldl register d.hrefs
  trailers_eq : d.trailers = referenceLines d.hrefs → d'.trailers = referenceLines d'.hrefs

namespace Draft.Registers

variable {d d₁ d' : Draft} {targets targets' : List String}

/-- Nothing is registered where the table stays as it is. -/
theorem of_eq (hhrefs : d'.hrefs = d.hrefs) (htrailers : d'.trailers = d.trailers) :
    d.Registers [] d' :=
  ⟨hhrefs, fun h => by rw [htrailers, hhrefs, h]⟩

theorem trans (h : d.Registers targets d₁) (h' : d₁.Registers targets' d') :
    d.Registers (targets ++ targets') d' :=
  ⟨by rw [List.foldl_append, ← h.hrefs_eq, h'.hrefs_eq],
    fun hd => h'.trailers_eq (h.trailers_eq hd)⟩

theorem append (d : Draft) (s : String) : d.Registers [] (d.append s) := by
  refine of_eq (hrefs_append d s) ?_
  rw [Draft.append]
  split <;> rfl

theorem reference (d : Draft) (href : String) : d.Registers [href] (d.reference href).2 := by
  rw [Draft.reference]
  cases hidx : d.hrefs.idxOf? href with
  | some position =>
    have hmem : href ∈ d.hrefs := by
      rw [← List.isSome_idxOf?, hidx]
      rfl
    exact ⟨by rw [List.foldl_cons, register, if_pos hmem, List.foldl_nil], id⟩
  | none =>
    have hmem : href ∉ d.hrefs := List.idxOf?_eq_none_iff.1 hidx
    refine ⟨by rw [List.foldl_cons, register, if_neg hmem, List.foldl_nil]; rfl, fun hd => ?_⟩
    simp only [addTrailer, referenceLines, List.mapIdx_concat]
    rw [hd, referenceLines]

theorem closing {p : LinePrefix} (h : Layout.closing p d = .ok d') : d.Registers [] d' := by
  obtain ⟨outer, slot, -, rfl⟩ := eq_of_closing h
  exact of_eq rfl rfl

theorem boundary (h : Layout.boundary d = .ok d') : d.Registers [] d' :=
  (of_eq rfl rfl : d.Registers [] (d.openPrefix _ _)).trans (closing h)

/-- Contents between two delimiters. -/
theorem delimited {contents : List Outline} {before after : String}
    (hcontents : ∀ d d', layOutlines contents d = .ok d' → d.Registers targets d')
    (h : (layOutlines contents (d.append before)).bind (fun d => .ok (d.append after)) = .ok d') :
    d.Registers targets d' := by
  obtain ⟨d₁, hrun, hlast⟩ := exists_of_bind_eq_ok h
  cases hlast
  have hinner := (append d before).trans (hcontents _ _ hrun)
  simpa using hinner.trans (append d₁ after)

/-- A node registers its own target, if it is a reference, before those of its contents. -/
theorem node {k : Kind} {contents : List Outline} (hcontents : k.endsBlock = false →
      ∀ d d', layOutlines contents d = .ok d' → d.Registers (Outline.allReferences contents) d')
    (h : layOutline (.node k contents) d = .ok d') :
    d.Registers (Outline.references (.node k contents)) d' := by
  rw [Outline.references]
  cases treatment k with
  | @block _ p options hblock =>
    have hk := endsBlock_of_blockOf? hblock
    have hnone : referenceOf? k contents = none := by
      cases k with
      | link => cases hblock
      | _ => rfl
    rw [layOutline_block contents d hblock] at h
    obtain ⟨d₁, hrun, hclose⟩ := exists_of_bind_eq_ok h
    have hopen : d.Registers [] (d.openPrefix p options) := of_eq rfl rfl
    rw [if_neg (by simp [hk]), hnone]
    simpa using (hopen.trans (hcontents hk _ _ hrun)).trans (closing hclose)
  | delimited hblock hdelimiter =>
    have hk := endsBlock_of_delimiterOf? hdelimiter
    have hnone : referenceOf? k contents = none := by
      cases k with
      | link => cases hdelimiter
      | _ => rfl
    rw [layOutline_delimited contents d hblock hdelimiter] at h
    rw [if_neg (by simp [hk]), hnone]
    exact delimited (hcontents hk) h
  | link href =>
    rw [if_neg (by simp [Kind.endsBlock, Kind.name])]
    by_cases hauto : isAutolink href contents
    · rw [layOutline_autolink contents d hauto] at h
      rw [referenceOf?, if_pos hauto]
      exact delimited (hcontents rfl) h
    · rw [layOutline_reference contents d hauto] at h
      rw [referenceOf?, if_neg hauto]
      exact (reference d href).trans (delimited (hcontents rfl) h)
  | lineBreak =>
    have hmark : d.Registers [] d.markHardBreak := of_eq rfl rfl
    exact hmark.trans (boundary h)
  | separator => exact boundary h
  | document => exact hcontents rfl d d' h
  | orderedList => cases h

end Draft.Registers

mutual

theorem registers_outline : ∀ (o : Outline) (d d' : Draft), layOutline o d = .ok d' →
    d.Registers o.references d'
  | .text contents, d, d', h => by
    cases h
    exact .append d contents
  | .node _ children, _, _, h => .node (fun _ => registers_outlines children) h

theorem registers_outlines : ∀ (os : List Outline) (d d' : Draft), layOutlines os d = .ok d' →
    d.Registers (Outline.allReferences os) d'
  | [], d, d', h => by
    cases h
    exact .of_eq rfl rfl
  | first :: rest, d, d', h => by
    obtain ⟨d₁, hfirst, hrest⟩ := exists_of_bind_eq_ok h
    exact (registers_outline first d d₁ hfirst).trans (registers_outlines rest d₁ d' hrest)

end

/-! The text of the references. -/

theorem enclosing_eq (hrefs : List String) (k : Kind) (children : List Outline) :
    enclosing (fun href => hrefs.idxOf href + 1) k children =
      (String.join ((marksOf k children).1.map (Writing.text hrefs)),
        String.join ((marksOf k children).2.map (Writing.text hrefs))) := by
  cases k with
  | link href =>
    by_cases hauto : isAutolink href children <;> simp [enclosing, marksOf, hauto, Writing.text]
  | _ => simp [enclosing, marksOf, delimiterOf?, Writing.text]

mutual

theorem join_inscriptions (hrefs : List String) : ∀ (o : Outline) (around : List LinePrefix),
    String.join ((inscriptions around o).map fun w => w.writing.text hrefs) =
      o.written fun href => hrefs.idxOf href + 1
  | .text contents, around => by
    simp [inscriptions, Outline.written, Writing.text]
  | .node k children, around => by
    have hbelow := join_allInscriptions hrefs children (around ++ prefixesOf k)
    rw [inscriptions, Outline.written, enclosing_eq]
    by_cases hk : k.endsBlock
    · rw [if_pos hk, if_pos hk, List.map_nil, String.join_nil]
    · rw [if_neg hk, if_neg hk, ← hbelow]
      simp [String.join_append, String.append_assoc, Function.comp_def]

theorem join_allInscriptions (hrefs : List String) :
    ∀ (os : List Outline) (around : List LinePrefix),
    String.join ((allInscriptions around os).map fun w => w.writing.text hrefs) =
      Outline.allWritten (fun href => hrefs.idxOf href + 1) os
  | [], _ => rfl
  | first :: rest, around => by
    rw [allInscriptions, List.map_append, String.join_append, join_inscriptions hrefs first,
      join_allInscriptions hrefs rest, Outline.allWritten]

end

mutual

/-- A reference begins with a bracket. -/
theorem bracket_mem_written (number : String → Nat) : ∀ o : Outline, o.references ≠ [] →
    '[' ∈ (o.written number).toList
  | .text _, h => absurd rfl h
  | .node k children, h => by
    rw [Outline.references] at h
    rw [Outline.written]
    by_cases hk : k.endsBlock
    · rw [if_pos hk] at h
      exact absurd rfl h
    · rw [if_neg hk] at h ⊢
      rw [String.toList_append, String.toList_append, List.mem_append, List.mem_append]
      cases hreference : referenceOf? k children with
      | none =>
        rw [hreference, Option.toList_none, List.nil_append] at h
        exact Or.inl (Or.inr (bracket_mem_allWritten number children h))
      | some href =>
        obtain ⟨rfl, hauto⟩ : k = .link href ∧ isAutolink href children = false := by
          cases k <;> simp [referenceOf?] at hreference ⊢
          rw [← hreference.2]
          exact ⟨rfl, hreference.1⟩
        have hfirst : (enclosing number (.link href) children).1 = "[" := by
          rw [enclosing, hauto]
          rfl
        rw [hfirst]
        exact Or.inl (Or.inl (by decide))

theorem bracket_mem_allWritten (number : String → Nat) : ∀ os : List Outline,
    Outline.allReferences os ≠ [] → '[' ∈ (Outline.allWritten number os).toList
  | [], h => absurd rfl h
  | first :: rest, h => by
    rw [Outline.allReferences, Ne, List.append_eq_nil_iff, not_and_or] at h
    rw [Outline.allWritten, String.toList_append, List.mem_append]
    exact h.imp (bracket_mem_written number first) (bracket_mem_allWritten number rest)

end

/-- Whatever holds no ordered list is laid out with an exact table of references, into blocks that
hold what the outline says if each target has its number in the table. -/
theorem layOutline_references {o : Outline} (h : o.Listless) :
    ∃ draft, layOutline o {} = .ok draft ∧ draft.hrefs = o.references.eraseDups ∧
      draft.trailers = referenceLines draft.hrefs ∧
      draft.blocks.flatMap Block.text =
        (o.written fun href => draft.hrefs.idxOf href + 1).toList := by
  obtain ⟨draft, hlay, -, lead, written, hbears, hflat⟩ :=
    writes_outline o h {} [] [] ⟨[], [], .start, rfl⟩
  rw [List.nil_append, List.map_nil] at hflat
  have hregisters := registers_outline o {} draft hlay
  have hhrefs : draft.hrefs = o.references.eraseDups := by
    rw [hregisters.hrefs_eq, ← foldl_register]
  refine ⟨draft, hlay, hhrefs, hregisters.trailers_eq rfl, ?_⟩
  rw [flatMap_text_of_shows hbears.shows, hflat, join_inscriptions]

end Layout
end HtmlMarkdown
