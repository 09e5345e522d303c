import HtmlMarkdown.Proofs.Stages

/-!
Where the links of a document lead. Only `a` elements become links, each to its own target, and no
pass makes a link or gives one another target.
-/
namespace HtmlMarkdown

open Document

namespace Html

mutual

/-- The targets of the `a` elements in document order. A document inside the document has none. -/
def Node.targets : Node → List String
  | .element _ tag attributes children =>
    (if tag.map Char.toUpper = "A" then (attribute? attributes "href").toList else [])
      ++ targets children
  | .text _ | .comment _ | .doctype _ | .instruction _ _ | .document _ => []

def targets : List Node → List String
  | [] => []
  | first :: rest => first.targets ++ targets rest

end

end Html

namespace Document.Forest

/-- All links lead to targets of the list. -/
def LinksTo (targets : List String) (F : Forest) : Prop :=
  F.AllKinds fun k => ∀ href, k = .link href → href ∈ targets

theorem LinksTo.mono {targets more : List String} (hsub : targets ⊆ more) {F : Forest}
    (h : F.LinksTo targets) : F.LinksTo more :=
  Everywhere.mono (fun _ _ hk href he => hsub (hk href he)) h

mutual

theorem ofNode_linksTo (pre : Bool) (n : NodeId) :
    ∀ x : Html.Node, (ofNode pre n x).LinksTo x.targets
  | .text contents => by
    rw [ofNode]
    split <;> trivial
  | .element _ tag attributes children => by
    have hbelow := fun pre n => (ofNodes_linksTo pre n children).mono (List.subset_append_right
      (if tag.map Char.toUpper = "A" then (Html.attribute? attributes "href").toList else [])
      (Html.targets children))
    rw [ofNode, Html.Node.targets]
    cases hkind : elementKind? tag attributes with
    | none => exact hbelow pre n
    | some kind =>
      refine ⟨fun href hlink => ?_, hbelow _ _, trivial⟩
      rw [hlink, elementKind?_eq_link_iff] at hkind
      simp [hkind.1, hkind.2.1]
  | .comment _ | .doctype _ | .instruction _ _ | .document _ => by
    rw [ofNode]
    trivial

theorem ofNodes_linksTo (pre : Bool) (n : NodeId) :
    ∀ xs : List Html.Node, (ofNodes pre n xs).LinksTo (Html.targets xs)
  | [] => trivial
  | first :: rest => by
    rw [ofNodes, Html.targets]
    exact (everywhere_append _ _).2
      ⟨(ofNode_linksTo pre n first).mono (List.subset_append_left _ _),
        (ofNodes_linksTo pre _ rest).mono (List.subset_append_right _ _)⟩

end

theorem ofDocument_linksTo (quote : Bool) (document : List Html.Node) :
    (ofDocument quote document).LinksTo (Html.targets document) := by
  rw [ofDocument]
  split
  · exact ⟨by simp, ofNodes_linksTo false 2 document, trivial⟩
  · exact ofNodes_linksTo false 1 document

/-- What is laid out has no other links than the document, and none if links are dropped. -/
theorem Normalized.linksTo {document : List Html.Node} {options : ConversionOptions} {F : Forest}
    (h : Normalized document options F) :
    F.LinksTo (if options.links then Html.targets document else []) := by
  split
  · obtain ⟨n, hrewrites⟩ := h.rewrites
    exact hrewrites.allKinds (by simp) (by simp) (ofDocument_linksTo options.quote document)
  · rename_i hlinks
    refine Everywhere.mono (fun k _ hk href he => ?_) (h.noLink (by simpa using hlinks))
    exact absurd (he ▸ rfl) hk

end Document.Forest
end HtmlMarkdown
