import HtmlMarkdown.Proofs.Balance
import HtmlMarkdown.Proofs.LayoutRuns
import HtmlMarkdown.Proofs.SpacedDocument

/-!
White space between block-level nodes, laid out. It is written into a block that otherwise is never
given any text, and what follows opens another block. So the drafts of two forests that are alike
but for white space are alike but for the contents of such blocks.
-/
namespace HtmlMarkdown

open Document Layout

namespace Layout

/-- What margins show, the outermost first. -/
def rimsOf (margins : List Margin) : List Rim := margins.filterMap (·.linePrefix.rim?)

@[simp] theorem rimsOf_nil : rimsOf [] = [] := rfl

@[simp] theorem rimsOf_append (outer inner : List Margin) :
    rimsOf (outer ++ inner) = rimsOf outer ++ rimsOf inner := List.filterMap_append

theorem rims_of_blockOf? {k : Kind} {p : LinePrefix} {options : BlockOptions}
    (h : blockOf? k = some (p, options)) (slot : Nat) : rimsOf [⟨p, slot⟩] = k.rims := by
  simp only [rimsOf, Kind.rims, prefixesOf, h]
  rfl

/-- The second list has the text `w` in some blocks that have none in the first. A place is told by
what the margins of such a block show. -/
inductive FilledIn (w : String) : List (List Rim) → List Block → List Block → Prop
  | nil : FilledIn w [] [] []
  | same {places : List (List Rim)} {bs bs' : List Block} (b : Block)
      (h : FilledIn w places bs bs') : FilledIn w places (bs ++ [b]) (bs' ++ [b])
  | filled {places : List (List Rim)} {bs bs' : List Block} (margins : List Margin)
      (h : FilledIn w places bs bs') :
      FilledIn w (places ++ [rimsOf margins]) (bs ++ [{ margins := margins }])
        (bs' ++ [{ margins := margins, contents := some w }])

/-- As before, and the last block is the same. -/
inductive SettledIn (w : String) : List (List Rim) → List Block → List Block → Prop
  | nil : SettledIn w [] [] []
  | concat {places : List (List Rim)} {bs bs' : List Block} (b : Block)
      (h : FilledIn w places bs bs') : SettledIn w places (bs ++ [b]) (bs' ++ [b])

variable {w : String} {places : List (List Rim)} {bs bs' : List Block}

theorem SettledIn.filledIn (h : SettledIn w places bs bs') : FilledIn w places bs bs' := by
  cases h with
  | nil => exact .nil
  | concat b h => exact .same b h

theorem FilledIn.isEmpty_eq (h : FilledIn w places bs bs') : bs.isEmpty = bs'.isEmpty := by
  rw [Bool.eq_iff_iff, List.isEmpty_iff, List.isEmpty_iff]
  cases h <;> simp

theorem FilledIn.eq_of_nil (h : FilledIn w places bs bs') (hnone : places = []) : bs = bs' := by
  induction h with
  | nil => rfl
  | same b _ ih => rw [ih hnone]
  | filled => simp at hnone

/-- With one place, there is one block that has been filled in. -/
theorem FilledIn.exists_block {rims : List Rim} (h : FilledIn w places bs bs')
    (hone : places = [rims]) : ∃ before margins after, rimsOf margins = rims ∧
      bs = before ++ { margins := margins } :: after ∧
      bs' = before ++ { margins := margins, contents := some w } :: after := by
  induction h with
  | nil => cases hone
  | same b _ ih =>
    obtain ⟨before, margins, after, hrims, rfl, rfl⟩ := ih hone
    exact ⟨before, margins, after ++ [b], hrims, by simp, by simp⟩
  | @filled places bs bs' margins h _ =>
    obtain ⟨hnone, hrims⟩ := List.append_eq_singleton_iff.1 hone |>.resolve_right (by simp)
    simp only [List.cons.injEq, and_true] at hrims
    obtain rfl := h.eq_of_nil hnone
    exact ⟨bs, margins, [], hrims, rfl, rfl⟩

theorem onLast_concat (f : Block → Block) (bs : List Block) (b : Block) :
    onLast f (bs ++ [b]) = bs ++ [f b] :=
  onLast_append f bs (List.cons_ne_nil b [])

theorem SettledIn.onLast (h : SettledIn w places bs bs') (f : Block → Block) :
    SettledIn w places (onLast f bs) (onLast f bs') := by
  cases h with
  | nil => exact .nil
  | concat b h =>
    rw [onLast_concat, onLast_concat]
    exact .concat (f b) h

namespace Draft

/-- Drafts that are alike but for what has been filled in. -/
def Filled (w : String) (places : List (List Rim)) (d d' : Draft) : Prop :=
  ∃ bs, FilledIn w places d.blocks bs ∧ d' = { d with blocks := bs }

/-- As before, and the last block is the same. -/
def Settled (w : String) (places : List (List Rim)) (d d' : Draft) : Prop :=
  ∃ bs, SettledIn w places d.blocks bs ∧ d' = { d with blocks := bs }

variable {d d' e : Draft}

theorem Settled.filled (h : d.Settled w places d') : d.Filled w places d' := by
  obtain ⟨bs, hbs, rfl⟩ := h
  exact ⟨bs, hbs.filledIn, rfl⟩

theorem Settled.refl (d : Draft) : d.Settled w [] d := by
  have hself : ∀ bs : List Block, FilledIn w [] bs bs := by
    intro bs
    induction bs using List.reverseRecOn with
    | nil => exact .nil
    | append_singleton bs b ih => exact .same b ih
  refine ⟨d.blocks, ?_, rfl⟩
  rcases List.eq_nil_or_concat d.blocks with hnil | ⟨bs, b, hlast⟩
  · rw [hnil]
    exact .nil
  · rw [hlast, List.concat_eq_append]
    exact .concat b (hself bs)

/-- A prefix opens with a block of its own. -/
theorem Filled.openPrefix (h : d.Filled w places d') (p : LinePrefix) (options : BlockOptions) :
    (d.openPrefix p options).Settled w places (d'.openPrefix p options) := by
  obtain ⟨bs, hbs, rfl⟩ := h
  exact ⟨_, .concat _ hbs, rfl⟩

theorem Filled.closing {p : LinePrefix} (h : d.Filled w places d')
    (hclose : closing p d = .ok e) : ∃ e', closing p d' = .ok e' ∧ e.Settled w places e' := by
  obtain ⟨bs, hbs, rfl⟩ := h
  obtain ⟨outer, slot, hmargins, rfl⟩ := eq_of_closing hclose
  exact ⟨_, closing_eq (d := { d with blocks := bs }) hmargins, _, .concat _ hbs, rfl⟩

theorem Settled.boundary (h : d.Settled w places d') (hrun : boundary d = .ok e) :
    ∃ e', boundary d' = .ok e' ∧ e.Settled w places e' ∧ e.margins = d.margins := by
  obtain ⟨e', hrun', he⟩ := (h.filled.openPrefix (.uniform "") {}).filled.closing hrun
  obtain ⟨outer, slot, hmargins, rfl⟩ := eq_of_closing hrun
  exact ⟨e', hrun', he, (List.append_inj_left' hmargins rfl).symm⟩

theorem Settled.markHardBreak (h : d.Settled w places d') :
    d.markHardBreak.Settled w places d'.markHardBreak := by
  obtain ⟨bs, hbs, rfl⟩ := h
  exact ⟨_, hbs.onLast _, rfl⟩

theorem Settled.append (h : d.Settled w places d') (s : String) :
    (d.append s).Settled w places (d'.append s) := by
  have hlast : ∀ {d d' : Draft}, d.Settled w places d' →
      Settled w places { d with blocks := onLast (·.append s) d.blocks }
        { d' with blocks := onLast (·.append s) d'.blocks } := by
    rintro d _ ⟨bs, hbs, rfl⟩
    exact ⟨_, hbs.onLast _, rfl⟩
  have hempty : d.blocks.isEmpty = d'.blocks.isEmpty := by
    obtain ⟨bs, hbs, rfl⟩ := h
    exact hbs.filledIn.isEmpty_eq
  rw [Draft.append, Draft.append, ← hempty]
  split
  · exact hlast (h.filled.openPrefix _ _)
  · exact hlast h

theorem Settled.reference (h : d.Settled w places d') (href : String) :
    (d.reference href).1 = (d'.reference href).1 ∧
      (d.reference href).2.Settled w places (d'.reference href).2 := by
  obtain ⟨bs, hbs, rfl⟩ := h
  simp only [Draft.reference]
  split
  · exact ⟨rfl, bs, hbs, rfl⟩
  · exact ⟨rfl, bs, hbs, rfl⟩

/-- The last block is filled in, if it has not been given any text. -/
theorem Settled.fill (h : d.Settled w places d')
    (hlast : d.blocks.getLast? = some { margins := d.margins }) :
    d.Filled w (places ++ [rimsOf d.margins]) (d'.append w) := by
  obtain ⟨bs, hbs, rfl⟩ := h
  generalize hblocks : d.blocks = blocks at hbs hlast
  cases hbs with
  | nil => cases hlast
  | concat b h =>
    rw [List.getLast?_concat, Option.some.injEq] at hlast
    have hfilled : FilledIn w _ _ _ := .filled d.margins h
    refine ⟨_, hblocks ▸ hlast ▸ hfilled, ?_⟩
    rw [Draft.append, if_neg (by simp), onLast_concat, hlast]
    simp [Block.append]

/-- An empty prefix that is never closed shows nothing. -/
theorem rimsOf_margins_append (d : Draft) (s : String) :
    rimsOf (d.append s).margins = rimsOf d.margins := by
  rw [Draft.append]
  split
  · simp [Draft.openPrefix, rimsOf, LinePrefix.uniform, LinePrefix.rim?]
  · rfl

end Draft

/-- Contents that are laid out alike in drafts that are alike, with more places filled in. -/
def Fills (w : String) (inner : List (List Rim)) (contents contents' : List Outline) : Prop :=
  ∀ ⦃places : List (List Rim)⦄ ⦃d d' e : Draft⦄, d.Settled w places d' →
    layOutlines contents d = .ok e → ∃ e', layOutlines contents' d' = .ok e' ∧
      e.Settled w (places ++ inner.map (rimsOf d.margins ++ ·)) e' ∧
      rimsOf e.margins = rimsOf d.margins

variable {inner : List (List Rim)} {contents contents' : List Outline} {k : Kind} {d d' e : Draft}

theorem Fills.block (h : Fills w inner contents contents') {p : LinePrefix}
    {options : BlockOptions} (hk : blockOf? k = some (p, options)) (hd : d.Filled w places d')
    (hrun : layOutline (.node k contents) d = .ok e) :
    ∃ e', layOutline (.node k contents') d' = .ok e' ∧
      e.Settled w (places ++ inner.map (rimsOf d.margins ++ k.rims ++ ·)) e' ∧
      rimsOf e.margins = rimsOf d.margins := by
  rw [layOutline_block contents d hk] at hrun
  obtain ⟨d₁, hcontents, hclose⟩ := exists_of_bind_eq_ok hrun
  obtain ⟨d₁', hcontents', hd₁, hrims⟩ := h (hd.openPrefix p options) hcontents
  obtain ⟨e', hclose', he⟩ := hd₁.filled.closing hclose
  have hopened : rimsOf (d.openPrefix p options).margins = rimsOf d.margins ++ k.rims := by
    rw [Draft.openPrefix, rimsOf_append, rims_of_blockOf? hk]
  refine ⟨e', ?_, hopened ▸ he, ?_⟩
  · rw [layOutline_block contents' d' hk, hcontents']
    exact hclose'
  · obtain ⟨outer, slot, hmargins, rfl⟩ := Draft.eq_of_closing hclose
    rw [hopened, hmargins, rimsOf_append, rims_of_blockOf? hk] at hrims
    exact List.append_cancel_right hrims

theorem Fills.delimited (h : Fills w inner contents contents') {before after : String}
    (hd : d.Settled w places d') (hrun : (layOutlines contents (d.append before)).bind
      (fun d => .ok (d.append after)) = .ok e) :
    ∃ e', (layOutlines contents' (d'.append before)).bind (fun d => .ok (d.append after)) = .ok e' ∧
      e.Settled w (places ++ inner.map (rimsOf d.margins ++ ·)) e' ∧
      rimsOf e.margins = rimsOf d.margins := by
  obtain ⟨d₁, hcontents, hlast⟩ := exists_of_bind_eq_ok hrun
  cases hlast
  obtain ⟨d₁', hcontents', hd₁, hrims⟩ := h (hd.append before) hcontents
  rw [d.rimsOf_margins_append] at hd₁ hrims
  refine ⟨d₁'.append after, ?_, hd₁.append after, ?_⟩
  · rw [hcontents']
    rfl
  · rw [d₁.rimsOf_margins_append, hrims]

/-- A node that is laid out around contents that are alike. Where the last block has been filled
in, only a block-level node may follow. -/
theorem Fills.node (h : Fills w inner contents contents')
    (hauto : ∀ href, isAutolink href contents = isAutolink href contents')
    (hbreak : k ≠ .lineBreak) (hbelow : k = .separator → inner = []) (hd : d.Filled w places d')
    (hstart : d.Settled w places d' ∨ k.opensBlock)
    (hrun : layOutline (.node k contents) d = .ok e) :
    ∃ e', layOutline (.node k contents') d' = .ok e' ∧
      e.Settled w (places ++ (inner.map (k.rims ++ ·)).map (rimsOf d.margins ++ ·)) e' ∧
      rimsOf e.margins = rimsOf d.margins := by
  by_cases hopens : k.opensBlock
  · obtain ⟨⟨p, options⟩, hk⟩ := Option.isSome_iff_exists.1 hopens
    simpa [Function.comp_def] using h.block hk hd hrun
  -- what opens no block shows nothing in front of lines
  have hnone : blockOf? k = none := by simpa [Kind.opensBlock] using hopens
  have hrims : (k.rims ++ ·) = (id : List Rim → List Rim) := by
    simp [Kind.rims, prefixesOf, hnone, funext_iff]
  have hsettled := hstart.resolve_right hopens
  rw [hrims, List.map_id]
  cases treatment k with
  | block hk => simp [hnone] at hk
  | delimited hblock hdelimiter =>
    rw [layOutline_delimited _ _ hblock hdelimiter] at hrun ⊢
    exact h.delimited hsettled hrun
  | link href =>
    by_cases hlink : isAutolink href contents
    · rw [layOutline_autolink _ _ hlink] at hrun
      rw [layOutline_autolink _ _ (hauto href ▸ hlink)]
      exact h.delimited hsettled hrun
    · obtain ⟨hnumber, hreference⟩ := hsettled.reference href
      rw [layOutline_reference _ _ hlink] at hrun
      rw [layOutline_reference _ _ (hauto href ▸ hlink), ← hnumber]
      have hmargins : (d.reference href).2.margins = d.margins := by
        rw [Draft.reference]
        split <;> rfl
      rw [← hmargins]
      exact h.delimited hreference hrun
  | lineBreak => exact absurd rfl hbreak
  | separator =>
    obtain ⟨e', hrun', he, hmargins⟩ := hsettled.boundary hrun
    rw [hbelow rfl, List.map_nil, List.append_nil, hmargins]
    exact ⟨e', hrun', he, rfl⟩
  | document => exact h hsettled hrun
  | orderedList => cases hrun

/-- What is laid out for a block-level node ends in a block without text. -/
theorem getLast?_blocks_of_block (hopens : k.opensBlock)
    (hrun : layOutline (.node k contents) d = .ok e) :
    e.blocks.getLast? = some { margins := e.margins } := by
  obtain ⟨⟨p, options⟩, hk⟩ := Option.isSome_iff_exists.1 hopens
  rw [layOutline_block contents d hk] at hrun
  obtain ⟨d₁, -, hclose⟩ := exists_of_bind_eq_ok hrun
  obtain ⟨outer, slot, -, rfl⟩ := Draft.eq_of_closing hclose
  exact List.getLast?_concat ..

end Layout

namespace Document.Forest

variable {w : String} {inner places : List (List Rim)} {F G : Forest} {d d' e : Draft}

theorem Spaced.joinedTexts?_eq (h : Spaced w inner F G) :
    Outline.joinedTexts? F.outlines = Outline.joinedTexts? G.outlines := by
  have htexts : F.outlines.mapM Outline.text? = G.outlines.mapM Outline.text? := by
    induction h with
    | nil => rfl
    | text s _ ih => rw [outlines, outlines, List.mapM_cons, List.mapM_cons, ih]
    | lineBreak | node | gap => simp [outlines, Outline.text?]
  rw [Outline.joinedTexts?, htexts, Outline.joinedTexts?]

theorem Spaced.isAutolink_eq (h : Spaced w inner F G) (href : String) :
    isAutolink href F.outlines = isAutolink href G.outlines := by
  rw [isAutolink, isAutolink, h.joinedTexts?_eq]

/-- Forests that are alike but for blank texts are laid out alike, and the texts are filled in. -/
theorem Spaced.layOutlines (h : Spaced w inner F G) (hF : F.SeparatorsChildless)
    (hd : d.Filled w places d') (hstart : d.Settled w places d' ∨ F.BeginsBlock)
    (hrun : layOutlines F.outlines d = .ok e) :
    ∃ e', layOutlines G.outlines d' = .ok e' ∧
      e.Settled w (places ++ inner.map (rimsOf d.margins ++ ·)) e' ∧
      rimsOf e.margins = rimsOf d.margins := by
  unfold SeparatorsChildless at hF
  -- one node and what follows it
  have hcons : ∀ {o : Outline} {os : List Outline} {d d₁ e : Draft}, layOutline o d = .ok d₁ →
      Layout.layOutlines os d₁ = .ok e → Layout.layOutlines (o :: os) d = .ok e := by
    intro o os d d₁ e hfirst hrest
    rw [Layout.layOutlines, hfirst]
    exact hrest
  induction h generalizing places d d' e with
  | nil =>
    cases hrun
    exact ⟨d', rfl, by simpa using hstart.resolve_right id, rfl⟩
  | text s _ ih =>
    have hd := hstart.resolve_right id
    have hrest := ih hF (hd.append s).filled (Or.inl (hd.append s)) hrun
    rw [d.rimsOf_margins_append] at hrest
    exact hrest
  | lineBreak i j B C _ ih =>
    have hd := hstart.resolve_right (by simp [BeginsBlock, Kind.opensBlock, blockOf?])
    obtain ⟨d₁, hfirst, hrest⟩ := exists_of_bind_eq_ok hrun
    obtain ⟨d₁', hfirst', hd₁, hmargins⟩ := hd.markHardBreak.boundary hfirst
    obtain ⟨e', hrest', he, hrims⟩ := ih hF.2.2 hd₁.filled (Or.inl hd₁) hrest
    rw [hmargins] at he hrims
    exact ⟨e', hcons (o := .node .lineBreak C.outlines) hfirst' hrest', he, hrims⟩
  | @node inner places' B C F G i j k hk hpre hbelow _ ihb ihr =>
    have hfills : Fills w inner B.outlines C.outlines := fun _ _ _ _ hd hrun =>
      ihb hF.2.1 hd.filled (Or.inl hd) hrun
    have hnone : k = .separator → inner = [] := fun hk => by
      obtain rfl := hF.1 hk
      exact hbelow.places_eq_nil
    obtain ⟨d₁, hfirst, hrest⟩ := exists_of_bind_eq_ok hrun
    obtain ⟨d₁', hfirst', hd₁, hrims₁⟩ :=
      hfills.node hbelow.isAutolink_eq hk hnone hd hstart hfirst
    obtain ⟨e', hrest', he, hrims⟩ := ihr hF.2.2 hd₁.filled (Or.inl hd₁) hrest
    rw [hrims₁] at he hrims
    refine ⟨e', hcons hfirst' hrest', ?_, hrims⟩
    rwa [List.map_append, ← List.append_assoc]
  | @gap inner places' B C F G i j k hk hpre hbelow _ hnext ihb ihr =>
    have hfills : Fills w inner B.outlines C.outlines := fun _ _ _ _ hd hrun =>
      ihb hF.2.1 hd.filled (Or.inl hd) hrun
    have hnone : k = .separator → inner = [] := fun hk' => by
      rw [hk'] at hk
      cases hk
    obtain ⟨d₁, hfirst, hrest⟩ := exists_of_bind_eq_ok hrun
    obtain ⟨d₁', hfirst', hd₁, hrims₁⟩ := hfills.node hbelow.isAutolink_eq
      (Kind.name_ne_of_opensBlock hk).2.2 hnone hd hstart hfirst
    have hfilled := hd₁.fill (getLast?_blocks_of_block hk hfirst)
    obtain ⟨e', hrest', he, hrims⟩ := ihr hF.2.2 hfilled (Or.inr hnext) hrest
    rw [hrims₁] at he hrims
    have htext : Layout.layOutlines (.text w :: G.outlines) d₁' = .ok e' := hrest'
    refine ⟨e', hcons hfirst' htext, ?_, hrims⟩
    simpa using he

end Document.Forest

/-- Documents that are alike but for white space between block-level elements have the same draft,
or drafts that are alike but for one block that has been filled in. -/
theorem draftOfHtml_spacedOut {w : String} {around : List String}
    {document document' : List Html.Node} (h : Html.SpacedOut w around document document')
    (hw : NoDash w) (hpre : "PRE" ∉ around) (options : ConversionOptions) :
    ∃ F draft draft', Forest.Normalized document options F ∧
      layOutline (.node .document F.outlines) {} = .ok draft ∧
      draftOfHtml document options = .ok draft ∧ draftOfHtml document' options = .ok draft' ∧
      (Html.Unread w around → draft = draft') ∧
      (¬ Html.Unread w around → ∃ before margins after,
        rimsOf margins = Html.rimsAround around options.quote ∧
        draft.blocks = before ++ { margins := margins } :: after ∧
        draft' = { draft with
          blocks := before ++ { margins := margins, contents := some w } :: after }) := by
  obtain ⟨F, hF, hdraft⟩ := exists_normalized document options
  obtain ⟨G, hG, hdraft'⟩ := exists_normalized document' options
  obtain ⟨draft, hlay, -⟩ := layOutlines_ok F hF.noOrderedList {}
  have hstart := Draft.Settled.refl (w := w) {}
  obtain ⟨_, hlay', ⟨bs, hbs, rfl⟩, -⟩ :=
    (hF.spaced hG hw h hpre).layOutlines hF.separators hstart.filled (Or.inl hstart) hlay
  simp only [List.nil_append, rimsOf_nil, List.map_id'] at hbs
  refine ⟨F, draft, _, hF, hlay, hdraft.trans hlay, hdraft'.trans hlay', fun hunread => ?_,
    fun hread => ?_⟩
  · rw [Html.placesOf_of_unread hunread] at hbs
    rw [← hbs.filledIn.eq_of_nil rfl]
  · rw [Html.placesOf, if_neg hread] at hbs
    obtain ⟨before, margins, after, hrims, hblocks, rfl⟩ := hbs.filledIn.exists_block rfl
    exact ⟨before, margins, after, hrims, hblocks, rfl⟩

end HtmlMarkdown
