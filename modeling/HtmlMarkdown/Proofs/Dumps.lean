import HtmlMarkdown.Document.Dump
import HtmlMarkdown.Proofs.Legible

/-!
A dump can be read in one way only. The two dumps differ in what they put around the children of
a node and are otherwise the same. Main statements: outlines with the same compact dump are the
same, and so are outlines with the same indented dump.
-/
namespace HtmlMarkdown.Document

open Text

/-! Labels. -/

namespace Kind

def Name.all : List Name :=
  [document, heading, link, bold, italic, listItem, orderedList, numberedItem, code, preformatted,
    paragraph, blockquote, lineBreak, separator]

theorem Name.mem_all (n : Name) : n ∈ all := by cases n <;> decide

theorem Name.eq_of_prefix_of_mem :
    ∀ n ∈ all, ∀ m ∈ all, n.text.toList <+: m.text.toList → n = m := by
  decide

/-- No name starts with another one. -/
theorem Name.eq_of_prefix {n m : Name} (h : n.text.toList <+: m.text.toList) : n = m :=
  eq_of_prefix_of_mem n n.mem_all m m.mem_all h

theorem Name.exists_cons (n : Name) : ∃ c w, n.text.toList = c :: w ∧ c ≠ '"' := by
  cases n <;> exact ⟨_, _, rfl, by decide⟩

/-- What a label shows behind the name. -/
def details : Kind → List Char
  | heading level => '(' :: decimal level.value ++ [')']
  | link href => '(' :: quoted href.toList ++ [')']
  | numberedItem number => '(' :: decimal number ++ [')']
  | blockquote true => "(trailers)".toList
  | _ => []

theorem opened_eq (n : Name) {opened : String} (h : opened.toList = n.text.toList ++ ['('])
    (data : List Char) :
    opened.toList ++ data ++ [')'] = n.text.toList ++ ('(' :: data ++ [')']) := by
  rw [h, List.append_assoc, List.append_assoc]
  rfl

theorem label_eq (k : Kind) : k.label = k.name.text.toList ++ k.details := by
  cases k with
  | heading level => exact opened_eq .heading (by decide) _
  | link href => exact opened_eq .link (by decide) _
  | numberedItem number => exact opened_eq .numberedItem (by decide) _
  | blockquote acceptsTrailers => cases acceptsTrailers <;> rfl
  | _ => exact (List.append_nil _).symm

theorem label_ne_quote (k : Kind) (r s : List Char) : k.label ++ r ≠ '"' :: s := by
  obtain ⟨c, w, hw, hc⟩ := k.name.exists_cons
  rw [label_eq, hw]
  exact fun h => hc (List.cons.inj h).1

variable {k k' : Kind} {r s : List Char}

theorem decimal_unique {m n : Nat} (h : decimal m ++ [')'] ++ r = decimal n ++ [')'] ++ s) :
    m = n ∧ r = s := by
  have hclosing : ∀ t, Avoids digits (')' :: t) := fun _ => avoids_cons (by decide)
  rw [List.append_assoc, List.append_assoc] at h
  obtain ⟨rfl, hrest⟩ := legible_toDigits (by decide) (by decide) (hclosing r) (hclosing s) h
  exact ⟨rfl, (List.cons.inj hrest).2⟩

/-- Kinds of the same name are told apart by their details. Those that have none are told from
those that have some by what must not follow. -/
theorem details_unique (hname : k.name = k'.name) (hr : Avoids ['('] r) (hs : Avoids ['('] s)
    (h : k.details ++ r = k'.details ++ s) : k = k' ∧ r = s := by
  cases k with
  | heading level =>
    cases k' with
    | heading level' =>
      obtain ⟨hvalue, hrest⟩ := decimal_unique (List.cons.inj h).2
      cases level
      cases level'
      cases hvalue
      exact ⟨rfl, hrest⟩
    | _ => cases hname
  | link href =>
    cases k' with
    | link href' =>
      have hquoted : quoted href.toList ++ [')'] ++ r = quoted href'.toList ++ [')'] ++ s :=
        (List.cons.inj h).2
      rw [List.append_assoc, List.append_assoc] at hquoted
      obtain ⟨hhref, hrest⟩ := legible_quoted (by simp [Avoids]) (by simp [Avoids]) hquoted
      exact ⟨congrArg link (String.toList_inj.1 hhref), (List.cons.inj hrest).2⟩
    | _ => cases hname
  | numberedItem number =>
    cases k' with
    | numberedItem number' =>
      obtain ⟨rfl, hrest⟩ := decimal_unique (List.cons.inj h).2
      exact ⟨rfl, hrest⟩
    | _ => cases hname
  | blockquote acceptsTrailers =>
    cases k' with
    | blockquote acceptsTrailers' =>
      cases acceptsTrailers <;> cases acceptsTrailers'
      · exact ⟨rfl, h⟩
      · subst h
        exact absurd (List.mem_singleton_self _) (hr '(' rfl)
      · subst h
        exact absurd (List.mem_singleton_self _) (hs '(' rfl)
      · exact ⟨rfl, List.append_cancel_left h⟩
    | _ => cases hname
  | _ =>
    cases k' <;> first
      | exact ⟨rfl, h⟩
      | cases hname

theorem legible_label : Legible ['('] label := by
  intro k k' r s hr hs h
  rw [label_eq, label_eq, List.append_assoc, List.append_assoc] at h
  have hname : k.name = k'.name := by
    have hstart : k.name.text.toList <+: k'.name.text.toList ++ (k'.details ++ s) := ⟨_, h⟩
    rcases List.prefix_or_prefix_of_prefix hstart (List.prefix_append ..) with hp | hp
    · exact Name.eq_of_prefix hp
    · exact (Name.eq_of_prefix hp).symm
  rw [hname] at h
  exact details_unique hname hr hs (List.append_cancel_left h)

end Kind

/-! Layouts. -/

/-- What a dump puts around the children of a node that lies at the given depth: in front of the
first one, in front of each other one, and behind the last one. -/
structure Spacing where
  opening : Nat → List Char
  between : Nat → List Char
  closing : Nat → List Char

namespace Outline

mutual

/-- The dump of an outline that lies at the given depth. -/
def dump (sp : Spacing) (depth : Nat) : Outline → List Char
  | text contents => quoted contents.toList
  | node kind below => kind.label ++ dumpBelow sp depth below

/-- The dumps of the children of a node, in brackets if there are any. -/
def dumpBelow (sp : Spacing) (depth : Nat) : List Outline → List Char
  | [] => []
  | first :: rest =>
    '[' :: (sp.opening depth ++ (dump sp (depth + 1) first ++ dumpRest sp depth rest))

/-- The dumps of the other children of a node, with what closes their list. -/
def dumpRest (sp : Spacing) (depth : Nat) : List Outline → List Char
  | [] => sp.closing depth ++ [']']
  | next :: rest => sp.between depth ++ (dump sp (depth + 1) next ++ dumpRest sp depth rest)

end

/-- Everything on one line. -/
def onOneLine : Spacing where
  opening _ := []
  between _ := [',', ' ']
  closing _ := []

/-- Every child on a line of its own. -/
def onOwnLines : Spacing where
  opening depth := freshLine (depth + 1)
  between depth := freshLine (depth + 1)
  closing depth := freshLine depth

mutual

theorem dump_onOneLine (depth : Nat) : ∀ o : Outline, o.dump onOneLine depth = o.compactDump
  | text contents => rfl
  | node kind [] => List.append_nil _
  | node kind (first :: rest) => by
    rw [dump, dumpBelow, compactDump, dump_onOneLine (depth + 1) first,
      dumpRest_onOneLine depth rest]
    simp [onOneLine]

theorem dumpRest_onOneLine (depth : Nat) :
    ∀ os : List Outline, dumpRest onOneLine depth os = compactDumpRest os ++ [']']
  | [] => rfl
  | next :: rest => by
    rw [dumpRest, compactDumpRest, dump_onOneLine (depth + 1) next, dumpRest_onOneLine depth rest]
    simp [onOneLine]

end

mutual

theorem dump_onOwnLines (depth : Nat) :
    ∀ o : Outline, o.dump onOwnLines depth = o.indentedDump depth
  | text contents => rfl
  | node kind [] => List.append_nil _
  | node kind (first :: rest) => by
    rw [dump, dumpBelow, indentedDump, indentedDumpLines, dump_onOwnLines (depth + 1) first,
      dumpRest_onOwnLines depth rest]
    simp [onOwnLines]

theorem dumpRest_onOwnLines (depth : Nat) : ∀ os : List Outline,
    dumpRest onOwnLines depth os = indentedDumpLines (depth + 1) os ++ freshLine depth ++ [']']
  | [] => rfl
  | next :: rest => by
    rw [dumpRest, indentedDumpLines, dump_onOwnLines (depth + 1) next,
      dumpRest_onOwnLines depth rest]
    simp [onOwnLines]

end

/-- Another child is told from the end of the list, and neither is taken for more of the node in
front of it. -/
structure Clear (sp : Spacing) : Prop where
  between_ne : ∀ depth r s, sp.between depth ++ r ≠ sp.closing depth ++ ']' :: s
  between_avoids : ∀ depth r, Avoids ['(', '['] (sp.between depth ++ r)
  closing_avoids : ∀ depth r, Avoids ['(', '['] (sp.closing depth ++ ']' :: r)

variable {sp : Spacing} {depth : Nat} {r s : List Char}

theorem dumpRest_avoids (h : Clear sp) (os : List Outline) :
    Avoids ['(', '['] (dumpRest sp depth os ++ r) := by
  cases os with
  | nil =>
    rw [dumpRest, List.append_assoc]
    exact h.closing_avoids depth r
  | cons next rest =>
    rw [dumpRest, List.append_assoc]
    exact h.between_avoids depth _

/-- No bracket is opened behind a node without children, so no parenthesis stands behind a label
that shows none. -/
theorem dumpBelow_avoids (os : List Outline) (hr : Avoids ['(', '['] r) :
    Avoids ['('] (dumpBelow sp depth os ++ r) := by
  cases os with
  | nil => exact fun c hc hmem => hr c hc (List.mem_cons.2 (Or.inl (List.mem_singleton.1 hmem)))
  | cons first rest => exact avoids_cons (by decide)

mutual

/-- A dump is read from its start: the kind, then whether there are children, then the children,
one after the other. -/
theorem dump_unique (h : Clear sp) : ∀ (depth : Nat) (o o' : Outline) {r s : List Char},
    Avoids ['(', '['] r → Avoids ['(', '['] s → o.dump sp depth ++ r = o'.dump sp depth ++ s →
      o = o' ∧ r = s
  | depth, text contents, text contents', r, s, _, _, heq => by
    obtain ⟨hcontents, hrest⟩ := legible_quoted (by simp [Avoids]) (by simp [Avoids]) heq
    exact ⟨congrArg text (String.toList_inj.1 hcontents), hrest⟩
  | depth, text contents, node kind below, r, s, _, _, heq => by
    rw [dump, dump, List.append_assoc] at heq
    exact absurd heq.symm (kind.label_ne_quote _ _)
  | depth, node kind below, text contents, r, s, _, _, heq => by
    rw [dump, dump, List.append_assoc] at heq
    exact absurd heq (kind.label_ne_quote _ _)
  | depth, node kind below, node kind' below', r, s, hr, hs, heq => by
    rw [dump, dump, List.append_assoc, List.append_assoc] at heq
    obtain ⟨rfl, hbelow⟩ :=
      Kind.legible_label (dumpBelow_avoids below hr) (dumpBelow_avoids below' hs) heq
    obtain ⟨rfl, hrest⟩ := dumpBelow_unique h depth below below' hr hs hbelow
    exact ⟨rfl, hrest⟩

theorem dumpBelow_unique (h : Clear sp) : ∀ (depth : Nat) (os os' : List Outline) {r s : List Char},
    Avoids ['(', '['] r → Avoids ['(', '['] s →
      dumpBelow sp depth os ++ r = dumpBelow sp depth os' ++ s → os = os' ∧ r = s
  | depth, [], [], r, s, _, _, heq => ⟨rfl, heq⟩
  | depth, [], first :: rest, r, s, hr, _, heq => by
    rw [dumpBelow, List.nil_append] at heq
    subst heq
    exact absurd (by simp) (hr '[' rfl)
  | depth, first :: rest, [], r, s, _, hs, heq => by
    rw [dumpBelow, dumpBelow, List.nil_append] at heq
    subst heq
    exact absurd (by simp) (hs '[' rfl)
  | depth, first :: rest, first' :: rest', r, s, _, _, heq => by
    simp only [dumpBelow, List.cons_append, List.append_assoc, List.cons.injEq, true_and,
      List.append_cancel_left_eq] at heq
    obtain ⟨rfl, hrest⟩ := dump_unique h (depth + 1) first first' (dumpRest_avoids h rest)
      (dumpRest_avoids h rest') heq
    obtain ⟨rfl, hend⟩ := dumpRest_unique h depth rest rest' hrest
    exact ⟨rfl, hend⟩

theorem dumpRest_unique (h : Clear sp) : ∀ (depth : Nat) (os os' : List Outline) {r s : List Char},
    dumpRest sp depth os ++ r = dumpRest sp depth os' ++ s → os = os' ∧ r = s
  | depth, [], [], r, s, heq => by
    rw [List.append_cancel_left_eq] at heq
    exact ⟨rfl, heq⟩
  | depth, [], next :: rest, r, s, heq => by
    simp only [dumpRest, List.append_assoc] at heq
    exact absurd heq.symm (h.between_ne depth _ _)
  | depth, next :: rest, [], r, s, heq => by
    simp only [dumpRest, List.append_assoc] at heq
    exact absurd heq (h.between_ne depth _ _)
  | depth, next :: rest, next' :: rest', r, s, heq => by
    simp only [dumpRest, List.append_assoc, List.append_cancel_left_eq] at heq
    obtain ⟨rfl, hrest⟩ := dump_unique h (depth + 1) next next' (dumpRest_avoids h rest)
      (dumpRest_avoids h rest') heq
    obtain ⟨rfl, hend⟩ := dumpRest_unique h depth rest rest' hrest
    exact ⟨rfl, hend⟩

end

theorem legible_dump (h : Clear sp) (depth : Nat) : Legible ['(', '['] (dump sp depth) :=
  fun o o' _ _ hr hs heq => dump_unique h depth o o' hr hs heq

/-- A deeper line is indented by two more columns. -/
theorem freshLine_succ (depth : Nat) : freshLine (depth + 1) = freshLine depth ++ [' ', ' '] := by
  have hmore : List.replicate (2 * (depth + 1)) ' ' =
      List.replicate (2 * depth) ' ' ++ [' ', ' '] :=
    (List.replicate_append_replicate ..).symm
  rw [freshLine, freshLine, hmore, List.cons_append]

theorem clear_onOneLine : Clear onOneLine where
  between_ne _ _ _ heq := absurd (List.cons.inj heq).1 (by decide)
  between_avoids _ _ := avoids_cons (by decide)
  closing_avoids _ _ := avoids_cons (by decide)

theorem clear_onOwnLines : Clear onOwnLines where
  between_ne depth r s heq := by
    -- the closing bracket stands where the deeper line still has a space
    have hsame : freshLine depth ++ ([' ', ' '] ++ r) = freshLine depth ++ ']' :: s := by
      rw [← List.append_assoc, ← freshLine_succ]
      exact heq
    exact absurd (List.cons.inj (List.append_cancel_left hsame)).1 (by decide)
  between_avoids _ _ := avoids_cons (by decide)
  closing_avoids _ _ := avoids_cons (by decide)

theorem compactDump_injective : Function.Injective compactDump := by
  intro o o' h
  rw [← dump_onOneLine 0, ← dump_onOneLine 0] at h
  exact (legible_dump clear_onOneLine 0).injective h

theorem indentedDump_injective (depth : Nat) : Function.Injective (indentedDump depth) := by
  intro o o' h
  rw [← dump_onOwnLines, ← dump_onOwnLines] at h
  exact (legible_dump clear_onOwnLines depth).injective h

theorem compact_inj {o o' : Outline} : o.compact = o'.compact ↔ o = o' := by
  rw [compact, compact, String.ofList_inj]
  exact compactDump_injective.eq_iff

theorem indented_inj {o o' : Outline} : o.indented = o'.indented ↔ o = o' := by
  rw [indented, indented, String.ofList_inj]
  exact (indentedDump_injective 0).eq_iff

end Outline
end HtmlMarkdown.Document
