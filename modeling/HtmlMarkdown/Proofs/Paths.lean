import HtmlMarkdown.World.Folder
import Mathlib.Tactic.SplitIfs

/-!
Paths. A path comes by one place after the other, and what it leads to depends on nothing but what
is at these places. Where it leads to anything, that is at the place which it names.
-/
namespace HtmlMarkdown.World

/-! Places. -/

namespace Place

/-- The places that the components lead to one after the other. -/
def along (place : Place) : List (List Char) → List Place
  | [] => []
  | component :: rest => place.step component :: (place.step component).along rest

/-- The places that a path comes by, the one that it names among them. -/
def onWay (start : Place) (path : String) : List Place :=
  (start.route path).1.along (start.route path).2

variable {place : Place} {component : List Char}

theorem step_eq_self (h : component = [] ∨ component = ['.']) : place.step component = place :=
  if_pos h

theorem step_eq_above (h : component = ['.', '.']) : place.step component = place.above := by
  subst h
  rfl

theorem step_eq_below (hself : ¬ (component = [] ∨ component = ['.']))
    (habove : component ≠ ['.', '.']) : place.step component = place.below component := by
  rw [step, if_neg hself, if_neg habove]

end Place

namespace Folder

variable {folder folder' : Folder} {place : Place} {entry entry' : Entry} {key path : String}
  {bytes : List UInt8} {guard : Guard} {components : List (List Char)}

/-! What is listed. -/

theorem lookup?_without (folder : Folder) (key other : String) :
    (folder.without key).lookup? other = if other = key then none else folder.lookup? other := by
  rw [lookup?, without, List.find?_filter]
  split_ifs with hother
  · subst hother
    simp
  · have hsame : (fun entry : String × Entry => decide (entry.1 != key ∧ entry.1 == other)) =
        fun entry => entry.1 == other := by
      funext entry
      by_cases hentry : entry.1 = other
      · simp [hentry, hother]
      · simp [hentry]
    rw [hsame]
    rfl

theorem lookup?_put (folder : Folder) (key other : String) (entry : Entry) :
    (folder.put key entry).lookup? other =
      if other = key then some entry else folder.lookup? other := by
  have hwithout := lookup?_without folder key other
  rw [lookup?, put, List.find?_cons]
  by_cases hother : other = key
  · simp [hother]
  · have hkey : (key == other) = false := beq_eq_false_iff_ne.2 (Ne.symm hother)
    rw [hkey, if_neg hother]
    rw [if_neg hother] at hwithout
    exact hwithout

/-! Walks. -/

/-- A file is where a walk ends. -/
theorem walk_regular : folder.walk place (.regular bytes guard) components =
    if components = [] then .ok (place.key, .regular bytes guard)
    else .error .notADirectory := by
  cases components <;> rfl

/-- A walk depends on nothing but what is at the places along it. -/
theorem walk_congr (h : ∀ next ∈ place.along components,
    folder.lookup? next.key = folder'.lookup? next.key) :
    folder.walk place entry components = folder'.walk place entry components := by
  induction components generalizing place entry with
  | nil => rfl
  | cons component rest ih =>
    cases entry with
    | regular bytes guard => rfl
    | directory =>
      rw [Place.along, List.forall_mem_cons] at h
      obtain ⟨hfirst, hrest⟩ := h
      simp only [walk]
      split_ifs with hself hlong habove
      · rw [Place.step_eq_self hself] at hrest
        exact ih hrest
      · rfl
      · rw [Place.step_eq_above habove] at hrest
        exact ih hrest
      · rw [Place.step_eq_below hself habove] at hfirst hrest
        rw [hfirst]
        cases folder'.lookup? (place.below component).key with
        | none => rfl
        | some next => exact ih hrest

/-- A walk ends at the place that its components lead to. -/
theorem key_of_walk (h : folder.walk place entry components = .ok (key, entry')) :
    (components.foldl Place.step place).key = key := by
  induction components generalizing place entry with
  | nil =>
    cases h
    rfl
  | cons component rest ih =>
    cases entry with
    | regular bytes guard => cases h
    | directory =>
      rw [List.foldl_cons]
      simp only [walk] at h
      split_ifs at h with hself hlong habove
      · rw [Place.step_eq_self hself]
        exact ih h
      · rw [Place.step_eq_above habove]
        exact ih h
      · rw [Place.step_eq_below hself habove]
        split at h
        · cases h
        · exact ih h

/-- A walk comes to a file by the key under which the file is listed. -/
theorem lookup?_of_walk
    (h : folder.walk place .directory components = .ok (key, .regular bytes guard)) :
    folder.lookup? key = some (.regular bytes guard) := by
  induction components generalizing place with
  | nil => cases h
  | cons component rest ih =>
    simp only [walk] at h
    split_ifs at h
    · exact ih h
    · exact ih h
    · cases hnext : folder.lookup? (place.below component).key with
      | none =>
        rw [hnext] at h
        cases h
      | some next =>
        rw [hnext] at h
        cases next with
        | directory => exact ih h
        | regular contents guard' =>
          simp only [walk_regular] at h
          split_ifs at h
          cases h
          exact hnext

/-! Paths. -/

/-- What a path leads to depends on nothing but what is at the places that it comes by. -/
theorem locate_congr (hstart : folder.start = folder'.start)
    (h : ∀ place ∈ folder.start.onWay path,
      folder.lookup? place.key = folder'.lookup? place.key) :
    folder.locate path = folder'.locate path := by
  unfold locate
  rw [walk_congr h, hstart]

/-- What a path leads to is at the place that it names. -/
theorem key_of_locate (h : folder.locate path = .ok (key, entry)) :
    (folder.start.follow path).key = key := by
  unfold locate at h
  split_ifs at h
  exact key_of_walk h

theorem lookup?_of_locate (h : folder.locate path = .ok (key, .regular bytes guard)) :
    folder.lookup? key = some (.regular bytes guard) := by
  unfold locate at h
  split_ifs at h
  exact lookup?_of_walk h

theorem read_congr (h : folder.locate path = folder'.locate path) :
    folder.read path = folder'.read path := by
  rw [read, read, h]

end Folder
end HtmlMarkdown.World
