import HtmlMarkdown.Proofs.ClipboardPrograms
import HtmlMarkdown.Proofs.Paths

/-!
The temporary file of the Windows clipboard, which `powershell.exe` writes and names. Removing a
file takes away what its paths lead to, and every other path leads where it led before. Main
statement: reading the clipboard leaves the files as they are, whatever the answer is, but for the
one that `powershell.exe` names, which is gone whenever that program has been run and the system
lets go of the file.
-/
namespace HtmlMarkdown.World.Folder

variable {folder : Folder} {place : Place} {entry : Entry} {key other path : String}
  {bytes : List UInt8} {guard : Guard} {components : List (List Char)}

/-- Without a file every walk ends where it did, unless it ended at that file. -/
theorem walk_without_iff (hfile : folder.lookup? key = some (.regular bytes guard)) :
    (folder.without key).walk place .directory components = .ok (other, entry) ↔
      folder.walk place .directory components = .ok (other, entry) ∧
        ¬ (other = key ∧ entry = .regular bytes guard) := by
  induction components generalizing place with
  | nil =>
    simp only [walk, Except.ok.injEq, Prod.mk.injEq]
    refine ⟨fun h => ⟨h, ?_⟩, And.left⟩
    rintro ⟨-, hentry⟩
    rw [hentry] at h
    cases h.2
  | cons component rest ih =>
    simp only [walk]
    split_ifs
    · exact ih
    · simp
    · exact ih
    · by_cases hkey : (place.below component).key = key
      · -- The walk comes to the file, so it ends there or goes wrong.
        rw [lookup?_without, if_pos hkey, hkey, hfile]
        simp only [walk_regular, hkey]
        constructor
        · intro h
          cases h
        · rintro ⟨h, hother⟩
          split_ifs at h
          cases h
          exact absurd ⟨rfl, rfl⟩ hother
      · rw [lookup?_without, if_neg hkey]
        cases folder.lookup? (place.below component).key with
        | none => simp
        | some next =>
          cases next with
          | directory => exact ih
          | regular contents guard' =>
            simp only [walk_regular]
            refine ⟨fun h => ⟨h, ?_⟩, And.left⟩
            rintro ⟨rfl, -⟩
            split_ifs at h
            cases h
            exact hkey rfl

theorem locate_without_iff (hfile : folder.lookup? key = some (.regular bytes guard)) :
    (folder.without key).locate path = .ok (other, entry) ↔
      folder.locate path = .ok (other, entry) ∧
        ¬ (other = key ∧ entry = .regular bytes guard) := by
  unfold locate
  split_ifs
  · simp
  · simp
  · simp
  · exact walk_without_iff hfile

end HtmlMarkdown.World.Folder

namespace HtmlMarkdown.Clipboard

open World

variable {programs : Programs} {folder : Folder} {run : ProgramRun}
  {key path : String} {bytes : List UInt8} {guard : Guard}

/-! Clearing the file away. -/

theorem clearTemporary_eq_without (h : folder.locate path = .ok (key, .regular bytes guard))
    (hguard : guard.removing = none) : clearTemporary folder path = folder.without key := by
  simp only [clearTemporary, Folder.remove, h, hguard]

/-- The file stays where the system does not let go of it, and there may be none. -/
theorem clearTemporary_eq_self
    (h : ∀ key bytes guard, folder.locate path = .ok (key, .regular bytes guard) →
      guard.removing ≠ none) : clearTemporary folder path = folder := by
  unfold clearTemporary Folder.remove
  split
  · rename_i cleared hremove
    split at hremove
    · rename_i key bytes guard hlocate
      split at hremove
      · cases hremove
      · rename_i hguard
        exact absurd hguard (h key bytes guard hlocate)
    · cases hremove
    · cases hremove
  · rfl

/-- A path to nothing need not be cleared. -/
theorem clearTemporary_of_not_exists (h : ¬ folder.exists? path = true) :
    clearTemporary folder path = folder := by
  apply clearTemporary_eq_self
  intro key bytes guard hlocate
  rw [Folder.exists?, hlocate] at h
  exact absurd rfl h

theorem readPowershell_folder (program : Program) (folder : Folder) :
    (readPowershell program folder).2 = match program with
      | .runs run => clearTemporary folder (namedFile run)
      | .refused _ => folder := by
  cases program with
  | refused e => rfl
  | runs run =>
    simp only [readPowershell, start]
    split_ifs with hquiet hexists
    · cases folder.read (namedFile run) <;> rfl
    · rfl
    · exact (clearTemporary_of_not_exists hexists).symm

theorem readPowershell_result_congr {folder' : Folder}
    (h : folder.locate (namedFile run) = folder'.locate (namedFile run)) :
    (readPowershell (.runs run) folder).1 = (readPowershell (.runs run) folder').1 := by
  simp only [readPowershell, start, Folder.read_congr h]
  by_cases hquiet : run.errorOutput.isEmpty = true
  · rw [if_pos hquiet, if_pos hquiet]
    cases folder'.read (namedFile run) <;> rfl
  · rw [if_neg hquiet, if_neg hquiet]

/-- Only `powershell.exe` has the files changed, and only if no other program is there. -/
theorem readClipboard_folder (programs : Programs) (folder : Folder) :
    (readClipboard programs folder).2 =
      if programs.osascript = .missing ∧ programs.xclip = .missing then
        (readPowershell programs.powershell folder).2
      else folder := by
  split_ifs with h
  · rw [readClipboard_powershell h.1 h.2]
    split
    · rename_i hread
      rw [hread]
    · rfl
  · by_cases ho : programs.osascript = .missing
    · have hx : programs.xclip ≠ .missing := fun hx => h ⟨ho, hx⟩
      have hne := read_ne_notFound folder .xclip hx fun hfile => nomatch hfile.1
      rw [readClipboard_xclip ho hne]
    · have hne := read_ne_notFound folder .osascript ho fun hfile => nomatch hfile.1
      rw [readClipboard_osascript hne]

/-- The answer depends on the files only where it is down to `powershell.exe`, and then on what the
path that it names leads to. -/
theorem readClipboard_result_congr {folder' : Folder}
    (h : ∀ run, programs.osascript = .missing → programs.xclip = .missing →
      programs.powershell = .runs run →
      folder.locate (namedFile run) = folder'.locate (namedFile run)) :
    (readClipboard programs folder).1 = (readClipboard programs folder').1 := by
  by_cases ho : programs.osascript = .missing
  · by_cases hx : programs.xclip = .missing
    · have hread : (readPowershell programs.powershell folder).1 =
          (readPowershell programs.powershell folder').1 := by
        cases hprogram : programs.powershell with
        | refused e => rfl
        | runs run => exact readPowershell_result_congr (h run ho hx hprogram)
      rw [readClipboard_powershell_result ho hx, readClipboard_powershell_result ho hx, hread]
    · have hne := fun folder : Folder =>
        read_ne_notFound folder .xclip hx fun hfile => nomatch hfile.1
      rw [readClipboard_xclip ho (hne folder), readClipboard_xclip ho (hne folder')]
  · have hne := fun folder : Folder =>
      read_ne_notFound folder .osascript ho fun hfile => nomatch hfile.1
    rw [readClipboard_osascript (hne folder), readClipboard_osascript (hne folder')]

/-- It is down to `powershell.exe`, which runs and names the file of the given key, and the system
lets go of that file. -/
def HandsOver (programs : Programs) (folder : Folder) (run : ProgramRun) (key : String) : Prop :=
  programs.osascript = .missing ∧ programs.xclip = .missing ∧ programs.powershell = .runs run ∧
    ∃ bytes guard, folder.locate (namedFile run) = .ok (key, .regular bytes guard) ∧
      guard.removing = none

theorem readClipboard_eq_without (h : HandsOver programs folder run key) :
    (readClipboard programs folder).2 = folder.without key := by
  obtain ⟨ho, hx, hprogram, bytes, guard, hlocate, hguard⟩ := h
  rw [readClipboard_folder, if_pos ⟨ho, hx⟩, readPowershell_folder, hprogram]
  exact clearTemporary_eq_without hlocate hguard

theorem readClipboard_eq_self (h : ∀ run key, ¬ HandsOver programs folder run key) :
    (readClipboard programs folder).2 = folder := by
  rw [readClipboard_folder, readPowershell_folder]
  split_ifs with hdown
  · cases hprogram : programs.powershell with
    | refused e => rfl
    | runs run =>
      apply clearTemporary_eq_self
      intro key bytes guard hlocate hguard
      exact h run key ⟨hdown.1, hdown.2, hprogram, bytes, guard, hlocate, hguard⟩
  · rfl

end HtmlMarkdown.Clipboard
