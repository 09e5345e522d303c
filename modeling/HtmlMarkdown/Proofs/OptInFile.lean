import HtmlMarkdown.CommandLine.Run
import HtmlMarkdown.Proofs.Encoding
import HtmlMarkdown.Proofs.TemporaryFile

/-!
Runs and the opt-in file. A run reads its input, puts the time at the end of the opt-in file, and
converts the input. The opt-in file lies among the files that the input may come from. Main
statement: as long as no path that a run reads comes by its place, whether there is a home folder
and what is at that place has no bearing on the result and the other files; and the opt-in file
gets one line, exactly if there is a home folder, the file is there and can be written to, and the
input has been read, unless it is itself what `powershell.exe` hands over.
-/
namespace HtmlMarkdown.Telemetry

open Text World

variable {home : Option String} {millis : Int} {folder : Folder} {key : String}
  {bytes : List UInt8} {guard : Guard}

/-! The place of the file. -/

theorem join_eq {path component : String} (hne : path ≠ "")
    (hlast : path.toList.getLast? ≠ some '/') : join path component = path ++ "/" ++ component := by
  rw [join, if_neg hne, if_neg hlast]

theorem join_append_eq {path folder component : String} {c : Char}
    (hlast : folder.toList.getLast? = some c) (hc : c ≠ '/') :
    join (path ++ folder) component = path ++ folder ++ "/" ++ component := by
  have hend : (path ++ folder).toList.getLast? = some c := by
    rw [String.toList_append, List.getLast?_append, hlast, Option.some_or]
  apply join_eq
  · intro hempty
    rw [hempty] at hend
    cases hend
  · rw [hend]
    exact fun h => hc (Option.some.inj h)

/-- Where the opt-in file lies, if the home folder has a name that does not end with a slash. -/
theorem fileIn_eq {home : String} (hne : home ≠ "") (hlast : home.toList.getLast? ≠ some '/') :
    fileIn home = home ++ "/.config/2md/local-telemetry-opt-in" := by
  have hconfig : join home ".config" = home ++ "/.config" := by
    rw [join_eq hne hlast, String.append_assoc]
    rfl
  have hfolder : join (home ++ "/.config") "2md" = home ++ "/.config/2md" := by
    rw [join_append_eq (c := 'g') (by decide) (by decide), String.append_assoc,
      String.append_assoc]
    rfl
  rw [fileIn, hconfig, hfolder, join_append_eq (c := 'd') (by decide) (by decide),
    String.append_assoc, String.append_assoc]
  rfl

/-! The line that is written. -/

/-- A number in decimal digits, behind a sign if it is negative. -/
def decimal : Int → List Char
  | .ofNat n => Nat.toDigits 10 n
  | .negSucc n => '-' :: Nat.toDigits 10 (n + 1)

theorem toList_toString (millis : Int) : (toString millis).toList = decimal millis := by
  cases millis with
  | ofNat n => exact Nat.toList_repr
  | negSucc n =>
    change ("-" ++ (n + 1).repr).toList = _
    rw [String.toList_append, Nat.toList_repr]
    rfl

theorem toUTF8_eq_encode (s : String) : s.toUTF8.data.toList = encode s.toList := by
  have hs : s = String.ofList s.toList := String.ofList_toList.symm
  rw [hs, String.toUTF8_eq_toByteArray, String.toByteArray_ofList, List.utf8Encode,
    List.data_toByteArray, String.toList_ofList]
  rfl

theorem stamp_eq (millis : Int) : stamp millis = encode (decimal millis ++ ['\n']) := by
  rw [stamp, toUTF8_eq_encode, String.toList_append, toList_toString]
  rfl

theorem stamp_ne_nil (millis : Int) : stamp millis ≠ [] := by
  rw [stamp_eq, encode_append]
  exact List.append_ne_nil_of_right_ne_nil _ (by decide)

/-! Writing it. -/

/-- The path of the opt-in file leads to a file, of the given key, that can be written to. -/
def Invites (home : Option String) (folder : Folder) (key : String) (bytes : List UInt8)
    (guard : Guard) : Prop :=
  ∃ path, file? home = some path ∧ folder.locate path = .ok (key, .regular bytes guard) ∧
    guard.writing = none

theorem tell_of_invites (h : Invites home folder key bytes guard) :
    tell home millis folder = folder.put key (.regular (bytes ++ stamp millis) guard) := by
  obtain ⟨path, hpath, hlocate, hguard⟩ := h
  simp only [tell, hpath, record, Folder.exists?, Folder.append, hlocate, hguard, if_true]

theorem tell_eq_self (h : ∀ key bytes guard, ¬ Invites home folder key bytes guard) :
    tell home millis folder = folder := by
  unfold tell
  cases hpath : file? home with
  | none => rfl
  | some path =>
    cases hlocate : folder.locate path with
    | error e => simp only [record, Folder.exists?, hlocate, Bool.false_eq_true, if_false]
    | ok found =>
      obtain ⟨key, entry⟩ := found
      cases entry with
      | directory => simp only [record, Folder.exists?, Folder.append, hlocate, if_true]
      | regular bytes guard =>
        have hguard : guard.writing ≠ none := fun hguard =>
          h key bytes guard ⟨path, hpath, hlocate, hguard⟩
        obtain ⟨refusal, hrefusal⟩ := Option.ne_none_iff_exists'.1 hguard
        simp only [record, Folder.exists?, Folder.append, hlocate, hrefusal, if_true]

end HtmlMarkdown.Telemetry

namespace HtmlMarkdown.CommandLine

open World Telemetry Clipboard

variable {o : Options} {e e' : Environment} {bytes : List UInt8} {guard : Guard}
  {key gone path : String}

/-! What two runs have in common. -/

namespace Environment

/-- The key of the place of the opt-in file, if a home folder is known. -/
def optInKey? (e : Environment) : Option String :=
  (file? e.home).map fun path => (e.folder.start.follow path).key

/-- The path does not come by the place of the opt-in file. -/
def Apart (e : Environment) (path : String) : Prop :=
  ∀ place ∈ e.folder.start.onWay path, e.optInKey? ≠ some place.key

instance (e : Environment) (path : String) : Decidable (e.Apart path) :=
  inferInstanceAs (Decidable (∀ place ∈ e.folder.start.onWay path, e.optInKey? ≠ some place.key))

/-- The same is there to work on: the standard input, the clipboard programs, and all files besides
the opt-in file of either. Home folder, opt-in file and time are free. -/
structure SameWork (e e' : Environment) : Prop where
  standardInput_eq : e.standardInput = e'.standardInput
  programs_eq : e.programs = e'.programs
  start_eq : e.folder.start = e'.folder.start
  lookup?_eq : ∀ key, e.optInKey? ≠ some key → e'.optInKey? ≠ some key →
    e.folder.lookup? key = e'.folder.lookup? key

/-- What is at the place of the opt-in file is no work to do. -/
theorem sameWork_of_without (hkey : e.optInKey? = some key)
    (hinput : e.standardInput = e'.standardInput) (hprograms : e.programs = e'.programs)
    (hfolder : e'.folder = e.folder.without key) : e.SameWork e' := by
  refine ⟨hinput, hprograms, by rw [hfolder, Folder.without], fun other hother _ => ?_⟩
  have hne : other ≠ key := by
    rintro rfl
    exact hother hkey
  rw [hfolder, Folder.lookup?_without, if_neg hne]

/-- A path that does not come by the opt-in files leads to the same. -/
theorem SameWork.locate_eq (h : e.SameWork e') (hpath : e.Apart path) (hpath' : e'.Apart path) :
    e.folder.locate path = e'.folder.locate path := by
  apply Folder.locate_congr h.start_eq
  intro place hplace
  have hplace' : place ∈ e'.folder.start.onWay path := h.start_eq ▸ hplace
  exact h.lookup?_eq place.key (hpath place hplace) (hpath' place hplace')

end Environment

/-! Reading the input. -/

/-- The run reads a file of this path: the one that it is given, or the one that `powershell.exe`
names when it is down to that program. -/
def Options.Reads (o : Options) (e : Environment) (path : String) : Prop :=
  o.input = .file path ∨
    o.input = .clipboard ∧ e.programs.osascript = .missing ∧ e.programs.xclip = .missing ∧
      ∃ run, e.programs.powershell = .runs run ∧ namedFile run = path

/-- The file of the given key is what `powershell.exe` hands over to the run. -/
def Options.Loses (o : Options) (e : Environment) (key : String) : Prop :=
  o.input = .clipboard ∧ ∃ run, HandsOver e.programs e.folder run key

theorem readInput_clipboard (h : o.input = .clipboard) :
    o.readInput e = ((readClipboard e.programs e.folder).1.mapError RunError.clipboard,
      (readClipboard e.programs e.folder).2) := by
  rw [Options.readInput, h]

theorem readInput_file (h : o.input = .file path) :
    o.readInput e = (o.htmlOfFile path (e.folder.read path), e.folder) := by
  rw [Options.readInput, h]

theorem readInput_of_loses (h : o.Loses e gone) : (o.readInput e).2 = e.folder.without gone := by
  obtain ⟨hinput, run, hover⟩ := h
  rw [readInput_clipboard hinput, readClipboard_eq_without hover]

theorem readInput_eq_self (h : ∀ gone, ¬ o.Loses e gone) : (o.readInput e).2 = e.folder := by
  unfold Options.readInput
  split
  · rename_i hinput
    exact readClipboard_eq_self fun run gone hover => h gone ⟨hinput, run, hover⟩
  · rfl
  · rfl

theorem lookup?_of_loses (h : o.Loses e gone) :
    ∃ bytes guard, e.folder.lookup? gone = some (.regular bytes guard) := by
  obtain ⟨-, run, -, -, -, bytes, guard, hlocate, -⟩ := h
  exact ⟨bytes, guard, Folder.lookup?_of_locate hlocate⟩

theorem Options.Loses.unique (h : o.Loses e key) (h' : o.Loses e gone) : key = gone := by
  obtain ⟨-, run, -, -, hprogram, bytes, guard, hlocate, -⟩ := h
  obtain ⟨-, run', -, -, hprogram', bytes', guard', hlocate', -⟩ := h'
  obtain rfl := Program.runs.inj (hprogram.symm.trans hprogram')
  rw [hlocate] at hlocate'
  cases hlocate'
  rfl

/-- Reading the input takes nothing away but what `powershell.exe` hands over. -/
theorem lookup?_readInput (h : ¬ o.Loses e key) :
    (o.readInput e).2.lookup? key = e.folder.lookup? key := by
  by_cases hgone : ∃ gone, o.Loses e gone
  · obtain ⟨gone, hgone⟩ := hgone
    have hother : key ≠ gone := by
      rintro rfl
      exact h hgone
    rw [readInput_of_loses hgone, Folder.lookup?_without, if_neg hother]
  · rw [readInput_eq_self (not_exists.1 hgone)]

theorem lookup?_readInput_of_loses (h : o.Loses e key) :
    (o.readInput e).2.lookup? key = none := by
  rw [readInput_of_loses h, Folder.lookup?_without, if_pos rfl]

/-- What is found after the input has been read was there before. -/
theorem locate_readInput_iff :
    (o.readInput e).2.locate path = .ok (key, .regular bytes guard) ↔
      e.folder.locate path = .ok (key, .regular bytes guard) ∧ ¬ o.Loses e key := by
  by_cases hgone : ∃ gone, o.Loses e gone
  · obtain ⟨gone, hgone⟩ := hgone
    obtain ⟨contents, guard', hlisted⟩ := lookup?_of_loses hgone
    rw [readInput_of_loses hgone, Folder.locate_without_iff hlisted]
    refine and_congr_right fun hlocate => not_congr ⟨fun h => h.1 ▸ hgone, fun h => ?_⟩
    obtain rfl := h.unique hgone
    have hsame := (Folder.lookup?_of_locate hlocate).symm.trans hlisted
    exact ⟨rfl, Option.some.inj hsame⟩
  · rw [readInput_eq_self (not_exists.1 hgone)]
    exact (and_iff_left fun h => hgone ⟨key, h⟩).symm

theorem readInput_result (h : e.SameWork e')
    (hapart : ∀ path, o.Reads e path → e.Apart path ∧ e'.Apart path) :
    (o.readInput e).1 = (o.readInput e').1 := by
  cases hinput : o.input with
  | standardInput => simp only [Options.readInput, hinput, h.standardInput_eq]
  | file path =>
    obtain ⟨hpath, hpath'⟩ := hapart path (Or.inl hinput)
    rw [readInput_file hinput, readInput_file hinput, Folder.read_congr (h.locate_eq hpath hpath')]
  | clipboard =>
    rw [readInput_clipboard hinput, readInput_clipboard hinput, ← h.programs_eq,
      readClipboard_result_congr]
    intro run ho hx hprogram
    obtain ⟨hpath, hpath'⟩ :=
      hapart (namedFile run) (Or.inr ⟨hinput, ho, hx, run, hprogram, rfl⟩)
    exact h.locate_eq hpath hpath'

theorem Environment.SameWork.loses_iff (h : e.SameWork e')
    (hapart : ∀ path, o.Reads e path → e.Apart path ∧ e'.Apart path) :
    o.Loses e gone ↔ o.Loses e' gone := by
  rw [Options.Loses, Options.Loses]
  refine and_congr_right fun hinput => exists_congr fun run => ?_
  rw [HandsOver, HandsOver, ← h.programs_eq]
  refine and_congr_right fun ho => and_congr_right fun hx => and_congr_right fun hprogram => ?_
  obtain ⟨hpath, hpath'⟩ := hapart (namedFile run) (Or.inr ⟨hinput, ho, hx, run, hprogram, rfl⟩)
  rw [h.locate_eq hpath hpath']

/-! Runs. -/

theorem run_of_error {error : RunError} (h : (o.readInput e).1 = .error error) :
    o.run e = (.error error, (o.readInput e).2) := by
  rw [Options.run]
  generalize o.readInput e = read at h ⊢
  obtain ⟨result, left⟩ := read
  cases h
  rfl

theorem run_of_ok {input : String} (h : (o.readInput e).1 = .ok input) :
    o.run e = (o.output input, tell e.home e.now (o.readInput e).2) := by
  rw [Options.run]
  generalize o.readInput e = read at h ⊢
  obtain ⟨result, left⟩ := read
  cases h
  rfl

theorem run_result (o : Options) (e : Environment) :
    (o.run e).1 = (o.readInput e).1.bind o.output := by
  cases hread : (o.readInput e).1 with
  | error error =>
    rw [run_of_error hread]
    rfl
  | ok input =>
    rw [run_of_ok hread]
    rfl

/-- The opt-in file is there, under the given key, and can be written to, and the input can be
read. -/
def Options.Tells (o : Options) (e : Environment) (key : String) (bytes : List UInt8)
    (guard : Guard) : Prop :=
  Invites e.home e.folder key bytes guard ∧ ∃ input, (o.readInput e).1 = .ok input

theorem optInKey?_of_tells (h : o.Tells e key bytes guard) : e.optInKey? = some key := by
  obtain ⟨⟨path, hpath, hlocate, -⟩, -⟩ := h
  rw [Environment.optInKey?, hpath, Option.map_some, Folder.key_of_locate hlocate]

theorem invites_readInput_iff :
    Invites e.home (o.readInput e).2 key bytes guard ↔
      Invites e.home e.folder key bytes guard ∧ ¬ o.Loses e key := by
  constructor
  · rintro ⟨path, hpath, hlocate, hguard⟩
    obtain ⟨hbefore, hkept⟩ := locate_readInput_iff.1 hlocate
    exact ⟨⟨path, hpath, hbefore, hguard⟩, hkept⟩
  · rintro ⟨⟨path, hpath, hlocate, hguard⟩, hkept⟩
    exact ⟨path, hpath, locate_readInput_iff.2 ⟨hlocate, hkept⟩, hguard⟩

theorem run_of_tells (h : o.Tells e key bytes guard) (hkept : ¬ o.Loses e key) :
    (o.run e).2 = (o.readInput e).2.put key (.regular (bytes ++ stamp e.now) guard) := by
  obtain ⟨hinvites, input, hread⟩ := h
  rw [run_of_ok hread]
  exact tell_of_invites (invites_readInput_iff.2 ⟨hinvites, hkept⟩)

theorem run_of_not_tells (h : ∀ key bytes guard, o.Tells e key bytes guard → o.Loses e key) :
    (o.run e).2 = (o.readInput e).2 := by
  cases hread : (o.readInput e).1 with
  | error error => rw [run_of_error hread]
  | ok input =>
    rw [run_of_ok hread]
    apply tell_eq_self
    intro key bytes guard hleft
    obtain ⟨hinvites, hkept⟩ := invites_readInput_iff.1 hleft
    exact hkept (h key bytes guard ⟨hinvites, input, hread⟩)

/-- A run that is told of changes one file after its input has been read, and any other none. -/
theorem run_cases (o : Options) (e : Environment) :
    (∃ key bytes guard, o.Tells e key bytes guard ∧ ¬ o.Loses e key ∧
      (o.run e).2 = (o.readInput e).2.put key (.regular (bytes ++ stamp e.now) guard)) ∨
    ((∀ key bytes guard, o.Tells e key bytes guard → o.Loses e key) ∧
      (o.run e).2 = (o.readInput e).2) := by
  by_cases htells : ∀ key bytes guard, o.Tells e key bytes guard → o.Loses e key
  · exact Or.inr ⟨htells, run_of_not_tells htells⟩
  · simp only [not_forall] at htells
    obtain ⟨key, bytes, guard, htells, hkept⟩ := htells
    exact Or.inl ⟨key, bytes, guard, htells, hkept, run_of_tells htells hkept⟩

theorem lookup?_run_of_loses (h : o.Loses e key) : (o.run e).2.lookup? key = none := by
  rcases run_cases o e with ⟨other, bytes, guard, -, hkept, hrun⟩ | ⟨-, hrun⟩
  · have hother : key ≠ other := by
      rintro rfl
      exact hkept h
    rw [hrun, Folder.lookup?_put, if_neg hother, lookup?_readInput_of_loses h]
  · rw [hrun, lookup?_readInput_of_loses h]

theorem lookup?_run_of_tells (h : o.Tells e key bytes guard) (hkept : ¬ o.Loses e key) :
    (o.run e).2.lookup? key = some (.regular (bytes ++ stamp e.now) guard) := by
  rw [run_of_tells h hkept, Folder.lookup?_put, if_pos rfl]

theorem lookup?_run_of_not_tells (hkept : ¬ o.Loses e key)
    (h : ∀ bytes guard, ¬ o.Tells e key bytes guard) :
    (o.run e).2.lookup? key = e.folder.lookup? key := by
  rcases run_cases o e with ⟨other, bytes, guard, htells, -, hrun⟩ | ⟨-, hrun⟩
  · have hother : key ≠ other := by
      rintro rfl
      exact h bytes guard htells
    rw [hrun, Folder.lookup?_put, if_neg hother, lookup?_readInput hkept]
  · rw [hrun, lookup?_readInput hkept]

/-- Besides the opt-in files two runs with the same work to do leave the same. -/
theorem lookup?_run_congr (h : e.SameWork e')
    (hapart : ∀ path, o.Reads e path → e.Apart path ∧ e'.Apart path)
    (hkey : e.optInKey? ≠ some key) (hkey' : e'.optInKey? ≠ some key) :
    (o.run e).2.lookup? key = (o.run e').2.lookup? key := by
  by_cases hloses : o.Loses e key
  · rw [lookup?_run_of_loses hloses, lookup?_run_of_loses ((h.loses_iff hapart).1 hloses)]
  · have hloses' : ¬ o.Loses e' key := (h.loses_iff hapart).not.1 hloses
    have hother : ∀ bytes guard, ¬ o.Tells e key bytes guard :=
      fun _ _ htells => hkey (optInKey?_of_tells htells)
    have hother' : ∀ bytes guard, ¬ o.Tells e' key bytes guard :=
      fun _ _ htells => hkey' (optInKey?_of_tells htells)
    rw [lookup?_run_of_not_tells hloses hother, lookup?_run_of_not_tells hloses' hother']
    exact h.lookup?_eq key hkey hkey'

theorem lookup?_of_tells (h : o.Tells e key bytes guard) :
    e.folder.lookup? key = some (.regular bytes guard) := by
  obtain ⟨⟨path, -, hlocate, -⟩, -⟩ := h
  exact Folder.lookup?_of_locate hlocate

/-- A run makes no file. -/
theorem lookup?_run_of_none (h : e.folder.lookup? key = none) :
    (o.run e).2.lookup? key = none := by
  by_cases hloses : o.Loses e key
  · exact lookup?_run_of_loses hloses
  · rw [← h]
    apply lookup?_run_of_not_tells hloses
    intro bytes guard htells
    rw [lookup?_of_tells htells] at h
    cases h

/-- What is not taken away changes exactly if it is told of the run. -/
theorem lookup?_run_ne_iff (hkept : ¬ o.Loses e key) :
    (o.run e).2.lookup? key ≠ e.folder.lookup? key ↔ ∃ bytes guard, o.Tells e key bytes guard := by
  constructor
  · intro hchanged
    by_contra hnone
    simp only [not_exists] at hnone
    exact hchanged (lookup?_run_of_not_tells hkept hnone)
  · rintro ⟨bytes, guard, htells⟩
    rw [lookup?_run_of_tells htells hkept, lookup?_of_tells htells]
    simp [stamp_ne_nil]

/-- Telemetry has no part in what a run yields: in two environments with the same work to do the
result is the same, and so are the files that are left, as long as no path that the run reads comes
by the place of an opt-in file. That place is fixed by the home folder. A run makes no file. What
`powershell.exe` hands over is gone. Any other file stays as it is, but for the opt-in file, if a
home folder is known, the file can be written to, and the input can be read, whatever becomes of
the input: then a line with the time in decimal digits is put at its end. -/
theorem run_telemetry (o : Options) :
    (∀ e e' : Environment, e.SameWork e' →
      (∀ path, o.Reads e path → e.Apart path ∧ e'.Apart path) →
      (o.run e).1 = (o.run e').1 ∧
        ∀ key, e.optInKey? ≠ some key → e'.optInKey? ≠ some key →
          (o.run e).2.lookup? key = (o.run e').2.lookup? key) ∧
    ∀ e : Environment,
      (∀ home, e.home = some home → home ≠ "" → home.toList.getLast? ≠ some '/' →
        file? e.home = some (home ++ "/.config/2md/local-telemetry-opt-in")) ∧
      (∀ key, e.folder.lookup? key = none → (o.run e).2.lookup? key = none) ∧
      (∀ key, o.Loses e key → (o.run e).2.lookup? key = none) ∧
      ∀ key, ¬ o.Loses e key →
        ((o.run e).2.lookup? key ≠ e.folder.lookup? key ↔
          ∃ bytes guard, o.Tells e key bytes guard) ∧
        ∀ bytes guard, o.Tells e key bytes guard → e.optInKey? = some key ∧
          (o.run e).2.lookup? key =
            some (.regular (bytes ++ Text.encode (decimal e.now ++ ['\n'])) guard) := by
  refine ⟨fun e e' hsame hapart => ⟨?_, fun key => lookup?_run_congr hsame hapart⟩,
    fun e => ⟨?_, fun key => lookup?_run_of_none, fun key => lookup?_run_of_loses,
      fun key hkept => ⟨lookup?_run_ne_iff hkept, fun bytes guard htells => ?_⟩⟩⟩
  · rw [run_result, run_result, readInput_result hsame hapart]
  · intro home hhome hne hlast
    rw [hhome, file?, Option.map_some, fileIn_eq hne hlast]
  · rw [← stamp_eq]
    exact ⟨optInKey?_of_tells htells, lookup?_run_of_tells htells hkept⟩

/-- A page told of behind an earlier run, and the same page without a home folder. -/
theorem run_telemetry_page :
    let start : Place := ⟨["home".toList, "you".toList]⟩
    let page := ("home/you/page.html", Entry.file (Text.encode "<p>x".toList))
    let folders := [("home", Entry.directory), ("home/me", .directory),
      ("home/me/.config", .directory), ("home/me/.config/2md", .directory)]
    let key := "home/me/.config/2md/local-telemetry-opt-in"
    let o : Options := { file := some "page.html" }
    let e : Environment := {
      folder := ⟨page :: (key, .file (Text.encode "1\n".toList)) :: folders, start⟩
      home := some "/home/me"
      now := 1700000000000 }
    let e' : Environment := { folder := ⟨page :: folders, start⟩ }
    e.SameWork e' ∧ (∀ path, o.Reads e path → e.Apart path ∧ e'.Apart path) ∧
      (o.run e).1 = (o.run e').1 ∧
      ¬ o.Loses e key ∧ o.Tells e key (Text.encode "1\n".toList) {} ∧
      (o.run e).2.lookup? key = some (.file (Text.encode "1\n1700000000000\n".toList)) := by
  intro start page folders key o e e'
  have hkey : e.optInKey? = some key := by
    decide
  have hsame : e.SameWork e' := Environment.sameWork_of_without hkey rfl rfl (by decide)
  have hapart : ∀ path, o.Reads e path → e.Apart path ∧ e'.Apart path := by
    rintro path (hfile | ⟨hinput, -⟩)
    · obtain rfl : "page.html" = path := Input.file.inj hfile
      decide
    · cases hinput
  have hpage : e.folder.read "page.html" = .ok (Text.encode "<p>x".toList) := by
    decide
  have hread : (o.readInput e).1 = .ok "<p>x" := by
    change o.htmlOfFile "page.html" (e.folder.read "page.html") = _
    rw [hpage, Options.htmlOfFile, Except.bind, textOf, Text.decode?_encode]
    rfl
  have htells : o.Tells e key (Text.encode "1\n".toList) {} :=
    ⟨⟨"/home/me/.config/2md/local-telemetry-opt-in", by decide, by decide, rfl⟩, _, hread⟩
  have hkept : ¬ o.Loses e key := fun h => nomatch h.1
  obtain ⟨hwork, heffect⟩ := run_telemetry o
  refine ⟨hsame, hapart, (hwork e e' hsame hapart).1, hkept, htells, ?_⟩
  rw [(((heffect e).2.2.2 key hkept).2 _ _ htells).2, ← Text.encode_append]
  rfl

/-- An opt-in file that `powershell.exe` names as its own: what is in it decides the result, and it
is gone. A path that goes on behind it has another fault where the file is not there. -/
theorem run_telemetry_optInNamed :
    let start : Place := ⟨["home".toList, "you".toList]⟩
    let folders := [("home", Entry.directory), ("home/me", .directory),
      ("home/me/.config", .directory), ("home/me/.config/2md", .directory)]
    let key := "home/me/.config/2md/local-telemetry-opt-in"
    let path := "../me/.config/2md/local-telemetry-opt-in"
    let e : Environment := {
      folder := ⟨(key, .file (Text.encode "1\n".toList)) :: folders, start⟩
      programs := { powershell := .runs ⟨Text.encode path.toList, [], .exited 0⟩ }
      home := some "/home/me" }
    let e' : Environment := { e with folder := ⟨folders, start⟩ }
    let o : Options := {}
    let o' : Options := { file := some (path ++ "/x") }
    e.SameWork e' ∧
      file? e.home = some "/home/me/.config/2md/local-telemetry-opt-in" ∧
      o.input = .clipboard ∧
      (o.run e).1 = .error (.clipboard (.malformed .noByteOrderMark)) ∧
      (o.run e').1 = .error (.clipboard .noProgram) ∧
      e.folder.lookup? key ≠ none ∧ (o.run e).2.lookup? key = none ∧
      o'.input = .file (path ++ "/x") ∧
      (o'.run e).1 = .error (.unreadable (path ++ "/x") .notADirectory) ∧
      (o'.run e').1 = .error (.unreadable (path ++ "/x") .notFound) := by
  intro start folders key path e e' o o'
  have hname : namedFile ⟨Text.encode path.toList, [], .exited 0⟩ = path := by
    rw [namedFile, Text.decodeLossy_encode]
    decide
  have hkey : e.optInKey? = some key := by
    decide
  have hsame : e.SameWork e' := Environment.sameWork_of_without hkey rfl rfl (by decide)
  have hread : e.folder.read path = .ok (Text.encode "1\n".toList) := by
    decide
  have hgone : e'.folder.read path = .error .notFound := by
    decide
  have hmalformed : (readClipboard e.programs e.folder).1 =
      .error (.malformed .noByteOrderMark) := by
    rw [← hname] at hread
    exact readClipboard_malformed rfl rfl rfl rfl hread rfl
  have hlost : LosesFile e'.programs e'.folder := by
    rw [← hname] at hgone
    exact ⟨by decide, _, rfl, rfl, hgone⟩
  have hloses : o.Loses e key := by
    refine ⟨rfl, ⟨Text.encode path.toList, [], .exited 0⟩, rfl, rfl, rfl,
      Text.encode "1\n".toList, {}, ?_, rfl⟩
    rw [hname]
    decide
  have hpath : o'.input = .file (path ++ "/x") := by
    decide
  refine ⟨hsame, by decide, rfl, ?_, ?_, by decide, lookup?_run_of_loses hloses, hpath, ?_, ?_⟩
  · rw [run_result, readInput_clipboard rfl, hmalformed]
    rfl
  · rw [run_result, readInput_clipboard rfl, readClipboard_of_losesFile hlost]
    rfl
  · have hfault : e.folder.read (path ++ "/x") = .error .notADirectory := by
      decide
    rw [run_result, readInput_file hpath, hfault]
    rfl
  · have hfault : e'.folder.read (path ++ "/x") = .error .notFound := by
      decide
    rw [run_result, readInput_file hpath, hfault]
    rfl

end HtmlMarkdown.CommandLine
