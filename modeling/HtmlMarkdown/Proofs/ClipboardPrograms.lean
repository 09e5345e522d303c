import HtmlMarkdown.Clipboard.Read
import HtmlMarkdown.Proofs.Encoding
import Mathlib.Tactic.SplitIfs

/-!
Which clipboard program is used, and what becomes of its failures. A run of a program is judged by
the program's own test of success, and what it has produced is read as the program's own format.
Main statement: the first program that is found gives the result, whatever goes wrong with it, with
one exception: a file that `powershell.exe` names and that is not there counts as if the program
were not there itself.
-/
namespace HtmlMarkdown.Clipboard

open World Text

/-- The clipboard programs. -/
inductive Tool where
  | osascript
  | xclip
  | powershell
deriving DecidableEq

/-- The programs in the order in which they are tried. -/
def tools : List Tool := [.osascript, .xclip, .powershell]

/-- The name by which a failed program is reported. -/
def Tool.name : Tool → String
  | osascript => "osascript"
  | xclip => "xclip"
  | powershell => "powershell"

def Programs.get (programs : Programs) : Tool → Program
  | .osascript => programs.osascript
  | .xclip => programs.xclip
  | .powershell => programs.powershell

/-- The first program that is there, whether or not it may be started. -/
def Programs.first? (programs : Programs) : Option Tool :=
  tools.find? fun tool => programs.get tool ≠ .missing

theorem first?_eq (programs : Programs) :
    programs.first? =
      if programs.osascript ≠ .missing then some .osascript
      else if programs.xclip ≠ .missing then some .xclip
      else if programs.powershell ≠ .missing then some .powershell
      else none := by
  simp only [Programs.first?, tools, List.find?_cons, List.find?_nil, Programs.get]
  split_ifs <;> simp_all

theorem get_ne_missing {programs : Programs} {tool : Tool} (h : programs.first? = some tool) :
    programs.get tool ≠ .missing := by
  simpa using List.find?_some h

/-! Runs. -/

/-- The program's own test of success. The status of `powershell.exe` says nothing. -/
def Tool.Succeeds (run : ProgramRun) : Tool → Prop
  | osascript => run.ending.code? = some 0
  | xclip => run.ending.code? = some 0 ∧ run.errorOutput = []
  | powershell => run.errorOutput = []

/-- The complaint of `osascript` that the clipboard cannot be had as HTML. -/
def Tool.RefusesHtml (tool : Tool) (run : ProgramRun) : Prop :=
  tool = .osascript ∧ run.ending.code? = some 1 ∧ coercionFailure <:+: decodeLossy run.errorOutput

theorem isSuccess_iff {ending : Ending} : ending.isSuccess = true ↔ ending.code? = some 0 := by
  rw [Ending.isSuccess, beq_iff_eq]

theorem Tool.RefusesHtml.not_succeeds {tool : Tool} {run : ProgramRun}
    (h : tool.RefusesHtml run) : ¬ tool.Succeeds run := by
  obtain ⟨rfl, hcode, -⟩ := h
  intro hsucceeds
  have hzero : run.ending.code? = some 0 := hsucceeds
  rw [hzero] at hcode
  cases hcode

/-- What has been produced, as the result. -/
def resultOf : Except SystemError (Except FormatFault (List Char)) → Except ClipboardError String
  | .error e => .error (.system e)
  | .ok text => html text

/-- The clipboard as one program gives it. -/
def Tool.read (folder : Folder) (program : Program) : Tool → Except ClipboardError String × Folder
  | osascript => (readOsascript program, folder)
  | xclip => (readXclip program, folder)
  | powershell => readPowershell program folder

/-- What a run has produced: a text that is HTML or not, unless it lies in a file that cannot be
read. -/
def Tool.product (folder : Folder) (run : ProgramRun) :
    Tool → Except SystemError (Except FormatFault (List Char))
  | osascript => .ok (htmlOfLiteral (decodeLossy run.output))
  | xclip => .ok (.ok (decodeLossy run.output))
  | powershell =>
    (folder.read (namedFile run)).map fun bytes => unscramble bytes >>= htmlAfterHeader

/-- What comes of a program that is there, cause by cause. -/
inductive Outcome (folder : Folder) (tool : Tool) : Program → Except ClipboardError String → Prop
  | notStarted {e : SystemError} (h : e ≠ .notFound) :
      Outcome folder tool (.refused e) (.error (.system e))
  | refused {run : ProgramRun} (h : tool.RefusesHtml run) :
      Outcome folder tool (.runs run) (.error .noHtml)
  | complained {run : ProgramRun} (hfailed : ¬ tool.Succeeds run) (h : ¬ tool.RefusesHtml run) :
      Outcome folder tool (.runs run) (.error (.commandFailed tool.name (textOf run.errorOutput)))
  | unreadable {run : ProgramRun} {e : SystemError} (h : tool.Succeeds run)
      (hproduct : tool.product folder run = .error e) :
      Outcome folder tool (.runs run) (.error (.system e))
  | malformed {run : ProgramRun} {fault : FormatFault} (h : tool.Succeeds run)
      (hproduct : tool.product folder run = .ok (.error fault)) :
      Outcome folder tool (.runs run) (.error (.malformed fault))
  | html {run : ProgramRun} {text : List Char} (h : tool.Succeeds run)
      (hproduct : tool.product folder run = .ok (.ok text)) :
      Outcome folder tool (.runs run) (.ok (String.ofList text))

variable {folder : Folder} {tool : Tool} {program : Program} {run : ProgramRun}
  {result : Except ClipboardError String}

theorem read_of_succeeds (h : tool.Succeeds run) :
    (tool.read folder (.runs run)).1 = resultOf (tool.product folder run) := by
  cases tool with
  | osascript =>
    have hsuccess : run.ending.isSuccess = true := isSuccess_iff.2 h
    simp only [Tool.read, readOsascript, start, bind, Except.bind, hsuccess, if_true]
    rfl
  | xclip =>
    obtain ⟨hcode, hquiet⟩ := h
    have hsuccess : run.ending.isSuccess = true := isSuccess_iff.2 hcode
    simp only [Tool.read, readXclip, start, bind, Except.bind, hsuccess, hquiet,
      List.isEmpty_nil, Bool.and_self, if_true]
    rfl
  | powershell =>
    have hquiet : run.errorOutput = [] := h
    simp only [Tool.read, readPowershell, start, hquiet, List.isEmpty_nil, if_true, Tool.product]
    cases folder.read (namedFile run) <;> rfl

theorem read_of_refusesHtml (h : tool.RefusesHtml run) :
    (tool.read folder (.runs run)).1 = .error .noHtml := by
  have hfailed := h.not_succeeds
  obtain ⟨rfl, hcode, htext⟩ := h
  have hsuccess : ¬ run.ending.isSuccess = true := fun h => hfailed (isSuccess_iff.1 h)
  have hrefused : run.ending.code? = some 1 ∧
      occursIn coercionFailure (decodeLossy run.errorOutput) = true :=
    ⟨hcode, (occursIn_iff _ _).2 htext⟩
  simp only [Tool.read, readOsascript, start, bind, Except.bind, if_neg hsuccess,
    if_pos hrefused]

theorem read_of_fails (hfailed : ¬ tool.Succeeds run) (h : ¬ tool.RefusesHtml run) :
    (tool.read folder (.runs run)).1 =
      .error (.commandFailed tool.name (textOf run.errorOutput)) := by
  cases tool with
  | osascript =>
    have hsuccess : ¬ run.ending.isSuccess = true := fun h => hfailed (isSuccess_iff.1 h)
    have hother : ¬ (run.ending.code? = some 1 ∧
        occursIn coercionFailure (decodeLossy run.errorOutput) = true) := by
      rintro ⟨hcode, htext⟩
      exact h ⟨rfl, hcode, (occursIn_iff _ _).1 htext⟩
    simp only [Tool.read, readOsascript, start, bind, Except.bind, if_neg hsuccess,
      if_neg hother]
    rfl
  | xclip =>
    have hsuccess : ¬ (run.errorOutput.isEmpty && run.ending.isSuccess) = true := by
      rw [Bool.and_eq_true, List.isEmpty_iff, isSuccess_iff]
      rintro ⟨hquiet, hcode⟩
      exact hfailed ⟨hcode, hquiet⟩
    simp only [Tool.read, readXclip, start, bind, Except.bind, if_neg hsuccess]
    rfl
  | powershell =>
    have hloud : ¬ run.errorOutput.isEmpty = true := fun h => hfailed (List.isEmpty_iff.1 h)
    simp only [Tool.read, readPowershell, start, if_neg hloud]
    rfl

theorem Outcome.read_eq (h : Outcome folder tool program result) :
    (tool.read folder program).1 = result := by
  cases h with
  | notStarted _ => cases tool <;> rfl
  | refused h => exact read_of_refusesHtml h
  | complained hfailed h => exact read_of_fails hfailed h
  | unreadable h hproduct | malformed h hproduct | html h hproduct =>
    rw [read_of_succeeds h, hproduct]
    rfl

theorem exists_outcome (folder : Folder) (tool : Tool) (h : program ≠ .missing) :
    ∃ result, Outcome folder tool program result := by
  cases program with
  | refused e => exact ⟨_, .notStarted fun he => h (congrArg Program.refused he)⟩
  | runs run =>
    by_cases hsucceeds : tool.Succeeds run
    · cases hproduct : tool.product folder run with
      | error e => exact ⟨_, .unreadable hsucceeds hproduct⟩
      | ok read =>
        cases read with
        | error fault => exact ⟨_, .malformed hsucceeds hproduct⟩
        | ok text => exact ⟨_, .html hsucceeds hproduct⟩
    · by_cases hrefused : tool.RefusesHtml run
      · exact ⟨_, .refused hrefused⟩
      · exact ⟨_, .complained hsucceeds hrefused⟩

/-- Every cause of a failure is reported, and as what it is. -/
theorem read_eq_iff (h : program ≠ .missing) :
    (tool.read folder program).1 = result ↔ Outcome folder tool program result := by
  constructor
  · rintro rfl
    obtain ⟨result, hresult⟩ := exists_outcome folder tool h
    rw [hresult.read_eq]
    exact hresult
  · exact Outcome.read_eq

/-! Falling back. -/

/-- A run of `powershell.exe` that does not complain and names a file that is not there. -/
def NamesNoFile (folder : Folder) (program : Program) : Prop :=
  ∃ run, program = .runs run ∧ run.errorOutput = [] ∧
    folder.read (namedFile run) = .error .notFound

/-- It is down to `powershell.exe`, which names a file that is not there. -/
def LosesFile (programs : Programs) (folder : Folder) : Prop :=
  programs.first? = some .powershell ∧ NamesNoFile folder programs.powershell

/-- No other failure of a program that is there looks like that of a program that is not. -/
theorem outcome_notFound_iff :
    Outcome folder tool program (.error (.system .notFound)) ↔
      tool = .powershell ∧ NamesNoFile folder program := by
  constructor
  · intro h
    cases h with
    | notStarted h => exact absurd rfl h
    | @unreadable run _ h hproduct =>
      cases tool with
      | osascript | xclip => cases hproduct
      | powershell =>
        refine ⟨rfl, run, rfl, h, ?_⟩
        rw [Tool.product] at hproduct
        cases hread : folder.read (namedFile run) with
        | error e =>
          rw [hread] at hproduct
          exact congrArg Except.error (Except.error.inj hproduct)
        | ok bytes =>
          rw [hread] at hproduct
          cases hproduct
  · rintro ⟨rfl, run, rfl, hquiet, hread⟩
    have hsucceeds : Tool.powershell.Succeeds run := hquiet
    apply Outcome.unreadable hsucceeds
    rw [Tool.product, hread]
    rfl

theorem Outcome.ne_noProgram (h : Outcome folder tool program result) :
    result ≠ .error .noProgram := by
  cases h <;> exact nofun

theorem NamesNoFile.read_eq (h : NamesNoFile folder program) :
    (Tool.powershell.read folder program).1 = .error (.system .notFound) :=
  (outcome_notFound_iff.2 ⟨rfl, h⟩).read_eq

theorem read_ne_notFound (folder : Folder) (tool : Tool) (h : program ≠ .missing)
    (hfile : ¬ (tool = .powershell ∧ NamesNoFile folder program)) :
    (tool.read folder program).1 ≠ .error (.system .notFound) := by
  intro hread
  exact hfile (outcome_notFound_iff.1 ((read_eq_iff h).1 hread))

theorem readClipboard_osascript {programs : Programs}
    (ho : readOsascript programs.osascript ≠ .error (.system .notFound)) :
    readClipboard programs folder = (readOsascript programs.osascript, folder) := by
  rw [readClipboard]
  split
  · exact absurd ‹_› ho
  · rfl

theorem readClipboard_xclip {programs : Programs} (ho : programs.osascript = .missing)
    (hx : readXclip programs.xclip ≠ .error (.system .notFound)) :
    readClipboard programs folder = (readXclip programs.xclip, folder) := by
  have hmissing : readOsascript .missing = .error (.system .notFound) := rfl
  rw [readClipboard, ho, hmissing]
  dsimp only
  split
  · exact absurd ‹_› hx
  · rfl

theorem readClipboard_powershell {programs : Programs} (ho : programs.osascript = .missing)
    (hx : programs.xclip = .missing) :
    readClipboard programs folder = match readPowershell programs.powershell folder with
      | (.error (.system .notFound), folder) => (.error .noProgram, folder)
      | result => result := by
  rw [readClipboard, ho, hx]
  rfl

theorem readClipboard_powershell_result {programs : Programs} (ho : programs.osascript = .missing)
    (hx : programs.xclip = .missing) :
    (readClipboard programs folder).1 = match (readPowershell programs.powershell folder).1 with
      | .error (.system .notFound) => .error .noProgram
      | result => result := by
  rw [readClipboard_powershell ho hx]
  obtain ⟨result, left⟩ := readPowershell programs.powershell folder
  cases result with
  | ok html => rfl
  | error e =>
    cases e with
    | system e => cases e <;> rfl
    | commandFailed | noHtml | malformed | noProgram => rfl

/-- What `powershell.exe` hands over counts as the clipboard, and as malformed if it does not have
the form of a file that the program writes. -/
theorem readClipboard_malformed {programs : Programs} {bytes : List UInt8} {fault : FormatFault}
    (ho : programs.osascript = .missing) (hx : programs.xclip = .missing)
    (hprogram : programs.powershell = .runs run) (hquiet : run.errorOutput = [])
    (hread : folder.read (namedFile run) = .ok bytes) (hfault : unscramble bytes = .error fault) :
    (readClipboard programs folder).1 = .error (.malformed fault) := by
  have hproduct : Tool.powershell.product folder run = .ok (.error fault) := by
    rw [Tool.product, hread, Except.map, hfault]
    rfl
  have hsucceeds : Tool.powershell.Succeeds run := hquiet
  have hresult : (readPowershell (.runs run) folder).1 = _ := read_of_succeeds hsucceeds
  rw [hproduct] at hresult
  rw [readClipboard_powershell_result ho hx, hprogram, hresult]
  rfl

/-- The first program that is there is the only one that counts. -/
theorem readClipboard_of_first {programs : Programs} (hfirst : programs.first? = some tool)
    (h : ¬ LosesFile programs folder) :
    readClipboard programs folder = tool.read folder (programs.get tool) := by
  have hstop := hfirst
  rw [first?_eq] at hstop
  split_ifs at hstop with ho hx hp
  · cases hstop
    have hne := read_ne_notFound folder .osascript ho fun hfile => nomatch hfile.1
    exact readClipboard_osascript hne
  · cases hstop
    have hne := read_ne_notFound folder .xclip hx fun hfile => nomatch hfile.1
    exact readClipboard_xclip (not_not.1 ho) hne
  · cases hstop
    have hne := read_ne_notFound folder .powershell hp fun hfile => h ⟨hfirst, hfile.2⟩
    rw [readClipboard_powershell (not_not.1 ho) (not_not.1 hx)]
    split
    · rename_i hread
      exact absurd (congrArg Prod.fst hread) hne
    · rfl

theorem readClipboard_of_losesFile {programs : Programs} (h : LosesFile programs folder) :
    readClipboard programs folder =
      (.error .noProgram, (readPowershell programs.powershell folder).2) := by
  obtain ⟨hfirst, hfile⟩ := h
  have hread : (readPowershell programs.powershell folder).1 = _ := hfile.read_eq
  rw [first?_eq] at hfirst
  split_ifs at hfirst with ho hx hp
  · cases hfirst
  · cases hfirst
  · rw [readClipboard_powershell (not_not.1 ho) (not_not.1 hx), ← Prod.mk.eta
      (p := readPowershell programs.powershell folder), hread]

theorem readClipboard_of_none {programs : Programs} (h : programs.first? = none) :
    readClipboard programs folder = (.error .noProgram, folder) := by
  rw [first?_eq] at h
  split_ifs at h with ho hx hp
  rw [readClipboard_powershell (not_not.1 ho) (not_not.1 hx), not_not.1 hp]
  rfl

/-- The first program that is there gives the result, and every failure of it is reported with its
cause, exactly if it is not the one failure that looks as if no program were there: a file that
`powershell.exe` names, without a complaint, and that is not there. Then, and if no program is
there, the answer is that there is none. -/
theorem readClipboard_reports (programs : Programs) (folder : Folder) :
    ((readClipboard programs folder).1 = .error .noProgram ↔
      programs.first? = none ∨ LosesFile programs folder) ∧
    ∀ tool, programs.first? = some tool →
      ((∀ result, (readClipboard programs folder).1 = result ↔
        Outcome folder tool (programs.get tool) result) ↔ ¬ LosesFile programs folder) ∧
      (readClipboard programs folder).2 = (tool.read folder (programs.get tool)).2 := by
  have hreports : ∀ tool, programs.first? = some tool → ¬ LosesFile programs folder →
      ∀ result, (readClipboard programs folder).1 = result ↔
        Outcome folder tool (programs.get tool) result := by
    intro tool hfirst hloses result
    rw [readClipboard_of_first hfirst hloses]
    exact read_eq_iff (get_ne_missing hfirst)
  refine ⟨⟨fun hnone => ?_, ?_⟩, fun tool hfirst => ⟨⟨fun hall hloses => ?_, ?_⟩, ?_⟩⟩
  · by_contra hother
    obtain ⟨hfirst, hloses⟩ := not_or.1 hother
    obtain ⟨tool, htool⟩ := Option.ne_none_iff_exists'.1 hfirst
    have houtcome := (hreports tool htool hloses _).1 hnone
    exact houtcome.ne_noProgram rfl
  · rintro (hnone | hloses)
    · rw [readClipboard_of_none hnone]
    · rw [readClipboard_of_losesFile hloses]
  · have hanswer : (readClipboard programs folder).1 = .error .noProgram := by
      rw [readClipboard_of_losesFile hloses]
    exact ((hall _).1 hanswer).ne_noProgram rfl
  · exact hreports tool hfirst
  · by_cases hloses : LosesFile programs folder
    · obtain rfl : Tool.powershell = tool := Option.some.inj (hloses.1.symm.trans hfirst)
      rw [readClipboard_of_losesFile hloses]
      rfl
    · rw [readClipboard_of_first hfirst hloses]

/-- The name of a file that is not there, which `powershell.exe` prints without a complaint. The
answer is that there is no program, not that the file cannot be read. -/
theorem readClipboard_reports_goneFile :
    let programs : Programs := { powershell := .runs ⟨encode "gone.tmp".toList, [], .exited 0⟩ }
    programs.first? = some .powershell ∧
      Outcome {} .powershell programs.powershell (.error (.system .notFound)) ∧
      (readClipboard programs {}).1 = .error .noProgram := by
  intro programs
  have hfirst : programs.first? = some .powershell := by
    decide
  have hname : namedFile ⟨encode "gone.tmp".toList, [], .exited 0⟩ = "gone.tmp" := by
    rw [namedFile, decodeLossy_encode]
    decide
  have hfile : NamesNoFile {} programs.powershell := by
    refine ⟨_, rfl, rfl, ?_⟩
    rw [hname]
    decide
  refine ⟨hfirst, outcome_notFound_iff.2 ⟨rfl, hfile⟩, ?_⟩
  rw [readClipboard_of_losesFile ⟨hfirst, hfile⟩]

end HtmlMarkdown.Clipboard
