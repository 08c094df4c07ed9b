import LoginNames.Proofs.NameList.Overlong
import LoginNames.Proofs.WholeRun

/-! # Runs on bad input

A run fails on a name file that gives no names, on the lastnames before the firstnames, and on more
lines than it may write. All of that is known before the output is touched, so that such a run
leaves every file as it was. -/

set_option autoImplicit false

namespace LoginNames

namespace FileSystem

/-- What is wrong with a name file, as the failure that it makes: it cannot be opened, it can be
    opened and yet not be read, or a line of it is too long. -/
inductive NamesFault (fs : FileSystem) (options : LoadOptions) (role path : String) :
    Failure → Prop
  | unopened {cause : IoError} (h : fs.openRead (Bytes.ofString path) = .error cause) :
      NamesFault fs options role path (.fileAccess role path cause)
  | unreadable {source : Source} {cause : IoError}
      (hopen : fs.openRead (Bytes.ofString path) = .ok source)
      (h : fs.readFile (Bytes.ofString path) = .error cause) :
      NamesFault fs options role path (.io cause)
  | overlong {content line : Bytes} {number : Nat}
      (hread : fs.readFile (Bytes.ofString path) = .ok content)
      (hoverlong : options.overlong = .reject)
      (h : (options.longLines (Lines.ofData content)).head? = some (line, number)) :
      NamesFault fs options role path (.nameTooLong number line.length options.maxLength)

/-- Opening and reading find the same place; only a file can be read there. -/
theorem openRead_cases (fs : FileSystem) (path : Path) :
    (∃ cause, fs.openRead path = .error cause ∧ fs.readFile path = .error cause) ∨
      (∃ content, fs.openRead path = .ok (.ofBytes content) ∧ fs.readFile path = .ok content) ∨
      (fs.openRead path = .ok [.failure .isDirectory (by decide)] ∧
        fs.readFile path = .error .isDirectory) := by
  unfold openRead readFile
  cases fs.locate path with
  | error cause => exact .inl ⟨cause, rfl, rfl⟩
  | ok location =>
    simp only [bind, Except.bind]
    cases fs.node? location with
    | none => exact .inr (.inr ⟨rfl, rfl⟩)
    | some node =>
      cases node with
      | directory => exact .inr (.inr ⟨rfl, rfl⟩)
      | file content => exact .inr (.inl ⟨content, rfl, rfl⟩)

end FileSystem

section Load

variable {fs : FileSystem} {options : LoadOptions} {role path : String}

theorem loadNames_of_unopened {cause : IoError}
    (h : fs.openRead (Bytes.ofString path) = .error cause) :
    (loadNames options role path fs).result = .error (.fileAccess role path cause) := by
  rw [loadNames, h]

theorem loadNames_of_unreadable {source : Source} {cause : IoError}
    (hopen : fs.openRead (Bytes.ofString path) = .ok source)
    (h : fs.readFile (Bytes.ofString path) = .error cause) :
    (loadNames options role path fs).result = .error (.io cause) := by
  obtain ⟨_, hopen', -⟩ | ⟨_, -, hread⟩ | ⟨hopen', hread⟩ :=
    fs.openRead_cases (Bytes.ofString path)
  · cases hopen.symm.trans hopen'
  · cases h.symm.trans hread
  · cases h.symm.trans hread
    rw [loadNames, hopen']
    exact load_failure options .isDirectory _

theorem loadNames_of_readFile {content : Bytes}
    (h : fs.readFile (Bytes.ofString path) = .ok content) :
    loadNames options role path fs = Lines.load options content := by
  obtain ⟨_, -, hread⟩ | ⟨_, hopen, hread⟩ | ⟨-, hread⟩ :=
    fs.openRead_cases (Bytes.ofString path)
  · cases h.symm.trans hread
  · cases h.symm.trans hread
    rw [loadNames, hopen]
    exact load_ofBytes options content
  · cases h.symm.trans hread

/-- A load of a name file fails exactly where something is wrong with the file. -/
theorem loadNames_eq_error {failure : Failure} :
    (loadNames options role path fs).result = .error failure ↔
      fs.NamesFault options role path failure := by
  constructor
  · intro hload
    obtain ⟨cause, hopen, -⟩ | ⟨content, -, hread⟩ | ⟨hopen, hread⟩ :=
      fs.openRead_cases (Bytes.ofString path)
    · cases hload.symm.trans (loadNames_of_unopened hopen)
      exact .unopened hopen
    · rw [loadNames_of_readFile hread, Lines.load_eq_error] at hload
      obtain ⟨hoverlong, line, number, hlong, rfl⟩ := hload
      exact .overlong hread hoverlong hlong
    · cases hload.symm.trans (loadNames_of_unreadable hopen hread)
      exact .unreadable hopen hread
  · intro hfault
    cases hfault with
    | unopened hopen => exact loadNames_of_unopened hopen
    | unreadable hopen hread => exact loadNames_of_unreadable hopen hread
    | overlong hread hoverlong hlong =>
      rw [loadNames_of_readFile hread, Lines.load_eq_error]
      exact ⟨hoverlong, _, _, hlong, rfl⟩

theorem holdsNames_or_fault (fs : FileSystem) (options : LoadOptions) (role path : String) :
    (∃ names, fs.HoldsNames options path names) ∨
      ∃ failure, fs.NamesFault options role path failure := by
  cases hload : (loadNames options role path fs).result with
  | ok names => exact .inl ⟨names, (loadNames_eq_ok role).1 hload⟩
  | error failure => exact .inr ⟨failure, loadNames_eq_error.1 hload⟩

/-- The lastnames are loaded first, and a fault of them is the one that is told. -/
theorem loadInputs_eq_error {s : Settings} {failure : Failure} :
    (loadInputs s fs).1 = .error failure ↔
      fs.NamesFault s.loading NameField.lastname.word s.lastnames failure ∨
        (∃ lasts, fs.HoldsNames s.loading s.lastnames lasts) ∧
          fs.NamesFault s.loading NameField.firstname.word s.firstnames failure := by
  -- Faults and names are what the two loads give, so that the loads are all that is split on.
  simp only [← loadNames_eq_error, ← loadNames_eq_ok NameField.lastname.word]
  unfold loadInputs
  cases hlast : (loadNames s.loading NameField.lastname.word s.lastnames fs).result with
  | error fault => simp [hlast]
  | ok lasts =>
    cases hfirst : (loadNames s.loading NameField.firstname.word s.firstnames fs).result with
    | error fault => simp [hlast, hfirst]
    | ok firsts => simp [hlast, hfirst]

end Load

/-- A generation fails for its limit or for a write. -/
theorem generate_error_cases {σ : Type} [Writer σ] {maxLines : Option Nat}
    {firsts lasts : NameList} {t : Template} {sink : σ} {failure : Failure}
    (h : (generate maxLines firsts lasts t sink).result = .error failure) :
    checkLimit maxLines firsts lasts = .error failure ∨ ∃ cause, failure = .io cause := by
  cases hcheck : checkLimit maxLines firsts lasts with
  | error fault =>
    rw [generate, hcheck] at h
    cases h
    exact .inl rfl
  | ok =>
    rw [generate_eq_writeLines hcheck] at h
    cases hwrite : (t.writeLines firsts lasts).run (⟨sink, 0⟩ : Counted σ) with
    | error cause written =>
      simp only [hwrite] at h
      exact .inr ⟨cause, (Except.error.inj h).symm⟩
    | ok lines written =>
      simp only [hwrite] at h
      cases h

/-- The generator's own check of the limit is the only one of its failures that names the limit. -/
theorem generate_eq_limit_error {σ : Type} [Writer σ] {maxLines : Option Nat}
    {firsts lasts : NameList} {t : Template} {sink : σ} {requested limit : Nat} :
    (generate maxLines firsts lasts t sink).result =
        .error (.outputLimitExceeded requested limit) ↔
      checkLimit maxLines firsts lasts = .error (.outputLimitExceeded requested limit) := by
  constructor
  · intro h
    obtain hcheck | ⟨cause, hio⟩ := generate_error_cases h
    · exact hcheck
    · cases hio
  · intro hcheck
    rw [generate, hcheck]

theorem writeOutput_error_cases {device : Sink} {s : Settings} {inputs : Inputs} {fs : FileSystem}
    {failure : Failure} (h : (writeOutput device s inputs fs).result = .error failure) :
    (∃ cause, failure = .fileAccess outputRole s.output cause) ∨
      (generate s.maxLines inputs.firstnames inputs.lastnames (Template.ofString s.format)
        (⟨device, #[]⟩ : Buffered Sink)).result = .error failure := by
  unfold writeOutput at h
  cases hcreate : fs.createOutput (Bytes.ofString s.output) with
  | mk created result =>
    cases result with
    | error cause =>
      simp only [hcreate] at h
      exact .inl ⟨cause, (Except.error.inj h).symm⟩
    | ok location =>
      cases hgenerate : (generate s.maxLines inputs.firstnames inputs.lastnames
          (Template.ofString s.format) (⟨device, #[]⟩ : Buffered Sink)).result with
      | ok report => simp [hcreate, hgenerate] at h
      | error fault =>
        simp only [hcreate, hgenerate] at h
        exact .inr h

theorem writeOutput_ne_limit_error (device : Sink) {s : Settings} {inputs : Inputs}
    (h : checkLimit s.maxLines inputs.firstnames inputs.lastnames = .ok ()) (fs : FileSystem)
    (requested limit : Nat) :
    (writeOutput device s inputs fs).result ≠ .error (.outputLimitExceeded requested limit) := by
  intro hresult
  obtain ⟨cause, haccess⟩ | hgenerate := writeOutput_error_cases hresult
  · cases haccess
  · -- The second check is the first one again, so it lets the generation through.
    have hlimit := generate_eq_limit_error.1 hgenerate
    rw [h] at hlimit
    cases hlimit

section Run

variable {device : Sink} {s : Settings} {fs : FileSystem}

theorem run_of_exceeded {firsts lasts : NameList} {limit : Nat}
    (hfirsts : fs.HoldsNames s.loading s.firstnames firsts)
    (hlasts : fs.HoldsNames s.loading s.lastnames lasts) (hmax : s.maxLines = some limit)
    (h : limit < firsts.length * lasts.length) :
    (run device s fs).result =
        .error (.outputLimitExceeded (firsts.length * lasts.length) limit) ∧
      (run device s fs).files = fs := by
  have hload : (loadInputs s fs).1 = .ok ⟨firsts, lasts⟩ := loadInputs_eq_ok.2 ⟨hfirsts, hlasts⟩
  refine run_of_limit_error hload ?_
  rw [hmax, checkLimit_of_exceeded h]

/-- Whatever the device does, only the check before the output is created tells of the limit. -/
theorem files_of_limit_error {requested limit : Nat}
    (h : (run device s fs).result = .error (.outputLimitExceeded requested limit)) :
    (run device s fs).files = fs := by
  cases hload : (loadInputs s fs).1 with
  | error failure => exact (run_of_loadInputs_error hload).2
  | ok inputs =>
    cases hcheck : checkLimit s.maxLines inputs.firstnames inputs.lastnames with
    | error failure => exact (run_of_limit_error hload hcheck).2
    | ok =>
      -- The output is written then, and what that fails with is never the limit.
      exfalso
      refine writeOutput_ne_limit_error device hcheck fs requested limit ?_
      rw [← (run_of_inputs hload hcheck).1]
      exact h

end Run

/-- A run that fails for its input or for its limit leaves all files as they were, and its failure
    is that of the first fault: of the lastnames, of the firstnames, and then of the limit. There
    is no other input that is bad, and once the output is created the limit is never told. -/
theorem run_of_bad_input (device : Sink) (s : Settings) (fs : FileSystem) :
    (∀ failure, fs.NamesFault s.loading NameField.lastname.word s.lastnames failure →
      (run device s fs).result = .error failure ∧ (run device s fs).files = fs) ∧
    (∀ lasts failure, fs.HoldsNames s.loading s.lastnames lasts →
      fs.NamesFault s.loading NameField.firstname.word s.firstnames failure →
      (run device s fs).result = .error failure ∧ (run device s fs).files = fs) ∧
    (∀ firsts lasts limit, fs.HoldsNames s.loading s.firstnames firsts →
      fs.HoldsNames s.loading s.lastnames lasts → s.maxLines = some limit →
      limit < firsts.length * lasts.length →
      (run device s fs).result =
          .error (.outputLimitExceeded (firsts.length * lasts.length) limit) ∧
        (run device s fs).files = fs) ∧
    (∀ role path, (∃ names, fs.HoldsNames s.loading path names) ∨
      ∃ failure, fs.NamesFault s.loading role path failure) ∧
    (∀ requested limit,
      (run device s fs).result = .error (.outputLimitExceeded requested limit) →
      (run device s fs).files = fs) ∧
    (∀ inputs before, checkLimit s.maxLines inputs.firstnames inputs.lastnames = .ok () →
      ∀ requested limit, (writeOutput device s inputs before).result ≠
        .error (.outputLimitExceeded requested limit)) ∧
    ∀ firsts lasts t requested limit,
      (generate s.maxLines firsts lasts t device).result =
          .error (.outputLimitExceeded requested limit) ↔
        checkLimit s.maxLines firsts lasts = .error (.outputLimitExceeded requested limit) := by
  refine ⟨fun failure h => ?_, fun lasts failure hlasts h => ?_,
    fun firsts lasts limit hfirsts hlasts hmax h => run_of_exceeded hfirsts hlasts hmax h,
    fun role path => holdsNames_or_fault fs s.loading role path,
    fun requested limit h => files_of_limit_error h,
    fun inputs before h => writeOutput_ne_limit_error device h before,
    fun firsts lasts t requested limit => generate_eq_limit_error⟩
  · exact run_of_loadInputs_error (loadInputs_eq_error.2 (.inl h))
  · exact run_of_loadInputs_error (loadInputs_eq_error.2 (.inr ⟨⟨lasts, hlasts⟩, h⟩))

/-- The lastnames have a line that is too long and the firstnames are missing; a directory stands
    for the firstnames; and two times two lines are more than three, with the output to be made in
    a new directory. -/
theorem run_of_bad_input_keeps_output :
    let fs : FileSystem := ⟨[([Bytes.ofString "users"], .file (Bytes.ofString "old")),
      ([Bytes.ofString "long"], .file (Bytes.ofString "ann\nalexandra\n")),
      ([Bytes.ofString "names"], .file (Bytes.ofString "ann\nbo\n")),
      ([Bytes.ofString "lists"], .directory)], []⟩
    let names : NameList := [Bytes.ofString "ann", Bytes.ofString "bo"]
    let loading : LoadOptions := { maxLength := 5, overlong := .reject }
    let settings (firsts lasts output : String) : Settings :=
      ⟨firsts, lasts, output, "\x7blastname\x7d", some 3, loading, false⟩
    let bothBad := run {} (settings "missing" "long" "users") fs
    let unreadable := run {} (settings "lists" "names" "users") fs
    let tooMany := run {} (settings "names" "names" "new/users") fs
    fs.NamesFault loading "lastnames" "long" (.nameTooLong 2 9 5) ∧
      fs.NamesFault loading "firstnames" "missing" (.fileAccess "firstnames" "missing" .notFound) ∧
      (bothBad.result = .error (.nameTooLong 2 9 5) ∧ bothBad.files = fs) ∧
      fs.HoldsNames loading "names" names ∧
      fs.NamesFault loading "firstnames" "lists" (.io .isDirectory) ∧
      (unreadable.result = .error (.io .isDirectory) ∧ unreadable.files = fs) ∧
      tooMany.result = .error (.outputLimitExceeded 4 3) ∧ tooMany.files = fs := by
  intro fs names loading settings bothBad unreadable tooMany
  have hread : fs.readFile (Bytes.ofString "long") = .ok (Bytes.ofString "ann\nalexandra\n") := by
    decide
  have hfirst : (loading.longLines (Lines.ofData (Bytes.ofString "ann\nalexandra\n"))).head? =
      some (Bytes.ofString "alexandra", 2) := by decide
  have hlong : fs.NamesFault loading "lastnames" "long" (.nameTooLong 2 9 5) :=
    .overlong hread rfl hfirst
  have hmissing : fs.NamesFault loading "firstnames" "missing"
      (.fileAccess "firstnames" "missing" .notFound) := .unopened (by decide)
  have hnames : fs.HoldsNames loading "names" names :=
    ⟨Bytes.ofString "ann\nbo\n", by decide, by decide⟩
  have hopen : fs.openRead (Bytes.ofString "lists") = .ok [.failure .isDirectory (by decide)] := by
    decide
  have hdirectory : fs.NamesFault loading "firstnames" "lists" (.io .isDirectory) :=
    .unreadable hopen (by decide)
  obtain ⟨hbad, -⟩ := run_of_bad_input {} (settings "missing" "long" "users") fs
  obtain ⟨-, hfirsts, -⟩ := run_of_bad_input {} (settings "lists" "names" "users") fs
  obtain ⟨-, -, hlimit, -⟩ := run_of_bad_input {} (settings "names" "names" "new/users") fs
  exact ⟨hlong, hmissing, hbad _ hlong, hnames, hdirectory, hfirsts names _ hnames hdirectory,
    hlimit names names 3 hnames hnames rfl (by decide)⟩

end LoginNames
