import LoginNames.Proofs.BadInput
import LoginNames.Proofs.NameList.Policies

/-! # Names files that cannot be read

A run that cannot read a names file fails with the cause, and leaves all files as they were. Where
the file cannot be opened the failure names it; where it is opened and then cannot be read, as a
directory is, the failure is that of the read alone. -/

set_option autoImplicit false

namespace LoginNames

def Settings.namesPath (s : Settings) : NameField → String
  | .firstname => s.firstnames
  | .lastname => s.lastnames

/-- The names file that a run comes to and cannot read. It comes to the firstnames only with the
    lastnames loaded. -/
inductive FileSystem.Unread (fs : FileSystem) (s : Settings) : NameField → IoError → Prop
  | lastname {cause : IoError} (h : fs.readFile (Bytes.ofString s.lastnames) = .error cause) :
      Unread fs s .lastname cause
  | firstname {lasts : NameList} {cause : IoError}
      (hlasts : fs.HoldsNames s.loading s.lastnames lasts)
      (h : fs.readFile (Bytes.ofString s.firstnames) = .error cause) :
      Unread fs s .firstname cause

/-- A load knows of no file, whatever it reads from. -/
theorem load_ne_fileAccess (options : LoadOptions) (source : Source) (role path : String)
    (cause : IoError) : (load options source).result ≠ .error (.fileAccess role path cause) := by
  intro h
  obtain ⟨other, -, hio⟩ | ⟨-, line, length, hlong⟩ := load_error_cases h
  · cases hio
  · cases hlong

namespace FileSystem

variable {fs : FileSystem} {options : LoadOptions} {s : Settings} {field : NameField}
  {role path : String} {cause : IoError} {failure : Failure}

/-- Which failure an unreadable file makes is a matter of whether it can be opened. -/
theorem namesFault_of_readFile (options : LoadOptions) (role : String)
    (h : fs.readFile (Bytes.ofString path) = .error cause) :
    (fs.openRead (Bytes.ofString path) = .error cause ∧
        fs.NamesFault options role path (.fileAccess role path cause)) ∨
      (∃ source, fs.openRead (Bytes.ofString path) = .ok source) ∧
        fs.NamesFault options role path (.io cause) := by
  cases hopen : fs.openRead (Bytes.ofString path) with
  | ok source => exact .inr ⟨⟨source, rfl⟩, .unreadable hopen h⟩
  | error refusal =>
    obtain ⟨other, hopen', hread⟩ | ⟨_, hopen', -⟩ | ⟨hopen', -⟩ :=
      fs.openRead_cases (Bytes.ofString path)
    · cases hopen.symm.trans hopen'
      cases h.symm.trans hread
      exact .inl ⟨rfl, .unopened hopen⟩
    · cases hopen.symm.trans hopen'
    · cases hopen.symm.trans hopen'

theorem namesFault_fileAccess {role' path' : String} :
    fs.NamesFault options role path (.fileAccess role' path' cause) ↔
      role' = role ∧ path' = path ∧ fs.openRead (Bytes.ofString path) = .error cause := by
  constructor
  · intro hfault
    cases hfault with
    | unopened hopen => exact ⟨rfl, rfl, hopen⟩
  · rintro ⟨rfl, rfl, hopen⟩
    exact .unopened hopen

theorem readFile_of_openRead (h : fs.openRead (Bytes.ofString path) = .error cause) :
    fs.readFile (Bytes.ofString path) = .error cause := by
  obtain ⟨other, hopen, hread⟩ | ⟨_, hopen, -⟩ | ⟨hopen, -⟩ :=
    fs.openRead_cases (Bytes.ofString path)
  · cases h.symm.trans hopen
    exact hread
  · cases h.symm.trans hopen
  · cases h.symm.trans hopen

namespace Unread

theorem readFile (h : fs.Unread s field cause) :
    fs.readFile (Bytes.ofString (s.namesPath field)) = .error cause := by
  cases h with
  | lastname hread => exact hread
  | firstname hlasts hread => exact hread

/-- The run has come to the file, so that its fault is the one that is told. -/
theorem loadInputs_eq_error (h : fs.Unread s field cause)
    (hfault : fs.NamesFault s.loading field.word (s.namesPath field) failure) :
    (loadInputs s fs).1 = .error failure := by
  apply LoginNames.loadInputs_eq_error.2
  cases h with
  | lastname hread => exact .inl hfault
  | firstname hlasts hread => exact .inr ⟨⟨_, hlasts⟩, hfault⟩

end Unread

end FileSystem

section Run

variable {device : Sink} {s : Settings} {fs : FileSystem} {failure : Failure}

/-- A run fails for its input, for its limit, for the output that it cannot create, or for a write,
    and the only file that is named for a reason other than the input is the output. -/
theorem run_error_cases (h : (run device s fs).result = .error failure) :
    (loadInputs s fs).1 = .error failure ∨
      (∃ requested limit, failure = .outputLimitExceeded requested limit) ∨
      (∃ cause, failure = .fileAccess outputRole s.output cause) ∨ ∃ cause, failure = .io cause := by
  cases hload : (loadInputs s fs).1 with
  | error fault =>
    cases h.symm.trans (run_of_loadInputs_error hload).1
    exact .inl rfl
  | ok inputs =>
    refine .inr ?_
    cases hcheck : checkLimit s.maxLines inputs.firstnames inputs.lastnames with
    | error fault =>
      cases h.symm.trans (run_of_limit_error hload hcheck).1
      obtain ⟨limit, -, -, hlimit⟩ := checkLimit_eq_error.1 hcheck
      exact .inl ⟨_, limit, hlimit⟩
    | ok =>
      rw [(run_of_inputs hload hcheck).1] at h
      obtain hcreate | hgenerate := writeOutput_error_cases h
      · exact .inr (.inl hcreate)
      · obtain hlimit | hwrite := generate_error_cases hgenerate
        · -- The second check is the first one again.
          cases hcheck.symm.trans hlimit
        · exact .inr (.inr hwrite)

/-- A run names a names file exactly where it comes to it and cannot open it. -/
theorem run_eq_fileAccess {field : NameField} {path : String} {cause : IoError} :
    (run device s fs).result = .error (.fileAccess field.word path cause) ↔
      path = s.namesPath field ∧ fs.Unread s field cause ∧
        fs.openRead (Bytes.ofString path) = .error cause := by
  constructor
  · intro h
    have hload : (loadInputs s fs).1 = .error (.fileAccess field.word path cause) := by
      obtain hload | ⟨_, _, hlimit⟩ | ⟨_, houtput⟩ | ⟨_, hwrite⟩ := run_error_cases h
      · exact hload
      · cases hlimit
      · -- No names file has the role of the output.
        have hrole : field.word = outputRole := (Failure.fileAccess.inj houtput).1
        cases field <;> exact absurd hrole (by decide)
      · cases hwrite
    obtain hlast | ⟨⟨lasts, hlasts⟩, hfirst⟩ := loadInputs_eq_error.1 hload
    · obtain ⟨hrole, rfl, hopen⟩ := FileSystem.namesFault_fileAccess.1 hlast
      cases field with
      | firstname => exact absurd hrole (by decide)
      | lastname => exact ⟨rfl, .lastname (FileSystem.readFile_of_openRead hopen), hopen⟩
    · obtain ⟨hrole, rfl, hopen⟩ := FileSystem.namesFault_fileAccess.1 hfirst
      cases field with
      | firstname =>
        exact ⟨rfl, .firstname hlasts (FileSystem.readFile_of_openRead hopen), hopen⟩
      | lastname => exact absurd hrole (by decide)
  · rintro ⟨rfl, hunread, hopen⟩
    exact (run_of_loadInputs_error (hunread.loadInputs_eq_error (.unopened hopen))).1

end Run

/-- A run that cannot read a names file fails with what the system says and the exit code for it, and
    leaves all files as they were. The failure names the file exactly where the file cannot be
    opened: a file that is opened and then cannot be read is not told from any other read or write,
    since no load names the file that it reads from. -/
theorem run_of_unread (device : Sink) (s : Settings) (fs : FileSystem) :
    (∀ field cause, fs.Unread s field cause →
      ∃ failure, (run device s fs).result = .error failure ∧ (run device s fs).files = fs ∧
        failure.exitCode = 3 ∧ failure.cause? = some cause ∧
        (failure = .fileAccess field.word (s.namesPath field) cause ↔
          fs.openRead (Bytes.ofString (s.namesPath field)) = .error cause) ∧
        (failure = .io cause ↔
          ∃ source, fs.openRead (Bytes.ofString (s.namesPath field)) = .ok source)) ∧
    (∀ field path cause,
      (run device s fs).result = .error (.fileAccess field.word path cause) ↔
        path = s.namesPath field ∧ fs.Unread s field cause ∧
          fs.openRead (Bytes.ofString path) = .error cause) ∧
    ∀ options source role path cause,
      (load options source).result ≠ .error (.fileAccess role path cause) := by
  refine ⟨fun field cause hunread => ?_, fun field path cause => run_eq_fileAccess,
    load_ne_fileAccess⟩
  obtain ⟨hopen, hfault⟩ | ⟨⟨source, hopen⟩, hfault⟩ :=
    FileSystem.namesFault_of_readFile s.loading field.word hunread.readFile
  · obtain ⟨hresult, hfiles⟩ := run_of_loadInputs_error (hunread.loadInputs_eq_error hfault)
    refine ⟨_, hresult, hfiles, rfl, rfl, ⟨fun _ => hopen, fun _ => rfl⟩, ?_, ?_⟩
    · intro hio
      cases hio
    · rintro ⟨source, hopen'⟩
      cases hopen.symm.trans hopen'
  · obtain ⟨hresult, hfiles⟩ := run_of_loadInputs_error (hunread.loadInputs_eq_error hfault)
    refine ⟨_, hresult, hfiles, rfl, rfl, ⟨?_, ?_⟩, fun _ => ⟨source, hopen⟩, fun _ => rfl⟩
    · intro haccess
      cases haccess
    · intro hopen'
      cases hopen.symm.trans hopen'

/-- A missing file, a path that goes on behind a file, and a directory. -/
theorem run_of_unread_paths :
    let fs : FileSystem := ⟨[([Bytes.ofString "d"], .directory),
      ([Bytes.ofString "l"], .file (Bytes.ofString "C\n"))], []⟩
    let settings (firsts lasts : String) : Settings :=
      ⟨firsts, lasts, "out", "\x7bfirstname\x7d.\x7blastname\x7d", none, {}, false⟩
    let missing := settings "l" "q"
    let behind := settings "l/x" "l"
    let directory := settings "l" "d"
    (fs.Unread missing .lastname .notFound ∧
        (run {} missing fs).result = .error (.fileAccess "lastnames" "q" .notFound) ∧
        (run {} missing fs).files = fs) ∧
      (fs.Unread behind .firstname .notDirectory ∧
        (run {} behind fs).result = .error (.fileAccess "firstnames" "l/x" .notDirectory)) ∧
      fs.Unread directory .lastname .isDirectory ∧
        (run {} directory fs).result = .error (.io .isDirectory) := by
  intro fs settings missing behind directory
  have hnames : fs.HoldsNames {} "l" [Bytes.ofString "C"] :=
    ⟨Bytes.ofString "C\n", by decide, by decide⟩
  have hmissing : fs.Unread missing .lastname .notFound := .lastname (by decide)
  have hbehind : fs.Unread behind .firstname .notDirectory := .firstname hnames (by decide)
  have hdirectory : fs.Unread directory .lastname .isDirectory := .lastname (by decide)
  have hopen : fs.openRead (Bytes.ofString "d") = .ok [.failure .isDirectory (by decide)] := by
    decide
  obtain ⟨hfails, hnotFound, -⟩ := run_of_unread {} missing fs
  obtain ⟨_, -, hkept, -⟩ := hfails _ _ hmissing
  obtain ⟨-, hnotDirectory, -⟩ := run_of_unread {} behind fs
  obtain ⟨hopened, -, -⟩ := run_of_unread {} directory fs
  obtain ⟨_, hresult, -, -, -, -, hunnamed⟩ := hopened _ _ hdirectory
  rw [hunnamed.2 ⟨_, hopen⟩] at hresult
  exact ⟨⟨hmissing, (hnotFound _ _ _).2 ⟨rfl, hmissing, by decide⟩, hkept⟩,
    ⟨hbehind, (hnotDirectory _ _ _).2 ⟨rfl, hbehind, by decide⟩⟩, hdirectory, hresult⟩

/-- A directory in the place of the firstnames fails the run with a message that has neither the role
    nor the path of a file, and not with the failure that names the firstnames. -/
theorem directory_of_names_not_named :
    let fs : FileSystem := ⟨[([Bytes.ofString "d"], .directory),
      ([Bytes.ofString "l"], .file (Bytes.ofString "C\n"))], []⟩
    let s : Settings :=
      ⟨"d", "l", "out", "\x7bfirstname\x7d.\x7blastname\x7d", none, {}, false⟩
    fs.Unread s .firstname .isDirectory ∧
      (run {} s fs).result ≠ .error (.fileAccess "firstnames" "d" .isDirectory) ∧
      ∃ failure, (run {} s fs).result = .error failure ∧
        failure.friendly = "Error: IO error: Is a directory (os error 21)" := by
  intro fs s
  have hlasts : fs.HoldsNames {} "l" [Bytes.ofString "C"] :=
    ⟨Bytes.ofString "C\n", by decide, by decide⟩
  have hunread : fs.Unread s .firstname .isDirectory := .firstname hlasts (by decide)
  have hopen : fs.openRead (Bytes.ofString "d") = .ok [.failure .isDirectory (by decide)] := by
    decide
  have hload := hunread.loadInputs_eq_error (.unreadable hopen hunread.readFile)
  have hresult : (run {} s fs).result = .error (.io .isDirectory) :=
    (run_of_loadInputs_error hload).1
  refine ⟨hunread, ?_, _, hresult, by decide +kernel⟩
  rw [hresult]
  intro hnamed
  cases hnamed

end LoginNames
