import LoginNames.Proofs.Buffering
import LoginNames.Proofs.Files.Output
import LoginNames.Proofs.NameList.Loading
import LoginNames.Run

/-! # What a run leaves behind

A run reads both name files before it touches the output. So its result depends on what the files
held before the run, also where the output is written over one of them. -/

set_option autoImplicit false

namespace LoginNames

/-- A file that can be read, and whose lines are these names. -/
def FileSystem.HoldsNames (fs : FileSystem) (options : LoadOptions) (path : String)
    (names : NameList) : Prop :=
  ∃ content, fs.readFile (Bytes.ofString path) = .ok content ∧
    (Lines.load options content).result = .ok names

theorem FileSystem.HoldsNames.unique {fs : FileSystem} {options : LoadOptions} {path : String}
    {names names' : NameList} (h : fs.HoldsNames options path names)
    (h' : fs.HoldsNames options path names') : names = names' := by
  obtain ⟨content, hread, hload⟩ := h
  obtain ⟨content', hread', hload'⟩ := h'
  cases hread.symm.trans hread'
  exact Except.ok.inj (hload.symm.trans hload')

theorem FileSystem.HoldsNames.of_written {fs after : FileSystem} {options : LoadOptions}
    {path : String} {names : NameList} {output : Path} {location : Location} {content : Bytes}
    (h : fs.HoldsNames options path names) (hwritten : fs.Written output location content after)
    (hne : after.locate (Bytes.ofString path) ≠ .ok location) :
    after.HoldsNames options path names := by
  obtain ⟨held, hread, hload⟩ := h
  exact ⟨held, hwritten.readFile_of_ne hread hne, hload⟩

theorem load_failure (options : LoadOptions) (cause : IoError) (lasting : cause ≠ .interrupted) :
    (load options [.failure cause lasting]).result = .error (.io cause) := by
  rw [load, loadFrom]
  simp [readLine]

theorem loadNames_eq_ok (role : String) {fs : FileSystem} {options : LoadOptions} {path : String}
    {names : NameList} :
    (loadNames options role path fs).result = .ok names ↔ fs.HoldsNames options path names := by
  unfold loadNames FileSystem.HoldsNames FileSystem.openRead FileSystem.readFile
  cases fs.locate (Bytes.ofString path) with
  | error cause => simp [bind, Except.bind]
  | ok location =>
    cases hnode : fs.node? location with
    | none => simp [bind, Except.bind, hnode, load_failure]
    | some node => cases node <;> simp [bind, Except.bind, hnode, load_failure, load_ofBytes]

theorem loadInputs_eq_ok {s : Settings} {fs : FileSystem} {inputs : Inputs} :
    (loadInputs s fs).1 = .ok inputs ↔
      fs.HoldsNames s.loading s.firstnames inputs.firstnames ∧
        fs.HoldsNames s.loading s.lastnames inputs.lastnames := by
  rw [← loadNames_eq_ok NameField.firstname.word, ← loadNames_eq_ok NameField.lastname.word]
  unfold loadInputs
  cases hlast : (loadNames s.loading NameField.lastname.word s.lastnames fs).result with
  | error failure => simp [hlast]
  | ok lasts =>
    cases hfirst : (loadNames s.loading NameField.firstname.word s.firstnames fs).result with
    | error failure => simp [hlast, hfirst]
    | ok firsts =>
      obtain ⟨firstnames, lastnames⟩ := inputs
      simp [hlast, hfirst]

section Run

variable {device : Sink} {s : Settings} {fs : FileSystem} {report : Report}

/-! A run goes one of three ways: the inputs do not load, there are too many lines, or the output
is written. -/

theorem run_eq_of_loadInputs_error {failure : Failure}
    (h : (loadInputs s fs).1 = .error failure) :
    run device s fs = ⟨.error failure, fs, (loadInputs s fs).2⟩ := by
  unfold run
  cases hload : loadInputs s fs with
  | mk loaded notices =>
    rw [hload] at h
    subst h
    rfl

theorem run_eq_of_limit_error {inputs : Inputs} {failure : Failure}
    (hload : (loadInputs s fs).1 = .ok inputs)
    (h : checkLimit s.maxLines inputs.firstnames inputs.lastnames = .error failure) :
    run device s fs = ⟨.error failure, fs, (loadInputs s fs).2 ++ formatNotices s.format⟩ := by
  unfold run
  cases hpair : loadInputs s fs with
  | mk loaded notices =>
    rw [hpair] at hload
    subst hload
    simp only [h]

theorem run_eq_of_inputs {inputs : Inputs} (hload : (loadInputs s fs).1 = .ok inputs)
    (h : checkLimit s.maxLines inputs.firstnames inputs.lastnames = .ok ()) :
    run device s fs =
      { writeOutput device s inputs fs with
        notices := (loadInputs s fs).2 ++ formatNotices s.format ++
          (writeOutput device s inputs fs).notices } := by
  unfold run
  cases hpair : loadInputs s fs with
  | mk loaded notices =>
    rw [hpair] at hload
    subst hload
    simp only [h]

theorem run_of_loadInputs_error {failure : Failure} (h : (loadInputs s fs).1 = .error failure) :
    (run device s fs).result = .error failure ∧ (run device s fs).files = fs := by
  rw [run_eq_of_loadInputs_error h]
  exact ⟨rfl, rfl⟩

theorem run_of_limit_error {inputs : Inputs} {failure : Failure}
    (hload : (loadInputs s fs).1 = .ok inputs)
    (h : checkLimit s.maxLines inputs.firstnames inputs.lastnames = .error failure) :
    (run device s fs).result = .error failure ∧ (run device s fs).files = fs := by
  rw [run_eq_of_limit_error hload h]
  exact ⟨rfl, rfl⟩

theorem run_of_inputs {inputs : Inputs} (hload : (loadInputs s fs).1 = .ok inputs)
    (h : checkLimit s.maxLines inputs.firstnames inputs.lastnames = .ok ()) :
    (run device s fs).result = (writeOutput device s inputs fs).result ∧
      (run device s fs).files = (writeOutput device s inputs fs).files := by
  rw [run_eq_of_inputs hload h]
  exact ⟨rfl, rfl⟩

theorem exists_of_run_eq_ok (h : (run device s fs).result = .ok report) :
    ∃ firsts lasts, fs.HoldsNames s.loading s.firstnames firsts ∧
      fs.HoldsNames s.loading s.lastnames lasts ∧
      (∀ limit ∈ s.maxLines, firsts.length * lasts.length ≤ limit) ∧
      ∃ created location,
        fs.createOutput (Bytes.ofString s.output) = (created, .ok location) := by
  cases hload : (loadInputs s fs).1 with
  | error failure => cases h.symm.trans (run_of_loadInputs_error hload).1
  | ok inputs =>
    obtain ⟨hfirsts, hlasts⟩ := loadInputs_eq_ok.1 hload
    refine ⟨inputs.firstnames, inputs.lastnames, hfirsts, hlasts, ?_⟩
    cases hlimit : checkLimit s.maxLines inputs.firstnames inputs.lastnames with
    | error failure => cases h.symm.trans (run_of_limit_error hload hlimit).1
    | ok =>
      refine ⟨checkLimit_eq_ok.1 hlimit, ?_⟩
      rw [(run_of_inputs hload hlimit).1, writeOutput] at h
      cases hcreate : fs.createOutput (Bytes.ofString s.output) with
      | mk created result =>
        cases result with
        | error cause => simp [hcreate] at h
        | ok location => exact ⟨created, location, rfl⟩

/-- The buffer does not show in the output: the created file holds what a generation leaves on the
    device, and the run tells what the generation tells and ends as it ends. -/
theorem writeOutput_of_createOutput (device : Sink) (inputs : Inputs) {created : FileSystem}
    {location : Location}
    (hcreate : fs.createOutput (Bytes.ofString s.output) = (created, .ok location)) :
    let plain := generate s.maxLines inputs.firstnames inputs.lastnames
      (Template.ofString s.format) device
    let written := writeOutput device s inputs fs
    written.files = created.set location (.file plain.sink.accepted.toList) ∧
      Buffered.SameResult plain.result written.result ∧
      written.notices = plain.notices ++ match plain.result with
        | .error _ => []
        | .ok _ => [.entry ⟨.debug, "Output written to " ++ s.output⟩] := by
  intro plain written
  obtain ⟨hnotices, hsink, hresult⟩ := generate_buffered s.maxLines inputs.firstnames
    inputs.lastnames (Template.ofString s.format) device
  have hfiles := FileSystem.overwrite_created hcreate plain.sink.accepted.toList
  simp only [written, writeOutput, hcreate, hsink, hnotices]
  rw [hfiles]
  generalize plain.result = ended,
    (generate s.maxLines inputs.firstnames inputs.lastnames (Template.ofString s.format)
      (⟨device, #[]⟩ : Buffered Sink)).result = held at hresult ⊢
  cases hresult with
  | nothing => exact ⟨rfl, .nothing, (List.append_nil _).symm⟩
  | same =>
    cases ended with
    | error failure => exact ⟨rfl, .same _, (List.append_nil _).symm⟩
    | ok report => exact ⟨rfl, .same _, rfl⟩

/-- A run that succeeds has filled the file, whatever the device is. -/
theorem written_of_run_eq_ok (h : (run device s fs).result = .ok report) :
    ∃ firsts lasts location, fs.HoldsNames s.loading s.firstnames firsts ∧
      fs.HoldsNames s.loading s.lastnames lasts ∧
      report = (Template.ofString s.format).report firsts lasts ∧
      fs.Written (Bytes.ofString s.output) location
        (device.accepted.toList ++ (Template.ofString s.format).output firsts lasts)
        (run device s fs).files := by
  obtain ⟨firsts, lasts, hfirsts, hlasts, hlimit, created, location, hcreate⟩ :=
    exists_of_run_eq_ok h
  have hload : (loadInputs s fs).1 = .ok ⟨firsts, lasts⟩ := loadInputs_eq_ok.2 ⟨hfirsts, hlasts⟩
  obtain ⟨hwritten, hleft⟩ : _ ∧ (run device s fs).files = _ :=
    run_of_inputs hload (checkLimit_eq_ok.2 hlimit)
  rw [hwritten] at h
  obtain ⟨hfiles, hresult, -⟩ := writeOutput_of_createOutput device ⟨firsts, lasts⟩ hcreate
  obtain ⟨hreport, hsink⟩ := sink_of_generate_eq_ok ((hresult.eq_ok_iff report).1 h)
  refine ⟨firsts, lasts, location, hfirsts, hlasts, hreport, ?_⟩
  rw [hleft, hfiles, hsink]
  exact FileSystem.written_of_createOutput hcreate _

/-- A run with readable inputs within its limit fills the file that it creates. -/
theorem run_of_createOutput (hdevice : device.Unlimited) (hflush : device.flushFailure = none)
    (hempty : device.accepted = #[]) {firsts lasts : NameList}
    (hfirsts : fs.HoldsNames s.loading s.firstnames firsts)
    (hlasts : fs.HoldsNames s.loading s.lastnames lasts)
    (hlimit : ∀ limit ∈ s.maxLines, firsts.length * lasts.length ≤ limit)
    {created : FileSystem} {location : Location}
    (hcreate : fs.createOutput (Bytes.ofString s.output) = (created, .ok location)) :
    (run device s fs).result = .ok ((Template.ofString s.format).report firsts lasts) ∧
      (run device s fs).files =
        created.set location (.file ((Template.ofString s.format).output firsts lasts)) := by
  have hload : (loadInputs s fs).1 = .ok ⟨firsts, lasts⟩ := loadInputs_eq_ok.2 ⟨hfirsts, hlasts⟩
  have hcheck := checkLimit_eq_ok.2 hlimit
  have hgenerate := generate_of_limit (Template.ofString s.format) hlimit hdevice hflush
  obtain ⟨hfiles, hresult, -⟩ := writeOutput_of_createOutput device ⟨firsts, lasts⟩ hcreate
  rw [(run_of_inputs hload hcheck).1, (run_of_inputs hload hcheck).2, hfiles]
  rw [hgenerate] at hresult ⊢
  exact ⟨(hresult.eq_ok_iff _).2 rfl, by simp [Sink.push, hempty]⟩

end Run

/-- A run succeeds where both name files hold names, within the limit on lines, and the output can
    be created. Then the lines of all pairs of the names that the files held before the run have
    been written, whichever file the output is; and where it is neither of them, the same run again
    finds and leaves everything as it is. -/
theorem run_writes_lines (s : Settings) (fs : FileSystem) {device : Sink}
    (hdevice : device.Unlimited) (hflush : device.flushFailure = none)
    (hempty : device.accepted = #[]) :
    ((∃ report, (run device s fs).result = .ok report) ↔
      ∃ firsts lasts, fs.HoldsNames s.loading s.firstnames firsts ∧
        fs.HoldsNames s.loading s.lastnames lasts ∧
        (∀ limit, s.maxLines = some limit → firsts.length * lasts.length ≤ limit) ∧
        ∃ location, (fs.createOutput (Bytes.ofString s.output)).2 = .ok location) ∧
    ∀ firsts lasts report, fs.HoldsNames s.loading s.firstnames firsts →
      fs.HoldsNames s.loading s.lastnames lasts → (run device s fs).result = .ok report →
      report = (Template.ofString s.format).report firsts lasts ∧
      ∃ location, fs.Written (Bytes.ofString s.output) location
          ((Template.ofString s.format).output firsts lasts) (run device s fs).files ∧
        ((run device s fs).files.locate (Bytes.ofString s.firstnames) ≠ .ok location →
          (run device s fs).files.locate (Bytes.ofString s.lastnames) ≠ .ok location →
          (run device s (run device s fs).files).result = .ok report ∧
            (run device s (run device s fs).files).files = (run device s fs).files) := by
  refine ⟨⟨?_, ?_⟩, ?_⟩
  · rintro ⟨report, hrun⟩
    obtain ⟨firsts, lasts, hfirsts, hlasts, hlimit, created, location, hcreate⟩ :=
      exists_of_run_eq_ok hrun
    exact ⟨firsts, lasts, hfirsts, hlasts, hlimit, location, by rw [hcreate]⟩
  · rintro ⟨firsts, lasts, hfirsts, hlasts, hlimit, location, hlocation⟩
    exact ⟨_, (run_of_createOutput hdevice hflush hempty hfirsts hlasts hlimit
      (Prod.ext rfl hlocation)).1⟩
  · intro firsts lasts report hfirsts hlasts hrun
    obtain ⟨firsts', lasts', hfirsts', hlasts', hlimit, created, location, hcreate⟩ :=
      exists_of_run_eq_ok hrun
    cases hfirsts.unique hfirsts'
    cases hlasts.unique hlasts'
    obtain ⟨hresult, hfiles⟩ :=
      run_of_createOutput hdevice hflush hempty hfirsts hlasts hlimit hcreate
    cases hrun.symm.trans hresult
    rw [hfiles]
    have hwritten := FileSystem.written_of_createOutput hcreate
      ((Template.ofString s.format).output firsts lasts)
    refine ⟨rfl, location, hwritten, fun hfirst hlast => ?_⟩
    -- Both inputs are still held, and creating the output again empties it in its place.
    have hagain := FileSystem.createOutput_again hcreate
      ((Template.ofString s.format).output firsts lasts)
    exact run_of_createOutput hdevice hflush hempty (hfirsts.of_written hwritten hfirst)
      (hlasts.of_written hwritten hlast) hlimit hagain

/-- Both lists are in one file, and the output, which is shorter, is written over it, by a path
    through a directory that has to be made first. -/
theorem run_writes_lines_over_input :
    let s : Settings := ⟨"names", "names", "new/../names", "\x7blastname\x7d(1)", some 4, {}, false⟩
    let names : NameList := [Bytes.ofString "alexandra", Bytes.ofString "bo"]
    let fs : FileSystem :=
      ⟨[([Bytes.ofString "names"], .file (Bytes.ofString "alexandra\nbo"))], []⟩
    ({} : Sink).Unlimited ∧ fs.HoldsNames s.loading s.firstnames names ∧
      fs.HoldsNames s.loading s.lastnames names ∧ (run {} s fs).result = .ok ⟨2, 2, 4, 8⟩ ∧
      (run {} s fs).files.readFile (Bytes.ofString s.output) =
        .ok (Bytes.ofString "a\nb\na\nb\n") ∧
      (run {} s fs).files.isDirectory (Bytes.ofString "new") = true := by
  intro s names fs
  have hdevice : ({} : Sink).Unlimited := ⟨rfl, by simp⟩
  have hnames : fs.HoldsNames s.loading "names" names :=
    ⟨Bytes.ofString "alexandra\nbo", by decide, by decide⟩
  obtain ⟨hsuccess, hresult⟩ := run_writes_lines s fs hdevice rfl rfl
  obtain ⟨report, hrun⟩ := hsuccess.2 ⟨names, names, hnames, hnames, by simp [s, names],
    [Bytes.ofString "names"], by cbv⟩
  obtain ⟨hreport, location, hwritten, -⟩ := hresult names names report hnames hnames hrun
  have houtput : (Template.ofString s.format).output names names =
      Bytes.ofString "a\nb\na\nb\n" := by cbv
  have habove : Path.ancestors (Bytes.ofString s.output) =
      [Bytes.ofString "new/..", Bytes.ofString "new"] := by cbv
  refine ⟨hdevice, hnames, hnames, ?_, ?_, ?_⟩
  · rw [hrun, hreport, Template.report, houtput]
    decide
  · rw [← houtput]
    exact hwritten.readFile
  · exact hwritten.parents _ (by simp [habove])

end LoginNames
