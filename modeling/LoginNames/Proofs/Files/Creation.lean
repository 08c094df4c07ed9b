import LoginNames.Proofs.Files.Output
import LoginNames.Run
import Mathlib

/-! # Creating and filling a file

A file is created at a path and filled at once. Where that succeeds the path leads to a file that
holds what was given, and where it fails the failure names the path. Either way all else stays, but
for missing directories above the path: they are made before the file, and are left where the file
cannot be created. -/

set_option autoImplicit false

namespace LoginNames

namespace FileSystem

variable {fs after : FileSystem} {path : Path}

/-- Files hold what they held once directories are made. -/
theorem Grown.readFile {paths : List Path} (h : Grown paths fs after) {other : Path} {held : Bytes}
    (hread : fs.readFile other = .ok held) : after.readFile other = .ok held := by
  obtain ⟨place, hlocate, hnode⟩ := readFile_eq_ok.1 hread
  refine readFile_eq_ok.2 ⟨place, h.extension.locate hlocate, ?_⟩
  obtain hsame | ⟨hnone, -⟩ := h.frame place
  · rw [hsame, hnode]
  · simp [hnode] at hnone

/-- A file that is not created leaves nothing but directories. -/
theorem grown_of_createOutput_error {cause : IoError}
    (h : fs.createOutput path = (after, .error cause)) : Grown path.ancestors fs after := by
  obtain ⟨made, hgrown, ⟨refusal, herror⟩ | ⟨file, place, -, hok⟩⟩ := createOutput_cases fs path
  · cases herror.symm.trans h
    exact hgrown
  · cases hok.symm.trans h

/-- A path whose directory is there can be created where it is no directory itself. -/
theorem createOutput_of_locateParent {parent : Location} {name : Bytes}
    (hparent : fs.locateParent path = .ok parent) (hname : entryName? path = some name)
    (hslash : path.endsInSlash = false) (hlength : name.length ≤ maxNameBytes)
    (hdir : fs.isDirectoryAt (parent ++ [name]) = false) :
    fs.createOutput path =
      (fs.set (parent ++ [name]) (.file []), .ok (parent ++ [name])) := by
  have habove : ∀ above ∈ path.ancestors, fs.isDirectory above = true := fun above hmem =>
    isDirectory_of_isAbove (Path.isAbove_of_mem_ancestors hmem) hparent
  have hfile : fs.createFile path =
      .ok (fs.set (parent ++ [name]) (.file []), parent ++ [name]) :=
    createFile_eq_ok.2 ⟨parent, name, hparent, hname, hslash, hlength, hdir, rfl, rfl⟩
  simp only [createOutput, makeDirectories_of_isDirectory habove, hfile]

end FileSystem

section Create

variable {fs after : FileSystem} {path : String} {data : Bytes}

theorem createWith_eq_ok :
    createWith fs path data = (after, .ok ()) ↔
      ∃ created location, fs.createOutput (Bytes.ofString path) = (created, .ok location) ∧
        after = created.set location (.file data) := by
  unfold createWith
  cases hcreate : fs.createOutput (Bytes.ofString path) with
  | mk created result =>
    cases result with
    | error cause => simp
    | ok location =>
      simp only [FileSystem.overwrite_created hcreate, Prod.mk.injEq, Except.ok.injEq, and_true]
      constructor
      · rintro rfl
        exact ⟨created, location, ⟨rfl, rfl⟩, rfl⟩
      · rintro ⟨_, _, ⟨rfl, rfl⟩, rfl⟩
        rfl

theorem createWith_eq_error {failure : Failure} :
    createWith fs path data = (after, .error failure) ↔
      ∃ cause, fs.createOutput (Bytes.ofString path) = (after, .error cause) ∧
        failure = .fileAccess outputRole path cause := by
  unfold createWith
  obtain ⟨created, result⟩ := fs.createOutput (Bytes.ofString path)
  cases result with
  | error cause => simp [and_assoc, eq_comm]
  | ok location => simp

end Create

/-- To create a file and fill it changes nothing but what its path names. Where it succeeds the path
    leads to a file with the given data, whatever stood there before, all directories above the path
    are there, and every other file holds what it held; where it fails the failure has the role of
    the output and the path, and every file is as it was. What is new besides the file is in both
    cases a directory that one of the paths above it names. It succeeds wherever the directory of
    the path is there and the path is not that of a directory. -/
theorem createWith_changes_path (fs : FileSystem) (path : String) (data : Bytes) :
    (∀ after, createWith fs path data = (after, .ok ()) →
      ∃ location, fs.Written (Bytes.ofString path) location data after ∧
        after.readFile (Bytes.ofString path) = .ok data ∧
        ∀ other held, fs.readFile other = .ok held → after.locate other ≠ .ok location →
          after.readFile other = .ok held) ∧
    (∀ after failure, createWith fs path data = (after, .error failure) →
      (∃ cause, failure = .fileAccess "output" path cause) ∧
        FileSystem.Grown (Path.ancestors (Bytes.ofString path)) fs after ∧
        ∀ other held, fs.readFile other = .ok held → after.readFile other = .ok held) ∧
    ∀ parent name, fs.locateParent (Bytes.ofString path) = .ok parent →
      FileSystem.entryName? (Bytes.ofString path) = some name →
      Path.endsInSlash (Bytes.ofString path) = false →
      name.length ≤ FileSystem.maxNameBytes → fs.isDirectoryAt (parent ++ [name]) = false →
      createWith fs path data = (fs.set (parent ++ [name]) (.file data), .ok ()) := by
  refine ⟨fun after h => ?_, fun after failure h => ?_, ?_⟩
  · obtain ⟨created, location, hcreate, rfl⟩ := createWith_eq_ok.1 h
    have hwritten := FileSystem.written_of_createOutput hcreate data
    exact ⟨location, hwritten, hwritten.readFile, fun other held => hwritten.readFile_of_ne⟩
  · obtain ⟨cause, hcreate, rfl⟩ := createWith_eq_error.1 h
    have hgrown := FileSystem.grown_of_createOutput_error hcreate
    exact ⟨⟨cause, rfl⟩, hgrown, fun other held => hgrown.readFile⟩
  · intro parent name hparent hname hslash hlength hdir
    have hcreate :=
      FileSystem.createOutput_of_locateParent hparent hname hslash hlength hdir
    exact createWith_eq_ok.2 ⟨_, _, hcreate, by rw [FileSystem.set_set]⟩

/-- A longer file is written over by a path through a directory that has to be made first, and a
    path that ends in a slash fails behind the directory that it has made. -/
theorem createWith_changes_path_over_file :
    let held := Bytes.ofString "a longer text"
    let fs : FileSystem := ⟨[([Bytes.ofString "out"], .file held),
      ([Bytes.ofString "names"], .file (Bytes.ofString "ann\n"))], []⟩
    let data := Bytes.ofString "short"
    let written := createWith fs "new/../out" data
    let refused := createWith fs "logs/run/" data
    (written.2 = .ok () ∧ written.1.readFile (Bytes.ofString "new/../out") = .ok data ∧
        written.1.readFile (Bytes.ofString "names") = .ok (Bytes.ofString "ann\n") ∧
        written.1.isDirectory (Bytes.ofString "new") = true) ∧
      refused.2 = .error (.fileAccess "output" "logs/run/" .isDirectory) ∧
        refused.1.isDirectory (Bytes.ofString "logs") = true ∧
        refused.1.readFile (Bytes.ofString "out") = .ok held ∧
        createWith fs "out" data = (fs.set [Bytes.ofString "out"] (.file data), .ok ()) := by
  intro held fs data written refused
  have hok : (createWith fs "new/../out" data).2 = .ok () := by cbv
  have herror : (createWith fs "logs/run/" data).2 =
      .error (.fileAccess "output" "logs/run/" .isDirectory) := by cbv
  have hnames : fs.readFile (Bytes.ofString "names") = .ok (Bytes.ofString "ann\n") := by cbv
  have hout : fs.readFile (Bytes.ofString "out") = .ok held := by cbv
  have hplace : (createWith fs "new/../out" data).1.locate (Bytes.ofString "new/../out") =
      .ok [Bytes.ofString "out"] := by cbv
  have helse : (createWith fs "new/../out" data).1.locate (Bytes.ofString "names") =
      .ok [Bytes.ofString "names"] := by cbv
  have habove : Path.ancestors (Bytes.ofString "new/../out") =
      [Bytes.ofString "new/..", Bytes.ofString "new"] := by cbv
  have hmade : (createWith fs "logs/run/" data).1.isDirectory (Bytes.ofString "logs") = true := by
    cbv
  obtain ⟨hsuccess, -, -⟩ := createWith_changes_path fs "new/../out" data
  obtain ⟨-, hfailure, -⟩ := createWith_changes_path fs "logs/run/" data
  obtain ⟨-, -, hthere⟩ := createWith_changes_path fs "out" data
  obtain ⟨location, hwritten, hread, hkept⟩ := hsuccess written.1 (Prod.ext rfl hok)
  obtain ⟨-, -, hleft⟩ := hfailure refused.1 _ (Prod.ext rfl herror)
  have hlocation := Except.ok.inj (hwritten.located.symm.trans hplace)
  refine ⟨⟨hok, hread, hkept _ _ hnames ?_, ?_⟩, herror, hmade, hleft _ _ hout, ?_⟩
  · rw [hlocation, helse]
    exact fun hsame => absurd (Except.ok.inj hsame) (by decide)
  · exact hwritten.parents _ (by simp [habove])
  · exact hthere [] (Bytes.ofString "out") (by cbv) (by cbv) (by decide) (by decide) (by decide)

end LoginNames
