import LoginNames.Proofs.Files.Extension

/-! # Creating an output file

The directories above the file are made where they are missing, and no others; then the file is
created or emptied. Whatever it is filled with, nothing else has changed. To create it again finds
all directories there and ends in the same place. -/

set_option autoImplicit false

namespace LoginNames.FileSystem

/-- How the file system may have changed once these directories have been made. -/
structure Grown (paths : List Path) (fs fs' : FileSystem) : Prop where
  workingDirectory : fs'.workingDirectory = fs.workingDirectory
  frame : ∀ location, fs'.node? location = fs.node? location ∨
    fs.node? location = none ∧ fs'.node? location = some .directory ∧
      ∃ path ∈ paths, fs'.locate path = .ok location

namespace Grown

variable {paths : List Path} {fs fs' fs'' : FileSystem}

theorem refl (paths : List Path) (fs : FileSystem) : Grown paths fs fs :=
  ⟨rfl, fun _ => .inl rfl⟩

theorem extension (h : Grown paths fs fs') : fs.Extends fs' :=
  .of_node? h.workingDirectory fun location =>
    (h.frame location).imp_right fun ⟨_, hnew, _⟩ => .inl hnew

theorem trans (h : Grown paths fs fs') (h' : Grown paths fs' fs'') : Grown paths fs fs'' := by
  refine ⟨h'.workingDirectory.trans h.workingDirectory, fun location => ?_⟩
  obtain hsame' | ⟨hnone', hnew', hpath'⟩ := h'.frame location
  · rw [hsame']
    obtain hsame | ⟨hnone, hnew, path, hpath, hlocate⟩ := h.frame location
    · exact .inl hsame
    · exact .inr ⟨hnone, hnew, path, hpath, h'.extension.locate hlocate⟩
  · obtain hsame | ⟨-, hnew, -⟩ := h.frame location
    · exact .inr ⟨hsame ▸ hnone', hnew', hpath'⟩
    · simp [hnew] at hnone'

theorem mono {paths' : List Path} (h : Grown paths fs fs') (hsub : paths ⊆ paths') :
    Grown paths' fs fs' := by
  refine ⟨h.workingDirectory, fun location => (h.frame location).imp_right ?_⟩
  rintro ⟨hnone, hnew, path, hpath, hlocate⟩
  exact ⟨hnone, hnew, path, hsub hpath, hlocate⟩

end Grown

theorem Grown.makeDirectory {fs made : FileSystem} {path : Path}
    (h : fs.makeDirectory path = .ok made) : Grown [path] fs made := by
  obtain ⟨parent, name, hparent, hname, hlength, hnone, rfl⟩ := makeDirectory_eq_ok.1 h
  have hne : parent ++ [name] ≠ [] := by simp
  have hnew : (fs.set (parent ++ [name]) .directory).node? (parent ++ [name]) =
      some .directory := by
    rw [node?_set fs hne, if_pos rfl]
  have hext : fs.Extends (fs.set (parent ++ [name]) .directory) :=
    .set hne (by simp [isDirectoryAt, hnone]) .directory
  refine ⟨rfl, fun location => ?_⟩
  by_cases hlocation : location = parent ++ [name]
  · subst location
    refine .inr ⟨hnone, hnew, path, List.mem_cons_self, ?_⟩
    refine locate_entry (hext.locateParent hparent) hname hlength ?_ fun _ => ?_
    · simp [hnew]
    · simp [isDirectoryAt, hnew]
  · exact .inl (by rw [node?_set fs hne, if_neg hlocation])

/-- However the making of directories ends, no others are made. -/
theorem makeDirectories_grown (fs : FileSystem) (paths : List Path) :
    Grown paths fs (fs.makeDirectories paths).1 := by
  induction paths with
  | nil => exact .refl [] fs
  | cons path above ih =>
    have hfirst : [path] ⊆ path :: above := List.cons_subset_cons path (List.nil_subset above)
    have habove := ih.mono (List.subset_cons_self path above)
    rw [makeDirectories]
    cases hmade : fs.makeDirectory path with
    | ok made => exact (Grown.makeDirectory hmade).mono hfirst
    | error cause =>
      by_cases hcause : cause = .notFound
      · simp only [if_pos hcause]
        -- The directories above are made first, and then this one is tried again.
        generalize fs.makeDirectories above = attempt at habove ⊢
        obtain ⟨made, result⟩ := attempt
        cases result with
        | error cause => exact habove
        | ok =>
          cases hlast : made.makeDirectory path with
          | ok last =>
            simp only [hlast]
            exact habove.trans ((Grown.makeDirectory hlast).mono hfirst)
          | error cause =>
            simp only [hlast]
            exact habove
      · simp only [if_neg hcause]
        exact .refl _ fs

theorem makeDirectory_of_isDirectory {fs : FileSystem} {path : Path}
    (h : fs.isDirectory path = true) : fs.makeDirectory path = .error .alreadyExists := by
  obtain ⟨location, hlocate, hdir⟩ := isDirectory_eq_true.1 h
  obtain ⟨parent, hparent, hlast⟩ := locate_eq_ok.1 hlocate
  unfold makeDirectory
  rw [hparent]
  cases hname : entryName? path with
  | none => rfl
  | some name =>
    obtain ⟨hsome, hdot, hdotDot⟩ := entryName?_eq_some.1 hname
    rw [hsome] at hlast
    obtain ⟨h, -⟩ | ⟨h, -⟩ | ⟨-, -, hlength, hnode, -⟩ := step_eq_ok.1 hlast.1
    · exact absurd h hdot
    · exact absurd h hdotDot
    · obtain ⟨node, hnode⟩ := Option.ne_none_iff_exists'.1 hnode
      simp [bind, Except.bind, Nat.not_lt.2 hlength, hnode]

theorem makeDirectories_of_isDirectory {fs : FileSystem} {paths : List Path}
    (h : ∀ path ∈ paths, fs.isDirectory path = true) :
    fs.makeDirectories paths = (fs, .ok ()) := by
  cases paths with
  | nil => rfl
  | cons path above =>
    have hpath := h path List.mem_cons_self
    have hcause : IoError.alreadyExists ≠ .notFound := by decide
    simp only [makeDirectories, makeDirectory_of_isDirectory hpath, if_neg hcause, hpath, if_true]

/-- The directories above the file are made first. Either that is all, or the file is created. -/
theorem createOutput_cases (fs : FileSystem) (path : Path) :
    ∃ made, Grown path.ancestors fs made ∧
      ((∃ cause, fs.createOutput path = (made, .error cause)) ∨
        ∃ created location, made.createFile path = .ok (created, location) ∧
          fs.createOutput path = (created, .ok location)) := by
  have hgrown := makeDirectories_grown fs path.ancestors
  unfold createOutput
  generalize fs.makeDirectories path.ancestors = attempt at hgrown ⊢
  obtain ⟨made, result⟩ := attempt
  refine ⟨made, hgrown, ?_⟩
  cases result with
  | error cause => exact .inl ⟨cause, rfl⟩
  | ok =>
    cases hcreated : made.createFile path with
    | error cause => exact .inl ⟨cause, by simp only [hcreated]⟩
    | ok file => exact .inr ⟨file.1, file.2, rfl, by simp only [hcreated]⟩

theorem exists_grown_of_createOutput {fs created : FileSystem} {path : Path} {location : Location}
    (h : fs.createOutput path = (created, .ok location)) :
    ∃ made, Grown path.ancestors fs made ∧ made.createFile path = .ok (created, location) := by
  obtain ⟨made, hgrown, ⟨cause, herror⟩ | ⟨file, place, hfile, hok⟩⟩ := createOutput_cases fs path
  · cases herror.symm.trans h
  · cases hok.symm.trans h
    exact ⟨made, hgrown, hfile⟩

theorem overwrite_of_file {fs : FileSystem} {location : Location} {content : Bytes}
    (h : fs.node? location = some (.file content)) (bytes : Bytes) :
    fs.overwrite location bytes =
      fs.set location (.file (bytes ++ content.drop bytes.length)) := by
  unfold overwrite
  rw [h]

/-- A file is empty once it is created, whatever it held before. So bytes that are put over its
    start are all that it holds. -/
theorem overwrite_created {fs created : FileSystem} {path : Path} {location : Location}
    (h : fs.createOutput path = (created, .ok location)) (bytes : Bytes) :
    created.overwrite location bytes = created.set location (.file bytes) := by
  obtain ⟨made, -, hfile⟩ := exists_grown_of_createOutput h
  obtain ⟨parent, name, -, -, -, -, -, rfl, rfl⟩ := createFile_eq_ok.1 hfile
  have hne : parent ++ [name] ≠ [] := by simp
  have hempty : (made.set (parent ++ [name]) (.file [])).node? (parent ++ [name]) =
      some (.file []) := by
    rw [node?_set made hne, if_pos rfl]
  rw [overwrite_of_file hempty, List.drop_nil, List.append_nil]

/-- A path leads to a file with this content, and all else is as it was, but for directories above
    the path that were missing. -/
structure Written (fs : FileSystem) (path : Path) (location : Location) (content : Bytes)
    (after : FileSystem) : Prop where
  workingDirectory : after.workingDirectory = fs.workingDirectory
  located : after.locate path = .ok location
  content : after.node? location = some (.file content)
  before : fs.isDirectoryAt location = false
  parents : ∀ above ∈ path.ancestors, after.isDirectory above = true
  frame : ∀ other, other ≠ location → after.node? other = fs.node? other ∨
    fs.node? other = none ∧ after.node? other = some .directory ∧
      ∃ above ∈ path.ancestors, after.locate above = .ok other

section Output

variable {fs created : FileSystem} {path : Path} {location : Location}

theorem written_of_createOutput (h : fs.createOutput path = (created, .ok location))
    (content : Bytes) :
    Written fs path location content (created.set location (.file content)) := by
  obtain ⟨made, hgrown, hfile⟩ := exists_grown_of_createOutput h
  obtain ⟨parent, name, hparent, hname, hslash, hlength, hdir, rfl, rfl⟩ :=
    createFile_eq_ok.1 hfile
  have hne : parent ++ [name] ≠ [] := by simp
  rw [set_set]
  have hext : made.Extends (made.set (parent ++ [name]) (.file content)) := .set hne hdir _
  have hnode : (made.set (parent ++ [name]) (.file content)).node? (parent ++ [name]) =
      some (.file content) := by
    rw [node?_set made hne, if_pos rfl]
  have hparent' := hext.locateParent hparent
  refine ⟨hgrown.workingDirectory, ?_, hnode, ?_, fun above habove => ?_, fun other hother => ?_⟩
  · exact locate_entry hparent' hname hlength (by simp [hnode]) (by simp [hslash])
  · cases hbefore : fs.isDirectoryAt (parent ++ [name]) with
    | false => rfl
    | true => exact (hgrown.extension.directory _ hbefore).symm.trans hdir
  · exact isDirectory_of_isAbove (Path.isAbove_of_mem_ancestors habove) hparent'
  · rw [node?_set made hne, if_neg hother]
    refine (hgrown.frame other).imp_right ?_
    rintro ⟨hnone, hnew, above, habove, hlocate⟩
    exact ⟨hnone, hnew, above, habove, hext.locate hlocate⟩

/-- To create a file again finds it in its place and changes nothing else. -/
theorem createOutput_again (h : fs.createOutput path = (created, .ok location)) (content : Bytes) :
    (created.set location (.file content)).createOutput path = (created, .ok location) := by
  have hwritten := written_of_createOutput h content
  obtain ⟨made, -, hfile⟩ := exists_grown_of_createOutput h
  obtain ⟨parent, name, hparent, hname, hslash, hlength, hdir, rfl, rfl⟩ :=
    createFile_eq_ok.1 hfile
  have hne : parent ++ [name] ≠ [] := by simp
  rw [createOutput, makeDirectories_of_isDirectory hwritten.parents]
  rw [set_set] at hwritten ⊢
  have hagain : (made.set (parent ++ [name]) (.file content)).createFile path =
      .ok (made.set (parent ++ [name]) (.file []), parent ++ [name]) := by
    refine createFile_eq_ok.2 ⟨parent, name, ?_, hname, hslash, hlength, ?_, ?_, rfl⟩
    · exact (Extends.set hne hdir _).locateParent hparent
    · simp [isDirectoryAt, hwritten.content]
    · rw [set_set]
  simp only [hagain]

end Output

namespace Written

variable {fs after : FileSystem} {path : Path} {location : Location} {content : Bytes}

theorem readFile (h : Written fs path location content after) :
    after.readFile path = .ok content :=
  readFile_eq_ok.2 ⟨location, h.located, h.content⟩

theorem extension (h : Written fs path location content after) : fs.Extends after := by
  refine .of_node? h.workingDirectory fun other => ?_
  by_cases hother : other = location
  · subst other
    exact .inr (.inr ⟨h.before, by simp [h.content]⟩)
  · exact (h.frame other hother).imp_right fun ⟨_, hnew, _⟩ => .inl hnew

/-- A file in another place holds what it held. -/
theorem readFile_of_ne (h : Written fs path location content after) {other : Path} {held : Bytes}
    (hread : fs.readFile other = .ok held) (hne : after.locate other ≠ .ok location) :
    after.readFile other = .ok held := by
  obtain ⟨place, hlocate, hnode⟩ := readFile_eq_ok.1 hread
  have hlocate' := h.extension.locate hlocate
  have hplace : place ≠ location := by
    rintro rfl
    exact hne hlocate'
  refine readFile_eq_ok.2 ⟨place, hlocate', ?_⟩
  obtain hsame | ⟨hnone, -⟩ := h.frame place hplace
  · rw [hsame, hnode]
  · simp [hnode] at hnone

end Written

end LoginNames.FileSystem
