import LoginNames.Files.Access
import LoginNames.Proofs.Attempts
import LoginNames.Proofs.Files.Ancestors

/-! # Looking up paths

What it takes for a lookup to succeed, and for a directory or a file to be made at a path. Where the
directory that holds the last name of a path can be found, so can all directories above the path. -/

set_option autoImplicit false

namespace LoginNames.FileSystem

section Lookups

variable {fs : FileSystem} {path : Path} {here there location : Location} {name : Bytes}

theorem checkPath_eq_ok :
    checkPath path = .ok () ↔ 0 ∉ path ∧ path ≠ [] ∧ path.length ≤ maxPathBytes := by
  unfold checkPath
  by_cases hnul : 0 ∈ path
  · simp [hnul]
  by_cases hnil : path = []
  · simp [hnil]
  by_cases hlong : maxPathBytes < path.length
  · simp [hnul, hnil, hlong]
  · simp [hnul, hnil, hlong, Nat.le_of_not_lt hlong]

/-- A name is followed to itself, upwards, or to an entry that is there. -/
theorem step_eq_ok :
    fs.step here name = .ok there ↔
      (name = Path.dot ∧ there = here) ∨ (name = Path.dotDot ∧ there = here.dropLast) ∨
        (name ≠ Path.dot ∧ name ≠ Path.dotDot ∧ name.length ≤ maxNameBytes ∧
          fs.node? (here ++ [name]) ≠ none ∧ there = here ++ [name]) := by
  unfold step
  by_cases hdot : name = Path.dot
  · have hdots : Path.dot ≠ Path.dotDot := by decide
    simp [hdot, hdots, eq_comm]
  by_cases hdots : name = Path.dotDot
  · have hdot' : Path.dotDot ≠ Path.dot := by decide
    simp [hdots, hdot', eq_comm]
  by_cases hlong : maxNameBytes < name.length
  · simp [hdot, hdots, hlong, Nat.not_le.2 hlong]
  · cases fs.node? (here ++ [name]) with
    | none => simp [hdot, hdots, hlong]
    | some node => simp [hdot, hdots, hlong, Nat.le_of_not_lt hlong, eq_comm]

theorem followDirectories_cons {names : List Bytes} :
    fs.followDirectories here (name :: names) = .ok location ↔
      ∃ there, fs.step here name = .ok there ∧ fs.isDirectoryAt there = true ∧
        fs.followDirectories there names = .ok location := by
  rw [followDirectories]
  cases fs.step here name with
  | error cause => simp
  | ok there =>
    cases hdir : fs.isDirectoryAt there <;> simp [hdir]

theorem locateParent_eq_ok {parent : Location} :
    fs.locateParent path = .ok parent ↔
      checkPath path = .ok () ∧
        fs.followDirectories (fs.startOf path) path.names.dropLast = .ok parent := by
  rw [locateParent, bind_eq_ok]
  exact ⟨fun ⟨_, hcheck, hfollow⟩ => ⟨hcheck, hfollow⟩,
    fun ⟨hcheck, hfollow⟩ => ⟨(), hcheck, hfollow⟩⟩

theorem locate_eq_ok :
    fs.locate path = .ok location ↔ ∃ parent, fs.locateParent path = .ok parent ∧
      match path.names.getLast? with
      | none => location = parent
      | some name => fs.step parent name = .ok location ∧
          (path.endsInSlash = true → fs.isDirectoryAt location = true) := by
  rw [locate, bind_eq_ok]
  refine exists_congr fun parent => and_congr_right fun _ => ?_
  cases path.names.getLast? with
  | none => simp [eq_comm]
  | some name =>
    simp only [bind_eq_ok]
    constructor
    · rintro ⟨there, hstep, hthere⟩
      split at hthere
      · cases hthere
      · rename_i hfile
        cases hthere
        exact ⟨hstep, by simpa using hfile⟩
    · rintro ⟨hstep, hslash⟩
      refine ⟨location, hstep, if_neg ?_⟩
      simpa using hslash

theorem isDirectory_eq_true :
    fs.isDirectory path = true ↔
      ∃ location, fs.locate path = .ok location ∧ fs.isDirectoryAt location = true := by
  unfold isDirectory
  cases fs.locate path <;> simp

end Lookups

theorem readFile_eq_ok {fs : FileSystem} {path : Path} {content : Bytes} :
    fs.readFile path = .ok content ↔
      ∃ location, fs.locate path = .ok location ∧ fs.node? location = some (.file content) := by
  rw [readFile, bind_eq_ok]
  refine exists_congr fun location => and_congr_right fun _ => ?_
  cases fs.node? location with
  | none => simp
  | some node => cases node <;> simp

section Entries

variable {fs : FileSystem} {path : Path} {parent location : Location} {name : Bytes}

theorem entryName?_eq_some :
    entryName? path = some name ↔
      path.names.getLast? = some name ∧ name ≠ Path.dot ∧ name ≠ Path.dotDot := by
  unfold entryName?
  cases path.names.getLast? with
  | none => simp
  | some last =>
    by_cases hdots : last = Path.dot ∨ last = Path.dotDot
    · simp only [if_pos hdots, reduceCtorEq, Option.some.injEq, false_iff]
      rintro ⟨rfl, hdot, hdotDot⟩
      exact hdots.elim hdot hdotDot
    · simp only [if_neg hdots, Option.some.injEq]
      constructor
      · rintro rfl
        exact ⟨rfl, not_or.1 hdots⟩
      · exact And.left

theorem locate_entry (hparent : fs.locateParent path = .ok parent)
    (hname : entryName? path = some name) (hlength : name.length ≤ maxNameBytes)
    (hnode : fs.node? (parent ++ [name]) ≠ none)
    (hslash : path.endsInSlash = true → fs.isDirectoryAt (parent ++ [name]) = true) :
    fs.locate path = .ok (parent ++ [name]) := by
  obtain ⟨hlast, hdot, hdotDot⟩ := entryName?_eq_some.1 hname
  refine locate_eq_ok.2 ⟨parent, hparent, ?_⟩
  rw [hlast]
  exact ⟨step_eq_ok.2 (.inr (.inr ⟨hdot, hdotDot, hlength, hnode, rfl⟩)), hslash⟩

theorem makeDirectory_eq_ok {made : FileSystem} :
    fs.makeDirectory path = .ok made ↔
      ∃ parent name, fs.locateParent path = .ok parent ∧ entryName? path = some name ∧
        name.length ≤ maxNameBytes ∧ fs.node? (parent ++ [name]) = none ∧
        made = fs.set (parent ++ [name]) .directory := by
  unfold makeDirectory
  cases fs.locateParent path with
  | error cause => simp [bind, Except.bind]
  | ok parent =>
    cases entryName? path with
    | none => simp [bind, Except.bind]
    | some name =>
      by_cases hlong : maxNameBytes < name.length
      · simp [bind, Except.bind, hlong, Nat.not_le.2 hlong]
      · cases hnode : fs.node? (parent ++ [name]) <;>
          simp [bind, Except.bind, hlong, hnode, Nat.le_of_not_lt hlong, eq_comm]

theorem createFile_eq_ok {created : FileSystem} :
    fs.createFile path = .ok (created, location) ↔
      ∃ parent name, fs.locateParent path = .ok parent ∧ entryName? path = some name ∧
        path.endsInSlash = false ∧ name.length ≤ maxNameBytes ∧
        fs.isDirectoryAt (parent ++ [name]) = false ∧
        created = fs.set (parent ++ [name]) (.file []) ∧ location = parent ++ [name] := by
  unfold createFile
  cases fs.locateParent path with
  | error cause => simp [bind, Except.bind]
  | ok parent =>
    cases entryName? path with
    | none => simp [bind, Except.bind]
    | some name =>
      cases path.endsInSlash with
      | true => simp [bind, Except.bind]
      | false =>
        by_cases hlong : maxNameBytes < name.length
        · simp [bind, Except.bind, hlong, Nat.not_le.2 hlong]
        · cases hdir : fs.isDirectoryAt (parent ++ [name]) with
          | true => simp [bind, Except.bind, hlong, hdir]
          | false =>
            simp [bind, Except.bind, hlong, hdir, Nat.le_of_not_lt hlong, eq_comm (a := created),
              eq_comm (a := location)]

end Entries

theorem followDirectories_append {fs : FileSystem} {names more : List Bytes}
    {here there : Location} :
    fs.followDirectories here (names ++ more) = .ok there ↔
      ∃ between, fs.followDirectories here names = .ok between ∧
        fs.followDirectories between more = .ok there := by
  induction names generalizing here with
  | nil => simp [followDirectories]
  | cons name names ih =>
    simp only [List.cons_append, followDirectories_cons, ih]
    constructor
    · rintro ⟨next, hstep, hdir, between, hbetween, hrest⟩
      exact ⟨between, ⟨next, hstep, hdir, hbetween⟩, hrest⟩
    · rintro ⟨between, ⟨next, hstep, hdir, hbetween⟩, hrest⟩
      exact ⟨next, hstep, hdir, between, hbetween, hrest⟩

theorem followDirectories_concat {fs : FileSystem} {names : List Bytes} {name : Bytes}
    {here there : Location} :
    fs.followDirectories here (names ++ [name]) = .ok there ↔
      ∃ between, fs.followDirectories here names = .ok between ∧
        fs.step between name = .ok there ∧ fs.isDirectoryAt there = true := by
  have hone (between : Location) : fs.followDirectories between [name] = .ok there ↔
      fs.step between name = .ok there ∧ fs.isDirectoryAt there = true := by
    rw [followDirectories_cons]
    simp only [followDirectories, Except.ok.injEq]
    constructor
    · rintro ⟨next, hstep, hdir, rfl⟩
      exact ⟨hstep, hdir⟩
    · rintro ⟨hstep, hdir⟩
      exact ⟨there, hstep, hdir, rfl⟩
  simp only [followDirectories_append, hone]

/-- A path whose names all lead to directories is that of a directory. -/
theorem isDirectory_of_follow {fs : FileSystem} {path : Path} {location : Location}
    (hcheck : checkPath path = .ok ())
    (hfollow : fs.followDirectories (fs.startOf path) path.names = .ok location)
    (hroot : path.names = [] → path.isAbsolute = true) : fs.isDirectory path = true := by
  rw [isDirectory_eq_true]
  obtain hnil | ⟨names, name, hnames⟩ := List.eq_nil_or_concat path.names
  · have hlocation : location = [] := by
      rw [hnil, followDirectories, startOf, if_pos (hroot hnil)] at hfollow
      exact (Except.ok.inj hfollow).symm
    subst hlocation
    refine ⟨[], locate_eq_ok.2 ⟨[], locateParent_eq_ok.2 ⟨hcheck, ?_⟩, ?_⟩, rfl⟩
    · rw [hnil] at hfollow ⊢
      exact hfollow
    · rw [hnil]
      rfl
  · rw [List.concat_eq_append] at hnames
    rw [hnames, followDirectories_concat] at hfollow
    obtain ⟨parent, hparent, hstep, hdir⟩ := hfollow
    refine ⟨location, locate_eq_ok.2 ⟨parent, locateParent_eq_ok.2 ⟨hcheck, ?_⟩, ?_⟩, hdir⟩
    · rw [hnames, List.dropLast_concat]
      exact hparent
    · rw [hnames, List.getLast?_concat]
      exact ⟨hstep, fun _ => hdir⟩

/-- Where the parent of a path can be found, all paths above it are those of directories. -/
theorem isDirectory_of_isAbove {fs : FileSystem} {above path : Path} {parent : Location}
    (h : above.IsAbove path) (hparent : fs.locateParent path = .ok parent) :
    fs.isDirectory above = true := by
  obtain ⟨hcheck, hfollow⟩ := locateParent_eq_ok.1 hparent
  obtain ⟨more, hmore⟩ := h.names
  rw [← hmore] at hfollow
  obtain ⟨location, hlocation, -⟩ := followDirectories_append.1 hfollow
  have hstart : fs.startOf above = fs.startOf path := by rw [startOf, startOf, h.isAbsolute]
  rw [← hstart] at hlocation
  refine isDirectory_of_follow ?_ hlocation fun hnil => h.isAbsolute.trans (h.root hnil)
  obtain ⟨hnul, hne, hlength⟩ := checkPath_eq_ok.1 hcheck
  exact checkPath_eq_ok.2 ⟨fun hmem => hnul (h.spelling.subset hmem), h.ne_nil,
    Nat.le_trans h.spelling.length_le hlength⟩

end LoginNames.FileSystem
