import LoginNames.Proofs.Files.Entries
import LoginNames.Proofs.Files.Lookup

/-! # Extended file systems

A file system extends another one when everything that is in the other one is there too, and
directories are directories there; files may hold something else. A path that leads to a place
leads to the same place in every extension. -/

set_option autoImplicit false

namespace LoginNames.FileSystem

structure Extends (fs fs' : FileSystem) : Prop where
  workingDirectory : fs'.workingDirectory = fs.workingDirectory
  present : ∀ location, fs.node? location ≠ none → fs'.node? location ≠ none
  directory : ∀ location, fs.isDirectoryAt location = true → fs'.isDirectoryAt location = true

namespace Extends

variable {fs fs' fs'' : FileSystem} {path : Path} {here there location : Location}

theorem refl (fs : FileSystem) : fs.Extends fs := ⟨rfl, fun _ h => h, fun _ h => h⟩

theorem trans (h : fs.Extends fs') (h' : fs'.Extends fs'') : fs.Extends fs'' :=
  ⟨h'.workingDirectory.trans h.workingDirectory,
    fun location hnode => h'.present location (h.present location hnode),
    fun location hdir => h'.directory location (h.directory location hdir)⟩

/-- It is enough that each node stays, becomes a directory, or was none and is there. -/
theorem of_node? (hworking : fs'.workingDirectory = fs.workingDirectory)
    (h : ∀ location, fs'.node? location = fs.node? location ∨
      fs'.node? location = some .directory ∨
        fs.isDirectoryAt location = false ∧ fs'.node? location ≠ none) : fs.Extends fs' := by
  refine ⟨hworking, fun location hnode => ?_, fun location hdir => ?_⟩
  · obtain hsame | hnew | ⟨-, hthere⟩ := h location
    · rwa [hsame]
    · simp [hnew]
    · exact hthere
  · obtain hsame | hnew | ⟨hfile, -⟩ := h location
    · rwa [isDirectoryAt, hsame]
    · simp [isDirectoryAt, hnew]
    · exact absurd (hfile.symm.trans hdir) Bool.false_ne_true

theorem set (hne : location ≠ []) (hdir : fs.isDirectoryAt location = false) (node : Node) :
    fs.Extends (fs.set location node) := by
  refine of_node? rfl fun other => ?_
  rw [node?_set fs hne]
  by_cases hother : other = location
  · subst other
    exact .inr (.inr ⟨hdir, by simp⟩)
  · exact .inl (if_neg hother)

theorem startOf (h : fs.Extends fs') (path : Path) : fs'.startOf path = fs.startOf path := by
  rw [FileSystem.startOf, FileSystem.startOf, h.workingDirectory]

theorem step (h : fs.Extends fs') {name : Bytes} (hstep : fs.step here name = .ok there) :
    fs'.step here name = .ok there := by
  rw [step_eq_ok] at hstep ⊢
  obtain hdot | hdots | ⟨hdot, hdots, hlength, hnode, hthere⟩ := hstep
  · exact .inl hdot
  · exact .inr (.inl hdots)
  · exact .inr (.inr ⟨hdot, hdots, hlength, h.present _ hnode, hthere⟩)

theorem followDirectories (h : fs.Extends fs') {names : List Bytes}
    (hfollow : fs.followDirectories here names = .ok there) :
    fs'.followDirectories here names = .ok there := by
  induction names generalizing here with
  | nil => exact hfollow
  | cons name names ih =>
    rw [followDirectories_cons] at hfollow ⊢
    obtain ⟨next, hstep, hdir, hrest⟩ := hfollow
    exact ⟨next, h.step hstep, h.directory next hdir, ih hrest⟩

theorem locateParent (h : fs.Extends fs') (hparent : fs.locateParent path = .ok location) :
    fs'.locateParent path = .ok location := by
  rw [locateParent_eq_ok] at hparent ⊢
  rw [h.startOf]
  exact ⟨hparent.1, h.followDirectories hparent.2⟩

theorem locate (h : fs.Extends fs') (hlocate : fs.locate path = .ok location) :
    fs'.locate path = .ok location := by
  rw [locate_eq_ok] at hlocate ⊢
  obtain ⟨parent, hparent, hlast⟩ := hlocate
  refine ⟨parent, h.locateParent hparent, ?_⟩
  split
  · rename_i hnone
    rwa [hnone] at hlast
  · rename_i name hsome
    rw [hsome] at hlast
    exact ⟨h.step hlast.1, fun hslash => h.directory location (hlast.2 hslash)⟩

end Extends

end LoginNames.FileSystem
