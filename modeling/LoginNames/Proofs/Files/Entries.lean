import LoginNames.Files.Tree

/-! # Setting entries

What is set at a location is found there, and nothing changes elsewhere. To set twice is to set
what came last. -/

set_option autoImplicit false

namespace LoginNames.FileSystem

theorem lookup_entry (location other : Location) (node : Node)
    (entries : List (Location × Node)) :
    List.lookup other ((location, node) :: entries) =
      if other = location then some node else entries.lookup other := by
  by_cases h : other = location
  · simp [h]
  · rw [List.lookup_cons, beq_false_of_ne h, if_neg h]

theorem lookup_setEntry (location other : Location) (node : Node)
    (entries : List (Location × Node)) :
    (setEntry location node entries).lookup other =
      if other = location then some node else entries.lookup other := by
  induction entries with
  | nil => rw [setEntry, lookup_entry]
  | cons entry entries ih =>
    obtain ⟨l, n⟩ := entry
    rw [setEntry]
    by_cases hl : l = location
    · subst l
      rw [if_pos rfl, lookup_entry, lookup_entry]
      split <;> rfl
    · rw [if_neg hl, lookup_entry, lookup_entry, ih]
      by_cases h : other = l
      · rw [if_pos h, if_neg (h ▸ hl), if_pos h]
      · simp only [if_neg h]

theorem setEntry_setEntry (location : Location) (node node' : Node)
    (entries : List (Location × Node)) :
    setEntry location node' (setEntry location node entries) =
      setEntry location node' entries := by
  induction entries with
  | nil => simp [setEntry]
  | cons entry entries ih =>
    by_cases hl : entry.1 = location
    · simp [setEntry, hl]
    · simp [setEntry, hl, ih]

@[simp] theorem node?_root (fs : FileSystem) : fs.node? [] = some .directory := rfl

theorem node?_set (fs : FileSystem) {location : Location} (hne : location ≠ [])
    (other : Location) (node : Node) :
    (fs.set location node).node? other =
      if other = location then some node else fs.node? other := by
  by_cases h : other = []
  · subst other
    simp [Ne.symm hne]
  · simp [node?, set, h, lookup_setEntry]

@[simp] theorem set_set (fs : FileSystem) (location : Location) (node node' : Node) :
    (fs.set location node).set location node' = fs.set location node' := by
  simp [set, setEntry_setEntry]

end LoginNames.FileSystem
