import LoginNames.Proofs.NameList.Loading

/-! # Lines that are too long

The lines of a load that are longer than its limit decide everything but the names: where such lines
stop a load the first of them does, and where they are cut each of them is told. -/

set_option autoImplicit false

namespace LoginNames

namespace LoadOptions

variable (options : LoadOptions)

/-- The lines that are longer than the limit once they are stripped, each with its number. -/
def longLines (lines : List Bytes) : List (Bytes × Nat) :=
  ((lines.map options.stripped).zipIdx 1).filter fun (line, _) => options.maxLength < line.length

def cutEntries (lines : List Bytes) : Log :=
  (options.longLines lines).map fun (line, number) =>
    truncationEntry number line.length options.maxLength

variable {options} {lines : List Bytes}

theorem judge_truncate (hoverlong : options.overlong = .truncate) :
    options.judge ((lines.map options.stripped).zipIdx 1) =
      ⟨.ok ((lines.map options.stripped).map (·.take options.maxLength)),
        options.cutEntries lines⟩ := by
  have hnames : ((lines.map options.stripped).zipIdx 1).map
      (fun numbered => numbered.1.take options.maxLength) =
        (lines.map options.stripped).map (·.take options.maxLength) := by
    conv_rhs => rw [← List.zipIdx_map_fst 1 (lines.map options.stripped), List.map_map]
    rfl
  simp only [judge, hoverlong]
  rw [← hnames]
  rfl

theorem judge_reject_long (hoverlong : options.overlong = .reject) {line : Bytes} {number : Nat}
    (h : (options.longLines lines).head? = some (line, number)) :
    options.judge ((lines.map options.stripped).zipIdx 1) =
      ⟨.error (.nameTooLong number line.length options.maxLength), []⟩ := by
  obtain ⟨more, hlong⟩ := List.head?_eq_some_iff.1 h
  rw [longLines] at hlong
  simp only [judge, hoverlong, hlong]

theorem judge_reject_fits (hoverlong : options.overlong = .reject)
    (h : options.longLines lines = []) :
    options.judge ((lines.map options.stripped).zipIdx 1) =
      ⟨.ok (lines.map options.stripped), []⟩ := by
  rw [longLines] at h
  simp only [judge, hoverlong, h, List.zipIdx_map_fst]

theorem map_take_of_fits {names : List Bytes} (h : ∀ name ∈ names, name.length ≤ options.maxLength) :
    names.map (·.take options.maxLength) = names := by
  conv_rhs => rw [← List.map_id names]
  exact List.map_congr_left fun name hname => List.take_of_length_le (h name hname)

theorem longLines_eq_nil :
    options.longLines lines = [] ↔
      ∀ line ∈ lines.map options.stripped, line.length ≤ options.maxLength := by
  conv_rhs => rw [← List.zipIdx_map_fst 1 (lines.map options.stripped)]
  rw [longLines, List.filter_eq_nil_iff, List.forall_mem_map]
  simp only [decide_eq_true_eq, Nat.not_lt]

/-- Lines that fit are the names, and nothing is told of them. -/
theorem judge_fits (h : ∀ line ∈ lines.map options.stripped, line.length ≤ options.maxLength) :
    options.judge ((lines.map options.stripped).zipIdx 1) =
      ⟨.ok (lines.map options.stripped), []⟩ := by
  have hlong := longLines_eq_nil.2 h
  cases hoverlong : options.overlong with
  | reject => exact judge_reject_fits hoverlong hlong
  | truncate =>
    rw [judge_truncate hoverlong, cutEntries, hlong, map_take_of_fits h]
    rfl

/-- The names of a load that succeeds are the starts of its lines. -/
theorem judge_eq_ok {names : NameList}
    (h : (options.judge ((lines.map options.stripped).zipIdx 1)).result = .ok names) :
    names = (lines.map options.stripped).map (·.take options.maxLength) := by
  cases hoverlong : options.overlong with
  | truncate =>
    rw [judge_truncate hoverlong] at h
    exact (Except.ok.inj h).symm
  | reject =>
    cases hlong : options.longLines lines with
    | nil =>
      rw [judge_reject_fits hoverlong hlong] at h
      cases h
      exact (map_take_of_fits (longLines_eq_nil.1 hlong)).symm
    | cons first more =>
      have hhead : (options.longLines lines).head? = some first := by rw [hlong, List.head?_cons]
      rw [judge_reject_long hoverlong hhead] at h
      cases h

end LoadOptions

/-- A plain load fails only for a line that is too long, and for the first one. -/
theorem Lines.load_eq_error {options : LoadOptions} {data : Bytes} {failure : Failure} :
    (Lines.load options data).result = .error failure ↔
      options.overlong = .reject ∧ ∃ line number,
        (options.longLines (Lines.ofData data)).head? = some (line, number) ∧
          failure = .nameTooLong number line.length options.maxLength := by
  cases hoverlong : options.overlong with
  | truncate => simp [Lines.load, LoadOptions.judge_truncate hoverlong]
  | reject =>
    cases hlong : options.longLines (Lines.ofData data) with
    | nil => simp [Lines.load, LoadOptions.judge_reject_fits hoverlong hlong]
    | cons first more =>
      obtain ⟨line, number⟩ := first
      have hhead : (options.longLines (Lines.ofData data)).head? = some (line, number) := by
        rw [hlong, List.head?_cons]
      simp [Lines.load, LoadOptions.judge_reject_long hoverlong hhead, eq_comm]

end LoginNames
