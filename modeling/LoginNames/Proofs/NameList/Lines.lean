import LoginNames.NameList.Loader

/-! # The lines of some data

What a load gives, said of the data as a whole: the data is cut at its newlines, an empty piece at
the end is no line, and each line is then stripped, numbered and measured. Nothing here knows of
chunks. -/

set_option autoImplicit false

namespace LoginNames

namespace Lines

/-- The pieces of the data between its newlines, without the last one if it is empty. -/
def ofData (data : Bytes) : List Bytes :=
  let pieces := data.splitOn Bytes.newline
  if pieces.getLast? = some [] then pieces.dropLast else pieces

/-- The lines of the data that a newline ends. -/
def terminated (data : Bytes) : List Bytes := (data.splitOn Bytes.newline).dropLast

theorem terminated_cons {line : Bytes} (h : Bytes.newline ∉ line) (rest : Bytes) :
    terminated (line ++ Bytes.newline :: rest) = line :: terminated rest := by
  rw [terminated, List.splitOn_append_cons_self_of_not_mem h,
    List.dropLast_cons_of_ne_nil (List.splitOn_ne_nil _ _)]
  rfl

theorem terminated_last {line : Bytes} (h : Bytes.newline ∉ line) : terminated line = [] := by
  rw [terminated, List.splitOn_eq_singleton h]
  rfl

theorem ofData_nil : ofData [] = [] := rfl

theorem ofData_cons {line : Bytes} (h : Bytes.newline ∉ line) (rest : Bytes) :
    ofData (line ++ Bytes.newline :: rest) = line :: ofData rest := by
  have hne := List.splitOn_ne_nil Bytes.newline rest
  have hlast : (line :: rest.splitOn Bytes.newline).getLast? =
      (rest.splitOn Bytes.newline).getLast? := by
    rw [List.getLast?_cons, List.getLast?_eq_some_getLast hne]
    rfl
  simp only [ofData, List.splitOn_append_cons_self_of_not_mem h, hlast,
    List.dropLast_cons_of_ne_nil hne]
  split <;> rfl

theorem ofData_last {line : Bytes} (hne : line ≠ []) (h : Bytes.newline ∉ line) :
    ofData line = [line] := by
  simp only [ofData, List.splitOn_eq_singleton h]
  rw [if_neg]
  simpa using hne

end Lines

/-- The line without one carriage return at its end, where the options say so. -/
def LoadOptions.stripped (options : LoadOptions) (line : Bytes) : Bytes :=
  if options.stripCarriageReturn ∧ line.getLast? = some Bytes.carriageReturn then line.dropLast
  else line

/-- What numbered lines make of a load. -/
def LoadOptions.judge (options : LoadOptions) (lines : List (Bytes × Nat)) : Loaded :=
  let max := options.maxLength
  let long := lines.filter fun (line, _) => max < line.length
  match options.overlong, long with
  | .reject, (line, number) :: _ => ⟨.error (.nameTooLong number line.length max), []⟩
  | .reject, [] => ⟨.ok (lines.map Prod.fst), []⟩
  | .truncate, _ =>
    ⟨.ok (lines.map fun (line, _) => line.take max), long.map fun (line, number) =>
      ⟨.debug, s!"Line {number} is {line.length} bytes, truncating to {max}"⟩⟩

/-- What the data makes of a load: its lines are stripped and numbered from one. -/
def Lines.load (options : LoadOptions) (data : Bytes) : Loaded :=
  options.judge (((Lines.ofData data).map options.stripped).zipIdx 1)

end LoginNames
