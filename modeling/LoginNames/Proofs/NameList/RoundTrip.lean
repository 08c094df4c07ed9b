import LoginNames.Proofs.NameList.Written

/-! # Name lists written and loaded again

A list that is written out loads as the list, also with a carriage return in front of each newline:
one of them is taken off of a line, and only then is the line measured. The other way around, what
is loaded of some data and written out is the data, with a newline at its end. -/

set_option autoImplicit false

namespace LoginNames

/-- The list with a carriage return and a newline behind each name. -/
def NameList.writtenWithReturns (names : NameList) : Bytes :=
  names.flatMap (· ++ [Bytes.carriageReturn, Bytes.newline])

theorem NameList.writtenWithReturns_eq (names : NameList) :
    names.writtenWithReturns = NameList.written (names.map (· ++ [Bytes.carriageReturn])) := by
  rw [writtenWithReturns, written, List.flatMap_map]
  simp only [List.append_assoc, List.singleton_append]

theorem NameList.OneLine.withReturns {names : NameList} (h : names.OneLine) :
    NameList.OneLine (names.map (· ++ [Bytes.carriageReturn])) := by
  intro line hline
  obtain ⟨name, hname, rfl⟩ := List.mem_map.mp hline
  rw [List.mem_append, not_or]
  exact ⟨h name hname, by decide⟩

namespace LoadOptions

variable {options : LoadOptions}

/-- Only the last carriage return of a line is taken off. -/
theorem stripped_append_return (h : options.stripCarriageReturn = true) (name : Bytes) :
    options.stripped (name ++ [Bytes.carriageReturn]) = name := by
  rw [stripped, if_pos ⟨h, List.getLast?_concat⟩, List.dropLast_concat]

theorem map_stripped_withReturns (h : options.stripCarriageReturn = true) (names : List Bytes) :
    (names.map (· ++ [Bytes.carriageReturn])).map options.stripped = names := by
  rw [List.map_map]
  conv_rhs => rw [← List.map_id names]
  exact List.map_congr_left fun name _ => stripped_append_return h name

end LoadOptions

/-- The lines of some data are the data, but for a newline that the last of them lacks. -/
theorem Lines.written_ofData (data : Bytes) :
    NameList.written (Lines.ofData data) =
      if data = [] ∨ data.getLast? = some Bytes.newline then data
      else data ++ [Bytes.newline] := by
  split
  case isTrue hends =>
    obtain ⟨names, hnames, rfl⟩ := NameList.exists_written hends
    rw [Lines.ofData_written hnames]
  case isFalse hends =>
    obtain ⟨names, rest, hnames, hrest, rfl⟩ := NameList.exists_written_append data
    have hne : rest ≠ [] := by
      rintro rfl
      rw [List.append_nil] at hends
      exact hends names.written_ends
    rw [Lines.ofData_written_append hnames, Lines.ofData_last hne hrest, NameList.written_append,
      NameList.written_cons, List.append_assoc]
    rfl

/-- Names that fit load as they were written, with a newline or with a carriage return and a newline
    behind each; and data whose lines fit is written as it was loaded, but for a newline that it
    lacks at its end. -/
theorem load_undoes_writing (options : LoadOptions) :
    (∀ names : NameList, names.OneLine → (∀ name ∈ names, name.length ≤ options.maxLength) →
      ∀ source : Source,
      (options.stripCarriageReturn = false → source.Delivers names.written →
        load options source = ⟨.ok names, []⟩) ∧
      (options.stripCarriageReturn = true → source.Delivers names.writtenWithReturns →
        load options source = ⟨.ok names, []⟩)) ∧
    (options.stripCarriageReturn = false → ∀ (data : Bytes) (source : Source),
      source.Delivers data → (∀ line ∈ Lines.ofData data, line.length ≤ options.maxLength) →
      ∃ names : NameList, load options source = ⟨.ok names, []⟩ ∧
        names.written = if data = [] ∨ data.getLast? = some Bytes.newline then data
          else data ++ [Bytes.newline]) := by
  refine ⟨fun names hnames hfits source => ⟨fun hstrip hsource => ?_, fun hstrip hsource => ?_⟩,
    fun hstrip data source hsource hfits => ?_⟩
  · exact load_written hsource hnames hstrip hfits
  · have hlines : (Lines.ofData names.writtenWithReturns).map options.stripped = names := by
      rw [NameList.writtenWithReturns_eq, Lines.ofData_written hnames.withReturns,
        LoadOptions.map_stripped_withReturns hstrip]
    rw [load_of_fits hsource (by rwa [hlines]), hlines]
  · have hlines := LoadOptions.map_stripped_of_keeps hstrip (Lines.ofData data)
    rw [← hlines] at hfits
    have hload := load_of_fits hsource hfits
    rw [hlines] at hload
    exact ⟨Lines.ofData data, hload, Lines.written_ofData data⟩

/-- An empty name, a name that ends in a carriage return and one of the largest length, the newlines
    apart from the carriage returns before them; and data that ends in an open line. -/
theorem load_undoes_writing_of_returns :
    let strict : LoadOptions := { maxLength := 4, overlong := .reject, stripCarriageReturn := true }
    let plain : LoadOptions := { maxLength := 4 }
    let names : NameList := [[], [97, 13], [98, 99, 100, 101]]
    let source : Source := [.chunk [13], .chunk [10, 97, 13, 13], .interrupted,
      .chunk [10, 98, 99, 100, 101, 13], .chunk [10]]
    let data : Bytes := [97, 13, 10, 10, 98]
    names.OneLine ∧ source.Delivers names.writtenWithReturns ∧
      load strict source = ⟨.ok names, []⟩ ∧
      load plain (.ofBuffer 2 names.written) = ⟨.ok names, []⟩ ∧
      (∀ line ∈ Lines.ofData data, line.length ≤ 4) ∧
      ∃ loaded : NameList, load plain (.ofBuffer 3 data) = ⟨.ok loaded, []⟩ ∧
        loaded.written = [97, 13, 10, 10, 98, 10] := by
  intro strict plain names source data
  have hnames : names.OneLine := by
    unfold NameList.OneLine
    decide
  have hfits : ∀ name ∈ names, name.length ≤ 4 := by decide
  have hsource : source.Delivers names.writtenWithReturns :=
    .chunk (by decide) (.chunk (by decide) (.interrupted (.chunk (by decide) (.chunk (by decide)
      .ended))))
  have hlines : ∀ line ∈ Lines.ofData data, line.length ≤ 4 := by decide
  obtain ⟨hread, -⟩ := load_undoes_writing strict
  obtain ⟨hreadPlain, hwrite⟩ := load_undoes_writing plain
  exact ⟨hnames, hsource, (hread names hnames hfits source).2 rfl hsource,
    (hreadPlain names hnames hfits _).1 rfl (Source.ofBuffer_delivers 2 _), hlines,
    hwrite rfl data _ (Source.ofBuffer_delivers 3 data) hlines⟩

end LoginNames
