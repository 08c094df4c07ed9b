import LoginNames.Proofs.NameList.Script

/-! # Name lists written out

A name list is written with a newline behind each name. Names without a newline come back from it
one by one, also in front of other data, and a load never gives other names than such. -/

set_option autoImplicit false

namespace LoginNames

namespace NameList

/-- No name holds a newline, so that each can be a line. -/
def OneLine (names : NameList) : Prop := ∀ name ∈ names, Bytes.newline ∉ name

def written (names : NameList) : Bytes := names.flatMap (· ++ [Bytes.newline])

theorem OneLine.tail {name : Bytes} {names : NameList} (h : OneLine (name :: names)) :
    OneLine names :=
  fun other hother => h other (List.mem_cons_of_mem _ hother)

theorem written_cons (name : Bytes) (names : NameList) :
    written (name :: names) = name ++ Bytes.newline :: written names := by
  simp [written]

theorem written_append (names more : NameList) :
    written (names ++ more) = names.written ++ more.written :=
  List.flatMap_append

theorem written_ends (names : NameList) :
    names.written = [] ∨ names.written.getLast? = some Bytes.newline := by
  obtain rfl | ⟨names, name, rfl⟩ := List.eq_nil_or_concat' names
  · exact .inl rfl
  · refine .inr ?_
    rw [written_append, List.getLast?_append, written_cons, List.getLast?_append]
    rfl

/-- Data is a written list and what is left behind its last newline. -/
theorem exists_written_append (data : Bytes) :
    ∃ (names : NameList) (rest : Bytes),
      names.OneLine ∧ Bytes.newline ∉ rest ∧ data = names.written ++ rest := by
  induction hlength : data.length using Nat.strong_induction_on generalizing data with
  | _ length ih =>
    by_cases hmem : Bytes.newline ∈ data
    · obtain ⟨name, tail, rfl, hname⟩ := List.eq_append_cons_of_mem hmem
      have hshorter : tail.length < length := by
        rw [← hlength, List.length_append, List.length_cons]
        omega
      obtain ⟨names, rest, hnames, hrest, rfl⟩ := ih _ hshorter tail rfl
      refine ⟨name :: names, rest, List.forall_mem_cons.mpr ⟨hname, hnames⟩, hrest, ?_⟩
      rw [written_cons, List.append_assoc, List.cons_append]
    · exact ⟨[], data, List.forall_mem_nil _, hmem, rfl⟩

theorem exists_written {data : Bytes} (h : data = [] ∨ data.getLast? = some Bytes.newline) :
    ∃ names : NameList, names.OneLine ∧ data = names.written := by
  obtain ⟨names, rest, hnames, hrest, rfl⟩ := exists_written_append data
  refine ⟨names, hnames, ?_⟩
  obtain h | h := h
  · rw [h, (List.append_eq_nil_iff.1 h).1]
  · cases hlast : rest.getLast? with
    | none => rw [List.getLast?_eq_none_iff.1 hlast, List.append_nil]
    | some b =>
      rw [List.getLast?_append, hlast] at h
      cases h
      exact absurd (List.mem_of_getLast? hlast) hrest

end NameList

namespace Lines

theorem ofData_written_append {names : NameList} (h : names.OneLine) (data : Bytes) :
    ofData (names.written ++ data) = names ++ ofData data := by
  induction names with
  | nil => rfl
  | cons name names ih =>
    rw [NameList.written_cons, List.append_assoc, List.cons_append,
      ofData_cons (h name List.mem_cons_self), ih h.tail, List.cons_append]

theorem ofData_written {names : NameList} (h : names.OneLine) : ofData names.written = names := by
  simpa only [List.append_nil, ofData_nil] using ofData_written_append h []

/-- Lines may be counted in parts where the first part leaves no line open. -/
theorem ofData_append {first : Bytes} (h : first = [] ∨ first.getLast? = some Bytes.newline)
    (second : Bytes) : ofData (first ++ second) = ofData first ++ ofData second := by
  obtain ⟨names, hnames, rfl⟩ := NameList.exists_written h
  rw [ofData_written_append hnames, ofData_written hnames]

theorem ofData_oneLine (data : Bytes) : NameList.OneLine (ofData data) := by
  obtain ⟨names, rest, hnames, hrest, rfl⟩ := NameList.exists_written_append data
  rw [ofData_written_append hnames]
  intro line hline
  rw [List.mem_append] at hline
  obtain hline | hline := hline
  · exact hnames line hline
  · by_cases hne : rest = []
    · subst rest
      cases hline
    · rw [ofData_last hne hrest, List.mem_singleton] at hline
      exact hline ▸ hrest

end Lines

theorem LoadOptions.stripped_prefix (options : LoadOptions) (line : Bytes) :
    options.stripped line <+: line := by
  unfold stripped
  split
  · exact List.dropLast_prefix line
  · exact List.prefix_refl line

theorem Loaded.cutOff_ne_ok (loaded : Loaded) (cause : IoError) (names : NameList) :
    (loaded.cutOff (some cause)).result ≠ .ok names := by
  obtain ⟨result, log⟩ := loaded
  cases result <;> simp [cutOff, Except.bind]

/-- Whatever a script of reads holds, no name that is loaded from it holds a newline. -/
theorem load_oneLine {options : LoadOptions} {source : Source} {names : NameList}
    (h : (load options source).result = .ok names) : names.OneLine := by
  cases hfailure : (source.stream false).failure with
  | some cause =>
    rw [load_of_failure hfailure] at h
    exact absurd h (Loaded.cutOff_ne_ok _ cause names)
  | none =>
    rw [load_of_end hfailure, load_ofBytes] at h
    rw [LoadOptions.judge_eq_ok h]
    intro name hname
    simp only [List.map_map, List.mem_map, Function.comp_apply] at hname
    obtain ⟨line, hline, rfl⟩ := hname
    have hstart : (options.stripped line).take options.maxLength <+: line :=
      (List.take_prefix _ _).trans (options.stripped_prefix line)
    exact fun hmem => Lines.ofData_oneLine _ line hline (hstart.subset hmem)

theorem LoadOptions.map_stripped_of_keeps {options : LoadOptions}
    (h : options.stripCarriageReturn = false) (lines : List Bytes) :
    lines.map options.stripped = lines := by
  conv_rhs => rw [← List.map_id lines]
  apply List.map_congr_left
  intro line _
  simp [stripped, h]

/-- Data whose lines fit is loaded as its lines, in whatever chunks it comes. -/
theorem load_of_fits {options : LoadOptions} {data : Bytes} {source : Source}
    (hsource : source.Delivers data)
    (hfits : ∀ line ∈ (Lines.ofData data).map options.stripped,
      line.length ≤ options.maxLength) :
    load options source = ⟨.ok ((Lines.ofData data).map options.stripped), []⟩ := by
  rw [load_of_delivers hsource, Lines.load, LoadOptions.judge_fits hfits]

/-- Names that fit are read back from the list as it is written, in whatever chunks it comes. -/
theorem load_written {options : LoadOptions} {names : NameList} {source : Source}
    (hsource : source.Delivers names.written) (hnames : names.OneLine)
    (hstrip : options.stripCarriageReturn = false)
    (hfits : ∀ name ∈ names, name.length ≤ options.maxLength) :
    load options source = ⟨.ok names, []⟩ := by
  have hlines : (Lines.ofData names.written).map options.stripped = names := by
    rw [Lines.ofData_written hnames, LoadOptions.map_stripped_of_keeps hstrip]
  rw [load_of_fits hsource (by rwa [hlines]), hlines]

end LoginNames
