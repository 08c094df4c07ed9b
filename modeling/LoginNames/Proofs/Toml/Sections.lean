import LoginNames.Proofs.Toml.Distinct
import LoginNames.Proofs.Toml.Rows

/-! # Documents written in sections

A section is a table with a name and some settings, written as a header and a row for each setting.
A document of sections with different names is read as a table that holds each of them under its
name, with the settings as they were written. -/

set_option autoImplicit false

namespace LoginNames.Toml

/-- A table with a header of its own, whose keys need no quotes and stand in it once. -/
structure Section where
  name : String
  settings : List (String × Literal)
  bare : IsBareName name.toList
  keys_bare : ∀ setting ∈ settings, IsBareName setting.1.toList
  keys_nodup : (settings.map Prod.fst).Nodup

namespace Section

def rows (s : Section) : List Row :=
  .header s.name :: s.settings.map fun (key, literal) => .entry key literal

def entries (settings : List (String × Literal)) : Entries :=
  settings.reverse.map fun (key, literal) => (key, literal.value)

def entry (s : Section) : String × Value := (s.name, .table .headed (entries s.settings))

theorem keys_entries (settings : List (String × Literal)) :
    (entries settings).map Prod.fst = (settings.map Prod.fst).reverse := by
  simp [entries, Function.comp_def]

theorem nodup_entries (s : Section) : ((entries s.settings).map Prod.fst).Nodup := by
  rw [keys_entries]
  exact List.nodup_reverse.mpr s.keys_nodup

theorem mem_entries {settings : List (String × Literal)} {key : String} {literal : Literal}
    (h : (key, literal) ∈ settings) : (key, literal.value) ∈ entries settings :=
  List.mem_map.mpr ⟨(key, literal), List.mem_reverse.mpr h, rfl⟩

/-- The settings with a value, in the order in which they are declared. -/
def present (declared : List (String × Option Literal)) : List (String × Literal) :=
  declared.filterMap fun (key, literal?) => literal?.map fun literal => (key, literal)

theorem keys_present (declared : List (String × Option Literal)) :
    ((present declared).map Prod.fst).Sublist (declared.map Prod.fst) := by
  induction declared with
  | nil => exact .refl _
  | cons setting declared ih =>
    obtain ⟨key, _ | literal⟩ := setting
    · exact ih.cons key
    · exact ih.cons_cons key

theorem mem_declared_of_mem_entries {declared : List (String × Option Literal)} {key : String}
    (h : key ∈ (entries (present declared)).map Prod.fst) : key ∈ declared.map Prod.fst := by
  rw [keys_entries, List.mem_reverse] at h
  exact (keys_present declared).subset h

/-- A key that is declared without a value is not there. -/
theorem not_mem_entries_of_none {declared : List (String × Option Literal)} {key : String}
    (hnodup : (declared.map Prod.fst).Nodup) (h : (key, none) ∈ declared) :
    key ∉ (entries (present declared)).map Prod.fst := by
  intro hkey
  rw [keys_entries, List.mem_reverse] at hkey
  obtain ⟨⟨key, literal⟩, hpresent, rfl⟩ := List.mem_map.mp hkey
  obtain ⟨setting, hsetting, hliteral⟩ := List.mem_filterMap.mp hpresent
  obtain ⟨literal', hsome, heq⟩ := Option.map_eq_some_iff.mp hliteral
  cases heq
  have hsame := List.inj_on_of_nodup_map hnodup hsetting h rfl
  rw [hsame] at hsome
  cases hsome

/-- The section of a table whose settings are declared. -/
def ofDeclared (name : String) (declared : List (String × Option Literal))
    (hname : IsBareName name.toList) (hkeys : ∀ key ∈ declared.map Prod.fst, IsBareName key.toList)
    (hnodup : (declared.map Prod.fst).Nodup) : Section where
  name := name
  settings := present declared
  bare := hname
  keys_bare _ hsetting := hkeys _ ((keys_present declared).subset (List.mem_map_of_mem hsetting))
  keys_nodup := (keys_present declared).nodup hnodup

/-- A text with the sections one below the other. -/
def document (e : Quoted.Escaping) (sections : List Section) : String :=
  String.ofList ((sections.flatMap rows).flatMap (Row.print e))

end Section

theorem KeyPath.ofPieces_bare {name : String} (h : IsBareName name.toList) :
    KeyPath.ofPieces [.word name.toList] = .ok ⟨[], name⟩ := by
  have hkey : Piece.key? (.word name.toList) = some name := by
    have hall : name.toList.all Piece.isBare = true := List.all_eq_true.mpr h.isBare
    simp [Piece.key?, h.ne_nil, hall]
  simp [ofPieces, hkey, Fault.check, maxKeys, bind, Except.bind]

namespace Entries

theorem replace_cons_self {entries : Entries} {key : String} (h : key ∉ entries.map Prod.fst)
    (old new : Value) : replace key new ((key, old) :: entries) = (key, new) :: entries := by
  have hrest :
      entries.map (fun entry => if entry.1 = key then (key, new) else entry) = entries := by
    refine (List.map_congr_left fun entry hentry => if_neg ?_).trans (List.map_id' entries)
    rintro rfl
    exact h (List.mem_map_of_mem hentry)
  simp [replace, hrest]

end Entries

namespace Document

theorem apply_header {d : Document} {root : Entries} {name : String} (hclose : d.close = .ok root)
    (hname : IsBareName name.toList) (hfresh : name ∉ root.map Prod.fst) :
    d.apply (Row.header name).line =
      .ok ⟨(name, .table .headed []) :: root, .table [name]⟩ := by
  simp only [Row.line, apply, hclose, KeyPath.ofPieces_bare hname]
  simp [Entries.openTable, Entries.extendAt, Entries.lookup_eq_none.mpr hfresh,
    Fault.check, bind, Except.bind]

theorem apply_entry {root inner : Entries} {name key : String} {l : Literal}
    (hkey : IsBareName key.toList) (hname : name ∉ root.map Prod.fst)
    (hfresh : key ∉ inner.map Prod.fst) :
    apply ⟨(name, .table .headed inner) :: root, .table [name]⟩ (Row.entry key l).line =
      .ok ⟨(name, .table .headed ((key, l.value) :: inner)) :: root, .table [name]⟩ := by
  have hassign : Entries.assign .headed ⟨[], key⟩ l.value inner =
      some ((key, l.value) :: inner) := by
    simp [Entries.assign, Entries.extendAt, Entries.setNew,
      Entries.lookup_eq_none.mpr hfresh]
  have hchange : Entries.changeOpen (Entries.assign .headed ⟨[], key⟩ l.value) [name]
      ((name, .table .headed inner) :: root) =
      some ((name, .table .headed ((key, l.value) :: inner)) :: root) := by
    simp [Entries.changeOpen, hassign, Entries.replace_cons_self hname]
  simp [Row.line, apply, KeyPath.ofPieces_bare hkey, Node.value, l.piece_value?, Fault.check, set,
    hchange, bind, Except.bind]

/-- The rows under a header fill the table that it opened. -/
theorem apply_settings {root : Entries} {name : String} (hname : name ∉ root.map Prod.fst)
    (settings : List (String × Literal)) (inner : Entries)
    (hbare : ∀ setting ∈ settings, IsBareName setting.1.toList)
    (hnodup : (settings.map Prod.fst ++ inner.map Prod.fst).Nodup) :
    (settings.map fun (key, literal) => (Row.entry key literal).line).foldlM apply
        ⟨(name, .table .headed inner) :: root, .table [name]⟩ =
      .ok ⟨(name, .table .headed (Section.entries settings ++ inner)) :: root, .table [name]⟩ := by
  induction settings generalizing inner with
  | nil => rfl
  | cons setting settings ih =>
    obtain ⟨key, literal⟩ := setting
    rw [List.map_cons, List.cons_append, List.nodup_cons] at hnodup
    have hfresh : key ∉ inner.map Prod.fst :=
      fun hmem => hnodup.1 (List.mem_append_right _ hmem)
    have hrest := ih ((key, literal.value) :: inner)
      (fun other hother => hbare other (List.mem_cons_of_mem _ hother))
      (List.nodup_middle.mpr (List.nodup_cons.mpr hnodup))
    rw [List.map_cons, List.foldlM_cons, apply_entry (hbare _ List.mem_cons_self) hname hfresh]
    simpa [Section.entries, bind, Except.bind] using hrest

theorem apply_section {d : Document} {root : Entries} (s : Section) (hclose : d.close = .ok root)
    (hfresh : s.name ∉ root.map Prod.fst) :
    (s.rows.map Row.line).foldlM apply d = .ok ⟨s.entry :: root, .table [s.name]⟩ := by
  have hsettings := apply_settings hfresh s.settings [] s.keys_bare
    (by simpa using s.keys_nodup)
  rw [List.append_nil] at hsettings
  rw [Section.rows, List.map_cons, List.foldlM_cons, apply_header hclose s.bare hfresh,
    List.map_map]
  exact hsettings

theorem apply_sections (sections : List Section) {d : Document} {root : Entries}
    (hclose : d.close = .ok root)
    (hnodup : (sections.map Section.name ++ root.map Prod.fst).Nodup) :
    ∃ closed : Document,
      ((sections.flatMap Section.rows).map Row.line).foldlM apply d = .ok closed ∧
        closed.close = .ok ((sections.map Section.entry).reverse ++ root) := by
  induction sections generalizing d root with
  | nil => exact ⟨d, rfl, hclose⟩
  | cons s sections ih =>
    rw [List.map_cons, List.cons_append, List.nodup_cons] at hnodup
    have hfresh : s.name ∉ root.map Prod.fst :=
      fun hmem => hnodup.1 (List.mem_append_right _ hmem)
    obtain ⟨closed, happly, hclosed⟩ := ih (d := ⟨s.entry :: root, .table [s.name]⟩) rfl
      (List.nodup_middle.mpr (List.nodup_cons.mpr hnodup))
    refine ⟨closed, ?_, ?_⟩
    · rw [List.flatMap_cons, List.map_append, List.foldlM_append, apply_section s hclose hfresh]
      exact happly
    · rw [hclosed, List.map_cons, List.reverse_cons, List.append_assoc]
      rfl

end Document

theorem Section.bare_rows (sections : List Section) :
    ∀ row ∈ sections.flatMap rows, IsBareName row.name.toList := by
  intro row hrow
  obtain ⟨s, -, hrow⟩ := List.mem_flatMap.mp hrow
  obtain rfl | hentry := List.mem_cons.mp hrow
  · exact s.bare
  · obtain ⟨setting, hsetting, rfl⟩ := List.mem_map.mp hentry
    exact s.keys_bare setting hsetting

/-- A document of sections reads as a table of them, the latest first. -/
theorem parse_document (e : Quoted.Escaping) {sections : List Section}
    (hnodup : (sections.map Section.name).Nodup) :
    parse (Section.document e sections) = .ok (sections.map Section.entry).reverse := by
  obtain ⟨closed, happly, hclosed⟩ := Document.apply_sections sections
    (show Document.empty.close = .ok [] from rfl) (by simpa using hnodup)
  rw [parse, Section.document, Row.ofText?_print e (Section.bare_rows sections)]
  simp only [Fault.check, bind, Except.bind, happly, hclosed, List.append_nil]

end LoginNames.Toml
