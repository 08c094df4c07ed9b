import LoginNames.Files.Path

/-! # The paths above a path

Cutting a path at its slashes and joining the pieces again gives the path back. Each path above
another one is spelled as a part of it from the front, and so its names are the first of the names
to follow. -/

set_option autoImplicit false

namespace LoginNames.Path

theorem pieces_ne_nil (path : Path) : path.pieces ≠ [] := by
  cases path with
  | nil => simp [pieces]
  | cons b rest =>
    rw [pieces]
    split
    · simp
    · split <;> simp

theorem slash_not_mem_pieces {path : Path} {piece : Bytes} (h : piece ∈ path.pieces) :
    Bytes.slash ∉ piece := by
  induction path generalizing piece with
  | nil => simp_all [pieces]
  | cons b rest ih =>
    rw [pieces] at h
    split at h
    · obtain rfl | h := List.mem_cons.1 h
      · simp
      · exact ih h
    · rename_i hb
      split at h
      · rename_i hnil
        exact absurd hnil (pieces_ne_nil rest)
      · rename_i first more hpieces
        rw [hpieces] at ih
        obtain rfl | h := List.mem_cons.1 h
        · rw [List.mem_cons, not_or]
          exact ⟨Ne.symm hb, ih List.mem_cons_self⟩
        · exact ih (List.mem_cons_of_mem _ h)

@[simp] theorem join_singleton (piece : Bytes) : join [piece] = piece := by
  simp [join, List.intercalate]

theorem join_cons (piece : Bytes) {more : List Bytes} (hne : more ≠ []) :
    join (piece :: more) = piece ++ Bytes.slash :: join more := by
  cases more with
  | nil => exact absurd rfl hne
  | cons next more => simp [join, List.intercalate, List.intersperse]

theorem join_append {a b : List Bytes} (ha : a ≠ []) (hb : b ≠ []) :
    join (a ++ b) = join a ++ Bytes.slash :: join b := by
  induction a with
  | nil => exact absurd rfl ha
  | cons piece a ih =>
    by_cases hnil : a = []
    · subst a
      rw [List.singleton_append, join_cons piece hb, join_singleton]
    · rw [List.cons_append, join_cons piece (by simp [hnil]), ih hnil, join_cons piece hnil,
        List.append_assoc, List.cons_append]

theorem join_pieces (path : Path) : join path.pieces = path := by
  induction path with
  | nil => simp [pieces]
  | cons b rest ih =>
    rw [pieces]
    split
    · rename_i hb
      rw [join_cons _ (pieces_ne_nil rest), ih, hb, List.nil_append]
    · split
      · rename_i hnil
        exact absurd hnil (pieces_ne_nil rest)
      · rename_i first more hpieces
        rw [hpieces] at ih
        by_cases hmore : more = []
        · subst more
          rw [join_singleton] at ih ⊢
          rw [ih]
        · rw [join_cons _ hmore] at ih ⊢
          rw [List.cons_append, ih]

theorem pieces_append {piece : Bytes} (h : Bytes.slash ∉ piece) (rest : Path) :
    pieces (piece ++ Bytes.slash :: rest) = piece :: pieces rest := by
  induction piece with
  | nil => simp [pieces]
  | cons b piece ih =>
    rw [List.mem_cons, not_or] at h
    rw [List.cons_append, pieces, if_neg (Ne.symm h.1), ih h.2]

theorem pieces_self {piece : Bytes} (h : Bytes.slash ∉ piece) : pieces piece = [piece] := by
  induction piece with
  | nil => rfl
  | cons b piece ih =>
    rw [List.mem_cons, not_or] at h
    rw [pieces, if_neg (Ne.symm h.1), ih h.2]

theorem pieces_join {parts : List Bytes} (hne : parts ≠ [])
    (h : ∀ piece ∈ parts, Bytes.slash ∉ piece) : pieces (join parts) = parts := by
  induction parts with
  | nil => exact absurd rfl hne
  | cons piece parts ih =>
    rw [List.forall_mem_cons] at h
    by_cases hnil : parts = []
    · subst parts
      rw [join_singleton, pieces_self h.1]
    · rw [join_cons piece hnil, pieces_append h.1, ih hnil h.2]

/-- The path with this first piece and these further pieces, the last one first. -/
def spelled (first : Bytes) (kept : List Bytes) : Path :=
  if first = [] ∧ kept = [] then [Bytes.slash] else join (first :: kept.reverse)

theorem exists_spelled_of_mem {first : Bytes} {above : List Bytes} {path : Path}
    (h : path ∈ ancestorsFrom first above) :
    ∃ kept, kept <:+ above.tail ∧ path = spelled first kept := by
  induction above using ancestorsFrom.induct with
  | case1 => simp [ancestorsFrom] at h
  | case2 piece above kept ih =>
    have hkept : kept <:+ above := List.dropWhile_suffix isIdle
    rw [ancestorsFrom] at h
    obtain rfl | h := List.mem_cons.1 h
    · exact ⟨kept, hkept, rfl⟩
    · obtain ⟨further, hfurther, rfl⟩ := ih h
      exact ⟨further, (hfurther.trans (List.tail_suffix kept)).trans hkept, rfl⟩

/-- A path above another one: spelled as a part of it from the front, with fewer names. -/
structure IsAbove (above path : Path) : Prop where
  ne_nil : above ≠ []
  spelling : above <+: path
  names : above.names <+: path.names.dropLast
  root : above.names = [] → path.isAbsolute = true

theorem IsAbove.isAbsolute {above path : Path} (h : IsAbove above path) :
    above.isAbsolute = path.isAbsolute := by
  obtain ⟨more, hmore⟩ := h.spelling
  subst hmore
  cases above with
  | nil => exact absurd rfl h.ne_nil
  | cons b above => rfl

section Pieces

variable {path : Path} {first : Bytes} {kept more : List Bytes}

theorem names_spelled (h : ∀ piece ∈ first :: kept.reverse, Bytes.slash ∉ piece) :
    (spelled first kept).names = (first :: kept.reverse).filter (· ≠ []) := by
  unfold spelled
  split
  · rename_i hroot
    rw [hroot.1, hroot.2]
    rfl
  · rw [names, pieces_join (List.cons_ne_nil _ _) h]

theorem spelled_ne_nil (first : Bytes) (kept : List Bytes) : spelled first kept ≠ [] := by
  unfold spelled
  split
  · exact List.cons_ne_nil _ _
  · rename_i hroot
    by_cases hkept : kept.reverse = []
    · rw [hkept, join_singleton]
      exact fun hfirst => hroot ⟨hfirst, List.reverse_eq_nil_iff.1 hkept⟩
    · rw [join_cons first hkept]
      simp

theorem spelled_prefix_of_pieces (h : path.pieces = first :: kept.reverse ++ more)
    (hmore : more ≠ []) : spelled first kept <+: path := by
  have hpath : path = join (first :: kept.reverse) ++ Bytes.slash :: join more := by
    rw [← join_append (List.cons_ne_nil _ _) hmore, ← h, join_pieces]
  unfold spelled
  split
  · rename_i hroot
    rw [hroot.1, hroot.2, List.reverse_nil, join_singleton, List.nil_append] at hpath
    exact ⟨join more, hpath.symm⟩
  · exact ⟨_, hpath.symm⟩

theorem isAbsolute_of_pieces (h : path.pieces = [] :: more) (hmore : more ≠ []) :
    path.isAbsolute = true := by
  rw [← join_pieces path, h, join_cons [] hmore]
  simp [isAbsolute]

theorem isAbove_of_pieces (h : path.pieces = first :: kept.reverse ++ more) {name : Bytes}
    (hname : name ∈ more) (hne : name ≠ []) : IsAbove (spelled first kept) path := by
  have hmore : more ≠ [] := List.ne_nil_of_mem hname
  have hslash : ∀ piece ∈ first :: kept.reverse, Bytes.slash ∉ piece := fun piece hpiece =>
    slash_not_mem_pieces (h ▸ List.mem_append_left more hpiece)
  refine ⟨spelled_ne_nil first kept, spelled_prefix_of_pieces h hmore, ?_, fun hroot => ?_⟩
  · have hfilter : more.filter (· ≠ []) ≠ [] :=
      List.ne_nil_of_mem (List.mem_filter.2 ⟨hname, decide_eq_true hne⟩)
    rw [names_spelled hslash, names, h, List.filter_append,
      List.dropLast_append_of_ne_nil hfilter]
    exact List.prefix_append _ _
  · rw [names_spelled hslash, List.filter_eq_nil_iff] at hroot
    have hfirst : first = [] := by simpa using hroot first List.mem_cons_self
    subst hfirst
    exact isAbsolute_of_pieces h (by simp [hmore])

end Pieces

/-- Behind the pieces that a path above keeps, a name follows. -/
theorem exists_name_of_suffix {rest kept : List Bytes}
    (hne : rest.reverse.dropWhile isIdle ≠ [])
    (h : kept <:+ (rest.reverse.dropWhile isIdle).tail) :
    ∃ more, rest = kept.reverse ++ more ∧ ∃ name ∈ more, name ≠ [] := by
  have hsplit : rest.reverse.takeWhile isIdle ++ rest.reverse.dropWhile isIdle = rest.reverse :=
    List.takeWhile_append_dropWhile
  have hidle := List.head_dropWhile_not isIdle (l := rest.reverse) hne
  cases hdrop : rest.reverse.dropWhile isIdle with
  | nil => exact absurd hdrop hne
  | cons name further =>
    simp only [hdrop, List.head_cons, List.tail_cons] at hidle h hsplit
    obtain ⟨between, rfl⟩ := h
    have hrest := congrArg List.reverse hsplit
    rw [List.reverse_reverse, List.reverse_append, List.reverse_cons, List.reverse_append,
      List.append_assoc, List.append_assoc] at hrest
    refine ⟨_, hrest.symm, name, by simp, ?_⟩
    rintro rfl
    cases hidle

theorem isAbove_of_mem_ancestors {above path : Path} (h : above ∈ path.ancestors) :
    IsAbove above path := by
  unfold ancestors at h
  cases hpieces : path.pieces with
  | nil => simp [hpieces] at h
  | cons first rest =>
    simp only [hpieces] at h
    obtain ⟨kept, hkept, rfl⟩ := exists_spelled_of_mem h
    have hne : rest.reverse.dropWhile isIdle ≠ [] := by
      intro hnil
      simp [hnil, ancestorsFrom] at h
    obtain ⟨more, rfl, name, hname, hnil⟩ := exists_name_of_suffix hne hkept
    exact isAbove_of_pieces hpieces hname hnil

end LoginNames.Path
