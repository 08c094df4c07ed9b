import LoginNames.Proofs.Expansions

/-! # Work in parts

Who is short of memory is told to split the name lists and to work on the parts. What comes of the
parts is what comes of the whole: a load of data goes on, behind a newline, as a load of the rest
with other line numbers, and the pairs of two halves of a list are the pairs of the list. -/

set_option autoImplicit false

namespace LoginNames

/-- A load that goes on with another one where it has not failed. -/
def Loaded.followedBy (first second : Loaded) : Loaded :=
  match first.result with
  | .ok names => second.after names first.log
  | .error failure => ⟨.error failure, first.log⟩

theorem Loaded.after_followedBy (names : NameList) (log : Log) (first second : Loaded) :
    (first.after names log).followedBy second = (first.followedBy second).after names log := by
  obtain ⟨result, entries⟩ := first
  cases result with
  | error failure => rfl
  | ok more => exact (Loaded.after_after names more log entries second).symm

theorem Loaded.nil_followedBy (second : Loaded) :
    Loaded.followedBy ⟨.ok [], []⟩ second = second := by
  obtain ⟨result, log⟩ := second
  cases result <;> rfl

theorem Loaded.after_eq_ok {names whole : NameList} {log : Log} {loaded : Loaded} :
    (loaded.after names log).result = .ok whole ↔
      ∃ more, loaded.result = .ok more ∧ whole = names ++ more := by
  unfold after
  cases loaded.result <;> simp [Except.map, eq_comm]

/-- The failure as it reads behind some more lines. -/
def Failure.behind (lines : Nat) : Failure → Failure
  | .nameTooLong line length max => .nameTooLong (lines + line) length max
  | failure => failure

namespace LoadOptions

variable (options : LoadOptions)

/-- A line gives a name, perhaps cut, or it stops the load; its number is only told. -/
theorem judge_cons_cases (line : Bytes) :
    (∃ name, ∀ number, ∃ entries, ∀ lines,
      options.judge ((line, number) :: lines) = (options.judge lines).after [name] entries) ∨
    ∀ number lines, options.judge ((line, number) :: lines) =
      ⟨.error (.nameTooLong number line.length options.maxLength), []⟩ := by
  by_cases h : line.length ≤ options.maxLength
  · exact .inl ⟨line, fun number => ⟨[], options.judge_cons_fits h number⟩⟩
  · have hlong : options.maxLength < line.length := by omega
    cases hoverlong : options.overlong with
    | truncate =>
      exact .inl ⟨_, fun number => ⟨_, options.judge_cons_truncate hoverlong hlong number⟩⟩
    | reject => exact .inr (options.judge_cons_reject hoverlong hlong)

theorem judge_append (first second : List (Bytes × Nat)) :
    options.judge (first ++ second) = (options.judge first).followedBy (options.judge second) := by
  induction first with
  | nil =>
    rw [judge_nil, List.nil_append, Loaded.nil_followedBy]
  | cons numbered first ih =>
    obtain ⟨line, number⟩ := numbered
    obtain ⟨name, hgoes⟩ | hstops := options.judge_cons_cases line
    · obtain ⟨entries, hgoes⟩ := hgoes number
      rw [List.cons_append, hgoes, hgoes, ih, Loaded.after_followedBy]
    · rw [List.cons_append, hstops, hstops]
      rfl

theorem judge_length {lines : List (Bytes × Nat)} {names : NameList}
    (h : (options.judge lines).result = .ok names) : names.length = lines.length := by
  induction lines generalizing names with
  | nil =>
    rw [judge_nil] at h
    cases h
    rfl
  | cons numbered lines ih =>
    obtain ⟨line, number⟩ := numbered
    obtain ⟨name, hgoes⟩ | hstops := options.judge_cons_cases line
    · obtain ⟨entries, hgoes⟩ := hgoes number
      rw [hgoes] at h
      obtain ⟨more, hmore, rfl⟩ := Loaded.after_eq_ok.1 h
      simp only [List.length_append, List.length_cons, List.length_nil, ih hmore]
      omega
    · rw [hstops] at h
      cases h

/-- Behind other lines the same names come of the lines, and the same failure but for its line. -/
theorem judge_behind (before number : Nat) (lines : List Bytes) :
    (options.judge (lines.zipIdx (before + number))).result =
      (options.judge (lines.zipIdx number)).result.mapError (Failure.behind before) := by
  induction lines generalizing number with
  | nil =>
    rw [List.zipIdx_nil, List.zipIdx_nil, judge_nil]
    rfl
  | cons line lines ih =>
    rw [List.zipIdx_cons, List.zipIdx_cons, Nat.add_assoc]
    obtain ⟨name, hgoes⟩ | hstops := options.judge_cons_cases line
    · obtain ⟨entries, hthere⟩ := hgoes (before + number)
      obtain ⟨_, hhere⟩ := hgoes number
      rw [hthere, hhere]
      simp only [Loaded.after, ih (number + 1)]
      cases (options.judge (lines.zipIdx (number + 1))).result <;> rfl
    · rw [hstops, hstops]
      rfl

end LoadOptions

section Load

variable {options : LoadOptions} {first second : Bytes}

theorem Lines.load_append (h : first = [] ∨ first.getLast? = some Bytes.newline) :
    Lines.load options (first ++ second) = (Lines.load options first).followedBy
      (options.judge (((Lines.ofData second).map options.stripped).zipIdx
        ((Lines.ofData first).length + 1))) := by
  rw [Lines.load, Lines.ofData_append h, List.map_append, List.zipIdx_append,
    LoadOptions.judge_append, List.length_map, Nat.add_comm 1]
  rfl

theorem Lines.load_length {data : Bytes} {names : NameList}
    (h : (Lines.load options data).result = .ok names) :
    names.length = (Lines.ofData data).length := by
  rw [LoadOptions.judge_length options h, List.length_zipIdx, List.length_map]

/-- What a load of two parts comes to, once the first of them has loaded. -/
theorem Lines.load_append_of_ok (h : first = [] ∨ first.getLast? = some Bytes.newline)
    {names : NameList} (hfirst : (Lines.load options first).result = .ok names) :
    (Lines.load options (first ++ second)).result =
      ((Lines.load options second).result.mapError (.behind names.length)).map (names ++ ·) := by
  rw [Lines.load_append h, Loaded.followedBy, hfirst, ← Lines.load_length hfirst]
  simp only [Loaded.after, LoadOptions.judge_behind]
  rfl

theorem Lines.load_append_of_error (h : first = [] ∨ first.getLast? = some Bytes.newline)
    {failure : Failure} (hfirst : (Lines.load options first).result = .error failure) :
    (Lines.load options (first ++ second)).result = .error failure := by
  rw [Lines.load_append h, Loaded.followedBy, hfirst]

end Load

namespace Template

variable (t : Template) (firsts more lasts : NameList)

theorem expansions_append :
    t.expansions (firsts ++ more) lasts = t.expansions firsts lasts ++ t.expansions more lasts :=
  List.flatMap_append

/-- A firstname is paired with the lastnames of both halves before the next one comes, so the
    halves are mixed. -/
theorem expansions_append_perm :
    (t.expansions firsts (lasts ++ more)).Perm
      (t.expansions firsts lasts ++ t.expansions firsts more) := by
  have hrow : t.expansions firsts (lasts ++ more) = firsts.flatMap fun first =>
      lasts.map (t.expansion first) ++ more.map (t.expansion first) := by
    simp only [expansions, List.map_append]
  rw [hrow]
  exact (List.flatMap_append_perm firsts _ _).symm

end Template

theorem NameList.written_length_of_perm {names more : NameList} (h : names.Perm more) :
    names.written.length = more.written.length :=
  (h.flatMap_right _).length_eq

/-- Without a limit on lines, a sink that takes everything gets the expansions of all pairs. -/
theorem generate_of_unlimited (t : Template) (firsts lasts : NameList) {sink : Sink}
    (hsink : sink.Unlimited) (hflush : sink.flushFailure = none) (hempty : sink.accepted = #[]) :
    (generate none firsts lasts t sink).result = .ok ⟨firsts.length, lasts.length,
        firsts.length * lasts.length, (t.expansions firsts lasts).written.length⟩ ∧
      (generate none firsts lasts t sink).sink.accepted.toList =
        (t.expansions firsts lasts).written := by
  rw [generate_of_limit t (by simp) hsink hflush]
  simp [Template.report, Sink.push, hempty, t.output_eq_written]

/-- Data that is cut behind a newline loads in two parts as it does whole, but for the numbers of
    the lines in the second part. Firstnames in two parts give the output in two parts; lastnames
    in two parts give the same expansions in another order. -/
theorem parts_eq_whole :
    (∀ (options : LoadOptions) (first second : Bytes),
      first = [] ∨ first.getLast? = some Bytes.newline →
      ∀ firstSource secondSource wholeSource : Source, firstSource.Delivers first →
      secondSource.Delivers second → wholeSource.Delivers (first ++ second) →
      (∀ names more, (load options firstSource).result = .ok names →
        (load options secondSource).result = .ok more →
        (load options wholeSource).result = .ok (names ++ more)) ∧
      (∀ failure, (load options firstSource).result = .error failure →
        (load options wholeSource).result = .error failure) ∧
      ∀ names line length max, (load options firstSource).result = .ok names →
        (load options secondSource).result = .error (.nameTooLong line length max) →
        (load options wholeSource).result =
          .error (.nameTooLong (names.length + line) length max)) ∧
    ∀ (t : Template) (sink : Sink), sink.Unlimited → sink.flushFailure = none →
      sink.accepted = #[] →
      let work (firsts lasts : NameList) := generate none firsts lasts t sink
      (∀ firsts more lasts, ∃ a b, (work firsts lasts).result = .ok a ∧
        (work more lasts).result = .ok b ∧
        (work (firsts ++ more) lasts).result = .ok ⟨a.firstnames + b.firstnames, a.lastnames,
          a.lines + b.lines, a.bytes + b.bytes⟩ ∧
        (work (firsts ++ more) lasts).sink.accepted =
          (work firsts lasts).sink.accepted ++ (work more lasts).sink.accepted) ∧
      (∀ firsts lasts, (work firsts lasts).sink.accepted.toList =
        (t.expansions firsts lasts).written) ∧
      ∀ firsts lasts more, (t.expansions firsts (lasts ++ more)).Perm
          (t.expansions firsts lasts ++ t.expansions firsts more) ∧
        ∃ a b, (work firsts lasts).result = .ok a ∧ (work firsts more).result = .ok b ∧
          (work firsts (lasts ++ more)).result = .ok ⟨a.firstnames, a.lastnames + b.lastnames,
            a.lines + b.lines, a.bytes + b.bytes⟩ := by
  refine ⟨?_, ?_⟩
  · intro options first second hcut firstSource secondSource wholeSource hfirst hsecond hwhole
    rw [load_of_delivers hfirst, load_of_delivers hsecond, load_of_delivers hwhole]
    refine ⟨?_, ?_, ?_⟩
    · intro names more hnames hmore
      rw [Lines.load_append_of_ok hcut hnames, hmore]
      rfl
    · intro failure h
      exact Lines.load_append_of_error hcut h
    · intro names line length max hnames h
      rw [Lines.load_append_of_ok hcut hnames, h]
      rfl
  · intro t sink hsink hflush hempty work
    have hwork (firsts lasts : NameList) :=
      generate_of_unlimited t firsts lasts hsink hflush hempty
    refine ⟨?_, ?_, ?_⟩
    · intro firsts more lasts
      refine ⟨_, _, (hwork firsts lasts).1, (hwork more lasts).1, ?_, ?_⟩
      · rw [(hwork (firsts ++ more) lasts).1]
        simp [t.expansions_append, NameList.written_append, Nat.add_mul]
      · apply Array.toList_inj.1
        rw [Array.toList_append, (hwork _ _).2, (hwork _ _).2, (hwork _ _).2,
          t.expansions_append, NameList.written_append]
    · exact fun firsts lasts => (hwork firsts lasts).2
    · intro firsts lasts more
      have hperm := t.expansions_append_perm firsts more lasts
      refine ⟨hperm, _, _, (hwork firsts lasts).1, (hwork firsts more).1, ?_⟩
      rw [(hwork firsts (lasts ++ more)).1, NameList.written_length_of_perm hperm]
      simp [NameList.written_append, Nat.mul_add]

/-- A line of the second part is too long; and the lastnames, the second of them empty, are cut in
    two for two firstnames. -/
theorem parts_eq_whole_of_overlong_line :
    let options : LoadOptions := { maxLength := 3, overlong := .reject }
    let first := Bytes.ofString "ann\n\n"
    let second := Bytes.ofString "bo\nalexandra"
    let wholeSource : Source := [.chunk (Bytes.ofString "ann"), .interrupted,
      .chunk (Bytes.ofString "\n\nbo\nalex"), .chunk (Bytes.ofString "andra")]
    let names : NameList := [Bytes.ofString "ann", []]
    let t := Template.ofString "\x7bfirstname\x7d(1)\x7blastname\x7d"
    let lasts : NameList := [Bytes.ofString "weir"]
    first.getLast? = some Bytes.newline ∧ wholeSource.Delivers (first ++ second) ∧
      (load options [.chunk first]).result = .ok names ∧
      (load options [.chunk second]).result = .error (.nameTooLong 2 9 3) ∧
      (load options wholeSource).result = .error (.nameTooLong 4 9 3) ∧
      (generate none names (lasts ++ [[]]) t ({} : Sink)).sink.accepted.toList =
        Bytes.ofString "aweir\na\nweir\n\n" ∧
      (t.expansions names (lasts ++ [[]])).Perm
        (t.expansions names lasts ++ t.expansions names [[]]) := by
  intro options first second wholeSource names t lasts
  have hcut : first.getLast? = some Bytes.newline := by decide
  have hwhole : wholeSource.Delivers (first ++ second) :=
    .chunk (by decide) (.interrupted (.chunk (by decide) (.chunk (by decide) .ended)))
  have hfirst : Source.Delivers [.chunk first] first := .chunk (by decide) .ended
  have hsecond : Source.Delivers [.chunk second] second := .chunk (by decide) .ended
  have hnames : (load options [.chunk first]).result = .ok names := by
    rw [load_of_delivers hfirst]
    decide
  have hlong : (load options [.chunk second]).result = .error (.nameTooLong 2 9 3) := by
    rw [load_of_delivers hsecond]
    decide
  obtain ⟨hload, hgenerate⟩ := parts_eq_whole
  obtain ⟨-, -, hbehind⟩ :=
    hload options first second (.inr hcut) _ _ _ hfirst hsecond hwhole
  obtain ⟨-, houtput, hlasts⟩ := hgenerate t {} ⟨rfl, by simp⟩ rfl rfl
  refine ⟨hcut, hwhole, hnames, hlong, hbehind names 2 9 3 hnames hlong, ?_,
    (hlasts names lasts [[]]).1⟩
  rw [houtput, ← t.output_eq_written]
  cbv

end LoginNames
