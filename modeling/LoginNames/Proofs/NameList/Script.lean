import LoginNames.Proofs.NameList.Overlong

/-! # Reading from any script

A script of reads may hold interruptions, failures and empty chunks in any order. What goes on from
some reads is told by whether a line is open after them, so each read has one meaning: an
interruption none, an empty chunk that of a newline or of the end, and a failure that of a cut. -/

set_option autoImplicit false

namespace LoginNames

/-- The data before other data of a stream. -/
def Stream.after (data : Bytes) (stream : Stream) : Stream := ⟨data ++ stream.data, stream.failure⟩

namespace Source

/-- From the first flag on, the reads end nothing and fail nowhere, and they lead to the second
    flag. A flag says whether a line is open: whether there is a byte since the last newline. -/
inductive Leads : Bool → Source → Bool → Prop
  | nil (isOpen : Bool) : Leads isOpen [] isOpen
  | interrupted {before after : Bool} {rest : Source} (tail : Leads before rest after) :
      Leads before (.interrupted :: rest) after
  | chunk {before after : Bool} {bytes : Bytes} {rest : Source} (hne : bytes ≠ [])
      (tail : Leads (bytes.getLast? ≠ some Bytes.newline) rest after) :
      Leads before (.chunk bytes :: rest) after
  | closed {after : Bool} {rest : Source} (tail : Leads false rest after) :
      Leads true (.chunk [] :: rest) after

theorem Leads.stream_append {before after : Bool} {reads : Source}
    (h : Leads before reads after) (rest : Source) :
    (reads ++ rest).stream before = (rest.stream after).after (reads.stream before).data := by
  induction h with
  | nil isOpen => rfl
  | interrupted _ ih => exact ih
  | chunk hne _ ih =>
    simp only [List.cons_append, stream, hne, ↓reduceIte, ih, Stream.after, List.append_assoc]
  | closed _ ih => simp only [List.cons_append, stream, ↓reduceIte, ih, Stream.after]

theorem stream_interrupted (isOpen : Bool) (before after : Source) :
    (before ++ .interrupted :: after).stream isOpen = (before ++ after).stream isOpen := by
  induction before generalizing isOpen with
  | nil => rfl
  | cons event before ih =>
    cases event with
    | interrupted => exact ih isOpen
    | failure cause _ => rfl
    | chunk bytes => simp only [List.cons_append, stream, ih]

/-- With a line open, an empty chunk is a newline. -/
theorem stream_newline (after : Source) :
    Source.stream true (.chunk [] :: after) =
      Source.stream true (.chunk [Bytes.newline] :: after) := by
  simp [stream]

theorem stream_end (after : Source) : Source.stream false (.chunk [] :: after) = ⟨[], none⟩ := rfl

end Source

/-- The load of a source that fails is that of the lines before the failure. -/
theorem load_of_failure {options : LoadOptions} {source : Source} {cause : IoError}
    (h : (source.stream false).failure = some cause) :
    load options source =
      (options.judge (((Lines.terminated (source.stream false).data).map
        options.stripped).zipIdx 1)).cutOff (some cause) := by
  rw [load_eq_stream, Stream.load, Stream.lines, h]

theorem load_of_end {options : LoadOptions} {source : Source}
    (h : (source.stream false).failure = none) :
    load options source = load options (.ofBytes (source.stream false).data) := by
  rw [load_ofBytes, load_eq_stream, Stream.load, Stream.lines, h]
  rfl

/-- An interruption says nothing, an empty chunk is a newline where a line is open and the end where
    none is, and a failure is the last that is read. So a load of any script is the load of its
    data, as long as no failure cuts that off; a failure leaves no list, and only a line that is
    too long and was ended before it can stop the load in its place. -/
theorem load_script (options : LoadOptions) :
    (∀ before after : Source,
      load options (before ++ .interrupted :: after) = load options (before ++ after) ∧
      (Source.Leads false before true →
        load options (before ++ .chunk [] :: after) =
          load options (before ++ .chunk [Bytes.newline] :: after)) ∧
      (Source.Leads false before false →
        load options (before ++ .chunk [] :: after) = load options before) ∧
      ∀ cause lasting isOpen, Source.Leads false before isOpen →
        load options (before ++ .failure cause lasting :: after) =
          load options (before ++ [.failure cause lasting])) ∧
    ∀ source : Source,
      let data := (source.stream false).data
      let ended := Lines.terminated data
      ((source.stream false).failure = none →
        load options source = load options (.ofBytes data)) ∧
      ∀ cause, (source.stream false).failure = some cause →
        (options.overlong = .reject → ∀ line number,
          (options.longLines ended).head? = some (line, number) →
          load options source = ⟨.error (.nameTooLong number line.length options.maxLength), []⟩) ∧
        (options.overlong = .reject → options.longLines ended = [] →
          load options source = ⟨.error (.io cause), []⟩) ∧
        (options.overlong = .truncate →
          load options source = ⟨.error (.io cause), options.cutEntries ended⟩) := by
  refine ⟨fun before after => ⟨?_, fun hopen => ?_, fun hclosed => ?_,
      fun cause lasting isOpen hreads => ?_⟩,
    fun source => ⟨load_of_end, fun cause hcause => ⟨?_, ?_, ?_⟩⟩⟩
  · rw [load_eq_stream, load_eq_stream, Source.stream_interrupted]
  · rw [load_eq_stream, load_eq_stream, hopen.stream_append, hopen.stream_append,
      Source.stream_newline]
  · -- Reads that lead to no open line give the same data whether or not more is to come.
    have hbefore := hclosed.stream_append []
    rw [List.append_nil] at hbefore
    rw [load_eq_stream, load_eq_stream, hclosed.stream_append, Source.stream_end]
    exact congrArg (Stream.load options 1) hbefore.symm
  · rw [load_eq_stream, load_eq_stream, hreads.stream_append, hreads.stream_append]
    rfl
  · intro hoverlong line number hlong
    rw [load_of_failure hcause, LoadOptions.judge_reject_long hoverlong hlong]
    rfl
  · intro hoverlong hlong
    rw [load_of_failure hcause, LoadOptions.judge_reject_fits hoverlong hlong]
    rfl
  · intro hoverlong
    rw [load_of_failure hcause, LoadOptions.judge_truncate hoverlong]
    rfl

/-- An empty chunk ends the first line, the second one is too long, and a failure cuts the third one
    off: where such lines are cut the failure is what is left, and where they are not the failure is
    never met. A second empty chunk in a row hides the failure behind it. -/
theorem load_script_cut_off :
    let strict : LoadOptions := { maxLength := 3, overlong := .reject }
    let lenient : LoadOptions := { maxLength := 3 }
    let cause := IoError.custom "disk went away"
    let source : Source := [.chunk [97, 98], .interrupted, .chunk [],
      .chunk [97, 98, 99, 100, 10, 101], .failure cause (by decide), .chunk [10]]
    let hidden : Source := [.chunk [97, 98], .chunk [], .chunk [], .failure cause (by decide)]
    (source.stream false).failure = some cause ∧
      load strict source = ⟨.error (.nameTooLong 2 4 3), []⟩ ∧
      load lenient source =
        ⟨.error (.io cause), [⟨.debug, "Line 2 is 4 bytes, truncating to 3"⟩]⟩ ∧
      Source.Leads false [.chunk [97, 98], .chunk []] false ∧
      load strict hidden = ⟨.ok [[97, 98]], []⟩ := by
  intro strict lenient cause source hidden
  have hcause : (source.stream false).failure = some cause := by decide
  have hleads : Source.Leads false [.chunk [97, 98], .chunk []] false :=
    .chunk (by decide) (.closed (.nil false))
  obtain ⟨hlong, -, -⟩ := ((load_script strict).2 source).2 cause hcause
  obtain ⟨-, -, hcut⟩ := ((load_script lenient).2 source).2 cause hcause
  obtain ⟨-, -, hend, -⟩ := (load_script strict).1 [.chunk [97, 98], .chunk []]
    [.failure cause (by decide)]
  obtain ⟨hplain, -⟩ := (load_script strict).2 [.chunk [97, 98], .chunk []]
  refine ⟨hcause, hlong rfl [97, 98, 99, 100] 2 (by decide), (hcut rfl).trans (by cbv), hleads,
    (hend hleads).trans ((hplain rfl).trans ?_)⟩
  cbv

end LoginNames
