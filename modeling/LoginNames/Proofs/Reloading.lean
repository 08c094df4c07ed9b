import LoginNames.Proofs.Expansions

/-! # Loading what was generated

What a generator writes can be loaded again as a name list. As long as the template holds no newline
it gives the expansions of all pairs back, since no loaded name holds one either and an expansion
adds none. -/

set_option autoImplicit false

namespace LoginNames

section Generate

variable {maxLines : Option Nat} {firsts lasts : NameList} {t : Template} {sink : Sink}
  {report : Report}

theorem checkLimit_of_generate (h : (generate maxLines firsts lasts t sink).result = .ok report) :
    ∀ limit ∈ maxLines, firsts.length * lasts.length ≤ limit := by
  apply checkLimit_eq_ok.1
  unfold generate at h
  cases hlimit : checkLimit maxLines firsts lasts with
  | error failure =>
    rw [hlimit] at h
    cases h
  | ok => rfl

/-- Whatever sink it is, a generator that succeeds has written all expansions to it. -/
theorem accepted_of_generate (h : (generate maxLines firsts lasts t sink).result = .ok report) :
    (generate maxLines firsts lasts t sink).sink.accepted.toList =
      sink.accepted.toList ++ (t.expansions firsts lasts).written := by
  have hlimit := checkLimit_of_generate h
  rw [generate_eq_writeAll t hlimit] at h
  cases hwrite : (Writer.writeAll (t.output firsts lasts)).run sink with
  | error cause left =>
    rw [hwrite] at h
    cases h
  | ok _ left =>
    rw [hwrite] at h
    obtain rfl := Sink.writeAll_eq_ok hwrite
    have hflush : sink.flushFailure = none := by
      cases hcause : sink.flushFailure with
      | none => rfl
      | some cause => simp [Sink.push, hcause] at h
    rw [generate_of_writeAll t hlimit hwrite hflush, ← t.output_eq_written]
    simp [Sink.flushed, Sink.push]

end Generate

namespace Template

theorem expansion_firstname (first last : Bytes) :
    (ofString "\x7bfirstname\x7d").expansion first last = first := by
  have hmatch : Placeholder.match? (ofString "\x7bfirstname\x7d").source =
      some ⟨⟨.firstname, none⟩, 11⟩ := by decide
  have hend : (ofString "\x7bfirstname\x7d").source.drop 11 = [] := by decide
  rw [expansion_eq_scan, Scanner.scan_of_match first last hmatch, hend, Scanner.scan_nil,
    List.append_nil]
  rfl

theorem expansions_firstname (firsts lasts : NameList) :
    (ofString "\x7bfirstname\x7d").expansions firsts lasts =
      firsts.flatMap fun first => List.replicate lasts.length first := by
  unfold expansions
  apply congrArg (List.flatMap · firsts)
  funext first
  rw [← List.map_const']
  apply List.map_congr_left
  intro last _
  exact expansion_firstname first last

end Template

/-- Lists that were loaded in any way, and a template without a newline: what a generator has
    written of them loads, in whatever chunks it is handed out, as the expansions of all pairs in
    their order, with nothing to tell of as long as they fit. With the firstname as the template each
    firstname comes once for every lastname. -/
theorem load_generated {firstOptions lastOptions options : LoadOptions}
    {firstSource lastSource source : Source} {firsts lasts : NameList} {t : Template}
    {maxLines : Option Nat} {sink : Sink} {report : Report}
    (hfirsts : (load firstOptions firstSource).result = .ok firsts)
    (hlasts : (load lastOptions lastSource).result = .ok lasts)
    (ht : Bytes.newline ∉ t.source) (hempty : sink.accepted = #[])
    (hgenerate : (generate maxLines firsts lasts t sink).result = .ok report)
    (hsource : source.Delivers (generate maxLines firsts lasts t sink).sink.accepted.toList)
    (hstrip : options.stripCarriageReturn = false)
    (hfits : ∀ first ∈ firsts, ∀ last ∈ lasts,
      (t.expansion first last).length ≤ options.maxLength) :
    ∃ names, load options source = ⟨.ok names, []⟩ ∧
      names.length = firsts.length * lasts.length ∧
      (∀ (i j : Nat) (hi : i < firsts.length) (hj : j < lasts.length),
        names[i * lasts.length + j]? = some (t.expansion firsts[i] lasts[j])) ∧
      (t = Template.ofString "\x7bfirstname\x7d" →
        names = firsts.flatMap (fun first => List.replicate lasts.length first) ∧
          (lasts.length = 1 → names = firsts)) := by
  have hlines := Template.expansions_oneLine ht (load_oneLine hfirsts) (load_oneLine hlasts)
  have hmax : ∀ name ∈ t.expansions firsts lasts, name.length ≤ options.maxLength := by
    intro name hname
    obtain ⟨first, hfirst, last, hlast, rfl⟩ := Template.mem_expansions.1 hname
    exact hfits first hfirst last hlast
  rw [accepted_of_generate hgenerate, hempty, List.nil_append] at hsource
  refine ⟨t.expansions firsts lasts, load_written hsource hlines hstrip hmax,
    t.expansions_length firsts lasts, fun i j hi hj => t.expansions_getElem? hi hj, ?_⟩
  rintro rfl
  refine ⟨Template.expansions_firstname firsts lasts, ?_⟩
  intro hone
  rw [Template.expansions_firstname, hone]
  simp

/-- Firstnames that were stripped and cut, one of them empty, and a group of the template that nothing
    closes; and the firstnames alone, which come back as they are. -/
theorem load_generated_of_cut_names :
    let cut : LoadOptions := { maxLength := 5, stripCarriageReturn := true }
    let firstSource : Source :=
      [.chunk (Bytes.ofString "ann\r"), .interrupted, .chunk (Bytes.ofString "\n\r\nalexandra")]
    let lastSource : Source := [.chunk (Bytes.ofString "weir"), .chunk []]
    let firsts : NameList := [Bytes.ofString "ann", [], Bytes.ofString "alexa"]
    let lasts : NameList := [Bytes.ofString "weir"]
    let t := Template.ofString "\x7blastname\x7d(1).\x7bfirstname\x7d(2 x"
    let plain := Template.ofString "\x7bfirstname\x7d"
    let sink : Sink := { limit := some 13, maxWrite := some 2 }
    let options : LoadOptions := { maxLength := 5, overlong := .reject }
    (load cut firstSource).result = .ok firsts ∧ (load {} lastSource).result = .ok lasts ∧
      (generate (some 3) firsts lasts t sink).result = .ok ⟨3, 1, 3, 13⟩ ∧
      (∃ names,
        load options (.ofBuffer 4 (generate (some 3) firsts lasts t sink).sink.accepted.toList) =
          ⟨.ok names, []⟩ ∧ names.length = 3 ∧
        names[2]? = some (t.expansion (Bytes.ofString "alexa") (Bytes.ofString "weir"))) ∧
      t.expansion (Bytes.ofString "alexa") (Bytes.ofString "weir") = Bytes.ofString "w.al" ∧
      (generate none firsts lasts plain ({} : Sink)).result = .ok ⟨3, 1, 3, 11⟩ ∧
      load options
          (.ofBuffer 4 (generate none firsts lasts plain ({} : Sink)).sink.accepted.toList) =
        ⟨.ok firsts, []⟩ := by
  intro cut firstSource lastSource firsts lasts t plain sink options
  have hfirsts : (load cut firstSource).result = .ok firsts := by
    rw [load_eq_stream]
    decide
  have hlasts : (load {} lastSource).result = .ok lasts := by
    rw [load_eq_stream]
    decide
  have houtput : t.output firsts lasts = Bytes.ofString "w.an\nw.\nw.al\n" := by cbv
  have hplainOutput : plain.output firsts lasts = Bytes.ofString "ann\n\nalexa\n" := by cbv
  have hexpansion : t.expansion (Bytes.ofString "alexa") (Bytes.ofString "weir") =
      Bytes.ofString "w.al" := by
    rw [Template.expansion_eq_scan]
    cbv
  have hroom : sink.HasRoom (t.output firsts lasts).length := by
    rw [houtput]
    rintro limit ⟨⟩
    decide
  have hgenerate : (generate (some 3) firsts lasts t sink).result = .ok ⟨3, 1, 3, 13⟩ := by
    rw [generate_of_writeAll t (by decide) (Sink.writeAll_of_hasRoom (by decide) hroom) rfl,
      Template.report, houtput]
    rfl
  have hplain : (generate none firsts lasts plain ({} : Sink)).result = .ok ⟨3, 1, 3, 11⟩ := by
    rw [generate_of_limit plain (by decide) ⟨rfl, by simp⟩ rfl, Template.report, hplainOutput]
    rfl
  have hstrip : options.stripCarriageReturn = false := rfl
  have hfits : ∀ first ∈ firsts, ∀ last ∈ lasts, (t.expansion first last).length ≤ 5 := by
    simp only [Template.expansion_eq_scan]
    decide +kernel
  have hplainFits : ∀ first ∈ firsts, ∀ last ∈ lasts, (plain.expansion first last).length ≤ 5 := by
    simp only [Template.expansion_firstname, plain]
    decide
  obtain ⟨names, hload, hlength, hnames, -⟩ := load_generated hfirsts hlasts (by decide) rfl
    hgenerate (Source.ofBuffer_delivers 4 _) hstrip hfits
  obtain ⟨_, hback, -, -, hsame⟩ := load_generated hfirsts hlasts (by decide) rfl hplain
    (Source.ofBuffer_delivers 4 _) hstrip hplainFits
  refine ⟨hfirsts, hlasts, hgenerate, ⟨names, hload, hlength, hnames 2 0 (by decide) (by decide)⟩,
    hexpansion, hplain, ?_⟩
  rw [hback, (hsame rfl).2 rfl]

end LoginNames
