import LoginNames.Proofs.Attempts
import LoginNames.Proofs.CommandLine.Flags
import LoginNames.Proofs.CommandLine.Setting
import LoginNames.Proofs.Text.Separator

/-! # Command lines that spell settings

A setting is spelled as a name alone, as a name with its value attached, or as a name and its value
in two arguments. Arguments that spell settings are read as the settings, one after another: a
value that waits behind its name is set before anything else is. -/

set_option autoImplicit false

namespace LoginNames

namespace Switch

/-- The long name as an argument. -/
def argument (switch : Switch) : Bytes :=
  CommandLine.hyphen :: CommandLine.hyphen :: Bytes.ofString switch.name

/-- The arguments that are nothing but a name of the switch. -/
def arguments (switch : Switch) : List Bytes :=
  switch.argument :: switch.letter?.toList.map fun c => [CommandLine.hyphen, c.toUInt8]

theorem ofName?_name (switch : Switch) : ofName? (Bytes.ofString switch.name) = some switch := by
  cases switch with
  | value switch => cases switch <;> rfl
  | flag switch => cases switch <;> rfl
  | help => rfl

theorem ofLetter?_letter {switch : Switch} {c : Char} (h : switch.letter? = some c) :
    ofLetter? c.toUInt8 = some switch := by
  cases switch with
  | value switch => cases switch <;> cases h <;> rfl
  | flag switch =>
    cases switch <;> cases h
    rfl
  | help =>
    cases h
    rfl

theorem letter_ne_hyphen {switch : Switch} {c : Char} (h : switch.letter? = some c) :
    c.toUInt8 ≠ CommandLine.hyphen := by
  intro heq
  have hnone : ofLetter? CommandLine.hyphen = none := rfl
  rw [← heq, ofLetter?_letter h] at hnone
  cases hnone

theorem equals_not_mem_name (switch : Switch) :
    CommandLine.equals ∉ Bytes.ofString switch.name := by
  have hall : (Bytes.ofString switch.name).contains CommandLine.equals = false := by
    cases switch with
    | value switch => cases switch <;> rfl
    | flag switch => cases switch <;> rfl
    | help => rfl
  simpa using hall

theorem name_ne_nil (switch : Switch) : Bytes.ofString switch.name ≠ [] := by
  intro heq
  have hnone : ofName? [] = none := rfl
  rw [← heq, ofName?_name] at hnone
  cases hnone

/-- A name of a switch is two hyphens and its long name, or one hyphen and its letter. -/
theorem mem_arguments {switch : Switch} {name : Bytes} (h : name ∈ switch.arguments) :
    name = 45 :: 45 :: Bytes.ofString switch.name ∨
      ∃ c, switch.letter? = some c ∧ name = [45, c.toUInt8] := by
  rcases List.mem_cons.mp h with rfl | h
  · exact .inl rfl
  · obtain ⟨c, hc, rfl⟩ := List.mem_map.mp h
    exact .inr ⟨c, Option.mem_toList.mp hc, rfl⟩

theorem ne_end_of_mem_arguments {switch : Switch} {name : Bytes} (h : name ∈ switch.arguments) :
    name ≠ [45, 45] := by
  rintro rfl
  obtain heq | ⟨c, hc, heq⟩ := mem_arguments h
  · exact switch.name_ne_nil (List.cons.inj (List.cons.inj heq).2).2.symm
  · exact letter_ne_hyphen hc (List.cons.inj (List.cons.inj heq).2).1.symm

end Switch

/-- The arguments that a setting is spelled as. A value in an argument of its own must not look
    like a switch. -/
inductive Setting.Spells : Setting → List Bytes → Prop
  | attached (switch : ValueSwitch) (text : String) :
    Spells (.value switch text)
      [(Switch.value switch).argument ++ CommandLine.equals :: Bytes.ofString text]
  | separate {switch : ValueSwitch} {text : String} {name : Bytes}
    (hname : name ∈ (Switch.value switch).arguments)
    (hvalue : (Bytes.ofString text).head? ≠ some CommandLine.hyphen) :
    Spells (.value switch text) [name, Bytes.ofString text]
  | flag {switch : FlagSwitch} {name : Bytes} (hname : name ∈ (Switch.flag switch).arguments) :
    Spells (.flag switch) [name]

namespace CommandLine.Progress

/-- The long name ends before an equals sign, or at the end of the argument. -/
theorem split_name (switch : Switch) (value : Bytes) (hvalue : ∀ b ∈ value.head?, b = equals) :
    (Bytes.ofString switch.name ++ value).takeWhile (· != equals) = Bytes.ofString switch.name ∧
      (Bytes.ofString switch.name ++ value).dropWhile (· != equals) = value := by
  have hname := switch.equals_not_mem_name
  cases value with
  | nil =>
    rw [List.append_nil, takeWhile_bne hname, dropWhile_bne hname]
    exact ⟨rfl, rfl⟩
  | cons b rest =>
    obtain rfl := hvalue b rfl
    rw [takeWhile_bne_append hname, dropWhile_bne_append hname]
    exact ⟨rfl, rfl⟩

section Take

variable (p : Progress)

theorem takeLong_name (switch : Switch) :
    p.takeLong (Bytes.ofString switch.name) =
      match switch with
      | .value switch => p.await switch
      | .flag switch => p.takeFlag switch
      | .help => p.askHelp true := by
  obtain ⟨hname, hrest⟩ := split_name switch [] (by simp)
  rw [List.append_nil] at hname hrest
  simp only [takeLong, hname, hrest, Switch.ofName?_name]
  cases switch <;> rfl

theorem takeLong_attached (switch : ValueSwitch) (value : Bytes) :
    p.takeLong (Bytes.ofString (Switch.value switch).name ++ equals :: value) =
      p.takeValue switch value := by
  obtain ⟨hname, hrest⟩ := split_name (.value switch) (equals :: value) (by simp)
  simp only [takeLong, hname, hrest, Switch.ofName?_name]

theorem take_letter {switch : Switch} {c : Char} (h : switch.letter? = some c) :
    p.take [45, c.toUInt8] = p.takeLetters [c.toUInt8] := by
  have hhyphen (long : Bytes) : [45, c.toUInt8] ≠ 45 :: 45 :: long := fun heq =>
    Switch.letter_ne_hyphen h (List.cons.inj (List.cons.inj heq).2).1
  unfold take
  split
  next long heq => exact absurd heq (hhyphen long)
  next heq => rw [(List.cons.inj heq).2]
  next hother => exact absurd rfl (hother _ _)

theorem take_operand {argument : Bytes} (h : argument.head? ≠ some hyphen) :
    p.take argument = p.takeOperand argument := by
  unfold take
  split
  · exact absurd rfl h
  · exact absurd rfl h
  · rfl

theorem take_value_name {switch : ValueSwitch} {name : Bytes}
    (h : name ∈ (Switch.value switch).arguments) : p.take name = p.await switch := by
  obtain rfl | ⟨c, hc, rfl⟩ := Switch.mem_arguments h
  · exact p.takeLong_name (.value switch)
  · rw [take_letter p hc, takeLetters, Switch.ofLetter?_letter hc]

theorem take_flag_name {switch : FlagSwitch} {name : Bytes}
    (h : name ∈ (Switch.flag switch).arguments) : p.take name = p.takeFlag switch := by
  obtain rfl | ⟨c, hc, rfl⟩ := Switch.mem_arguments h
  · exact p.takeLong_name (.flag switch)
  · rw [take_letter p hc, takeLetters, Switch.ofLetter?_letter hc]
    simp only [takeLetters]
    cases p.takeFlag switch <;> rfl

end Take

/-- Sets what a switch gives, unless it was given before. -/
def give (p : Progress) (s : Setting) : Except Interruption Progress :=
  if s.switch ∈ p.seen then fail .repeated
  else
    match s.set p.options with
    | .error fault => fail fault
    | .ok options => .ok { p with options, seen := s.switch :: p.seen }

theorem applyValue_pending {p q : Progress} {switch : ValueSwitch} {value : Bytes}
    (h : p.applyValue switch value = .ok q) : q.pending = p.pending := by
  unfold applyValue at h
  split at h
  · cases h
  · split at h
    · cases h
    · cases h
      rfl

theorem give_pending {p q : Progress} {s : Setting} (h : p.give s = .ok q) :
    q.pending = p.pending := by
  cases s with
  | value switch text => exact applyValue_pending h
  | flag switch =>
    unfold give at h
    split at h
    · cases h
    · cases h
      rfl

theorem settle_pending {p q : Progress} (h : p.settle = .ok q) : q.pending = none := by
  obtain ⟨options, seen, pending⟩ := p
  match pending with
  | none =>
    cases h
    rfl
  | some (_, none) => cases h
  | some (switch, some value) => exact applyValue_pending (p := ⟨options, seen, none⟩) h

theorem settle_of_pending {p : Progress} (h : p.pending = none) : p.settle = .ok p := by
  rw [settle, h]

theorem give_settle {p : Progress} (s : Setting) (h : p.pending = none) :
    (p.give s >>= settle) = p.give s := by
  cases hgive : p.give s with
  | error interruption => rfl
  | ok q => exact settle_of_pending ((give_pending hgive).trans h)

theorem settle_bind_congr {α : Type} {f g : Progress → Except Interruption α}
    (h : ∀ q : Progress, q.pending = none → f q = g q) (p : Progress) :
    p.settle >>= f = p.settle >>= g := by
  cases hsettle : p.settle with
  | error interruption => rfl
  | ok q => exact h q (settle_pending hsettle)

section Spelled

variable {rest : List Bytes} {f : Progress → Except Interruption Progress}

/-- One argument that gives a setting leaves nothing to wait for what follows. -/
theorem takeAll_given {argument : Bytes} {s : Setting} (hend : argument ≠ [45, 45])
    (htake : ∀ p : Progress, p.take argument = p.settle >>= fun q => q.give s)
    (hrest : ∀ p : Progress, p.takeAll rest = p.settle >>= f) (p : Progress) :
    p.takeAll (argument :: rest) = p.settle >>= fun q => q.give s >>= f := by
  rw [takeAll_cons hend, htake, bind_assoc]
  refine settle_bind_congr (fun q hq => ?_) p
  simp only [hrest]
  rw [← bind_assoc, give_settle s hq]

/-- A value in an argument of its own waits until something else is read, and is set before it. -/
theorem takeAll_separate {switch : ValueSwitch} {text : String} {name : Bytes}
    (hname : name ∈ (Switch.value switch).arguments)
    (hvalue : (Bytes.ofString text).head? ≠ some hyphen)
    (hrest : ∀ p : Progress, p.takeAll rest = p.settle >>= f) (p : Progress) :
    p.takeAll (name :: Bytes.ofString text :: rest) =
      p.settle >>= fun q => q.give (.value switch text) >>= f := by
  have hend : Bytes.ofString text ≠ [45, 45] := fun heq => hvalue (heq ▸ rfl)
  rw [takeAll_cons (Switch.ne_end_of_mem_arguments hname), take_value_name p hname, await,
    bind_assoc]
  refine settle_bind_congr (fun q hq => ?_) p
  have hwait : { q with pending := some (switch, none) }.takeAll (Bytes.ofString text :: rest) =
      { q with pending := some (switch, some (Bytes.ofString text)) }.takeAll rest := by
    rw [takeAll_cons hend, take_operand _ hvalue]
    rfl
  have hclear : { q with pending := none } = q := by
    rw [← hq]
  calc { q with pending := some (switch, none) }.takeAll (Bytes.ofString text :: rest)
      = { q with pending := none }.give (.value switch text) >>= f := by rw [hwait, hrest]; rfl
    _ = q.give (.value switch text) >>= f := by rw [hclear]

/-- One step: where what follows is read as `f` once nothing is pending, the arguments that spell
    a setting give it before that. -/
theorem takeAll_spelled {s : Setting} {spelled : List Bytes} (h : s.Spells spelled)
    (hrest : ∀ p : Progress, p.takeAll rest = p.settle >>= f) (p : Progress) :
    p.takeAll (spelled ++ rest) = p.settle >>= fun q => q.give s >>= f := by
  cases h with
  | attached switch text =>
    have hend : (Switch.value switch).argument ++ equals :: Bytes.ofString text ≠ [45, 45] := by
      intro heq
      have hnil := (List.cons.inj (List.cons.inj heq).2).2
      exact List.cons_ne_nil _ _ (List.append_eq_nil_iff.mp hnil).2
    exact takeAll_given (s := .value switch text) hend
      (fun p => p.takeLong_attached switch (Bytes.ofString text)) hrest p
  | separate hname hvalue => exact takeAll_separate hname hvalue hrest p
  | @flag switch name hname =>
    exact takeAll_given (s := .flag switch) (Switch.ne_end_of_mem_arguments hname)
      (fun p => take_flag_name p hname) hrest p

end Spelled

/-- Arguments that spell settings give them from left to right. -/
theorem takeAll_flatten {settings : List Setting} {written : List (List Bytes)}
    (h : List.Forall₂ Setting.Spells settings written) (p : Progress) :
    p.takeAll written.flatten = p.settle >>= fun q => settings.foldlM give q := by
  induction h generalizing p with
  | nil => exact (bind_pure p.settle).symm
  | cons hs _ ih =>
    rw [List.flatten_cons, takeAll_spelled hs ih p]
    rfl

/-- Where no switch is given twice, each setting is set. -/
theorem foldlM_give {settings : List Setting} {p : Progress} {o : Options}
    (hnodup : (settings.map Setting.switch).Nodup)
    (hfresh : ∀ s ∈ settings, s.switch ∉ p.seen)
    (hset : settings.foldlM (fun o s => s.set o) p.options = .ok o) :
    ∃ q, settings.foldlM give p = .ok q ∧ q.options = o := by
  induction settings generalizing p with
  | nil => exact ⟨p, rfl, Except.ok.inj hset⟩
  | cons s rest ih =>
    obtain ⟨hs, hrest⟩ := List.forall_mem_cons.mp hfresh
    obtain ⟨hnew, hnodup⟩ := List.nodup_cons.mp hnodup
    obtain ⟨options, (hfirst : s.set p.options = .ok options), hset⟩ := bind_eq_ok.mp hset
    have hgive : p.give s = .ok { p with options, seen := s.switch :: p.seen } := by
      rw [give, if_neg hs, hfirst]
    rw [List.foldlM_cons, hgive]
    refine ih hnodup (fun t ht => ?_) hset
    rw [List.mem_cons, not_or]
    exact ⟨fun heq => hnew (List.mem_map.mpr ⟨t, ht, heq⟩), hrest t ht⟩

/-- A switch that was seen is not given again: what stands before it can be read, so nothing else
    is refused earlier. -/
theorem foldlM_give_repeated {before after : List Setting} {again : Setting} {p : Progress}
    (hlegible : ∀ s ∈ before, s.IsLegible)
    (hrepeated : again.switch ∈ p.seen ∨ again.switch ∈ before.map Setting.switch) :
    (before ++ again :: after).foldlM give p = fail .repeated := by
  induction before generalizing p with
  | nil =>
    have hseen : again.switch ∈ p.seen := hrepeated.resolve_right List.not_mem_nil
    rw [List.nil_append, List.foldlM_cons, give, if_pos hseen]
    rfl
  | cons s rest ih =>
    obtain ⟨hs, hrest⟩ := List.forall_mem_cons.mp hlegible
    rw [List.cons_append, List.foldlM_cons, give]
    by_cases hseen : s.switch ∈ p.seen
    · rw [if_pos hseen]
      rfl
    · obtain ⟨options, hset⟩ := hs p.options
      rw [if_neg hseen, hset]
      refine ih hrest ?_
      rw [List.map_cons, List.mem_cons] at hrepeated
      rw [List.mem_cons]
      tauto

end CommandLine.Progress

namespace CommandLine

open Progress (give)

theorem parse_flatten {settings : List Setting} {written : List (List Bytes)}
    (h : List.Forall₂ Setting.Spells settings written) :
    parse written.flatten = (settings.foldlM give {}).map Progress.options := by
  rw [parse, Progress.takeAll_flatten h]
  rfl

/-- Of the two settings of one switch the later one is refused. -/
theorem foldlM_give_again {first last : List Setting} {again : Setting}
    (hfirst : ∀ s ∈ first, s.IsLegible) (hlast : ∀ s ∈ last, s.IsLegible)
    (hswitch : again.switch ∈ (first ++ last).map Setting.switch)
    (hlegible : again.IsLegible ∨ again.switch ∈ first.map Setting.switch) :
    (first ++ again :: last).foldlM give {} = Progress.fail .repeated := by
  by_cases hearlier : again.switch ∈ first.map Setting.switch
  · exact Progress.foldlM_give_repeated hfirst (.inr hearlier)
  · have hagain := hlegible.resolve_right hearlier
    rw [List.map_append, List.mem_append] at hswitch
    obtain ⟨s, hs, heq⟩ := List.mem_map.mp (hswitch.resolve_left hearlier)
    obtain ⟨between, rest, rfl⟩ := List.append_of_mem hs
    have hbefore : ∀ t ∈ first ++ again :: between, t.IsLegible := by
      intro t ht
      obtain ht | rfl | ht : t ∈ first ∨ t = again ∨ t ∈ between := by simpa using ht
      · exact hfirst t ht
      · exact hagain
      · exact hlast t (List.mem_append_left _ ht)
    have hseen : s.switch ∈ (first ++ again :: between).map Setting.switch := by
      rw [heq]
      exact List.mem_map_of_mem (by simp)
    have hrefused : ((first ++ again :: between) ++ s :: rest).foldlM give {} =
        Progress.fail .repeated := Progress.foldlM_give_repeated hbefore (.inr hseen)
    rwa [List.append_assoc] at hrefused

/-- The settings of some options, each spelled in one of its ways, are read as these options, in
    any order. With one more setting of a switch that is among them they are refused, wherever it
    stands. Its value is one that can be read, or any value at all behind the first setting of the
    switch. -/
theorem parse_spelled {o : Options} (hfits : o.Fits) :
    (∀ {settings : List Setting} {written : List (List Bytes)}, settings.Perm o.settings →
      List.Forall₂ Setting.Spells settings written → parse written.flatten = .ok o) ∧
    ∀ {first last : List Setting} {again : Setting} {before after : List (List Bytes)}
      {spelled : List Bytes}, (first ++ last).Perm o.settings →
      again.switch ∈ (first ++ last).map Setting.switch →
      again.IsLegible ∨ again.switch ∈ first.map Setting.switch →
      List.Forall₂ Setting.Spells first before → again.Spells spelled →
      List.Forall₂ Setting.Spells last after →
        parse (before ++ spelled :: after).flatten = .error (.fault .repeated) := by
  constructor
  · intro settings written horder hwritten
    obtain ⟨p, hfold, hoptions⟩ := Progress.foldlM_give (p := {})
      (Options.nodup_of_perm_settings horder) (fun _ _ => List.not_mem_nil)
      (Options.foldlM_settings hfits horder)
    rw [parse_flatten hwritten, hfold, Except.map, hoptions]
  · intro first last again before after spelled horder hswitch hlegible hbefore hspelled hafter
    have hall (s : Setting) (hs : s ∈ first ++ last) : s.IsLegible :=
      (Options.isWritten_of_perm_settings hfits horder s hs).isLegible
    rw [parse_flatten (List.rel_append hbefore (.cons hspelled hafter)),
      foldlM_give_again (fun s hs => hall s (List.mem_append_left _ hs))
        (fun s hs => hall s (List.mem_append_right _ hs)) hswitch hlegible]
    rfl

theorem parse_spelled_shuffled :
    let o : Options :=
      { firstnames := some "", output := some "-a=\x7b b", maxLines := some 0, verbose := true,
        showVersion := true }
    let flags := [["-v"], ["--verbose"]].map (List.map Bytes.ofString)
    let values := [["--max-lines", "0"], ["--output=-a=\x7b b"], ["-F", ""]].map
      (List.map Bytes.ofString)
    o.Fits ∧ parse (flags ++ values).flatten = .ok o ∧
      parse (flags ++ [Bytes.ofString "--output", []] :: values).flatten =
        .error (.fault .repeated) := by
  intro o flags values
  let first : List Setting := [.flag .version, .flag .verbose]
  let last : List Setting :=
    [.value .maxLines "0", .value .output "-a=\x7b b", .value .firstnames ""]
  have hfits : o.Fits := ⟨by simp [o], by simp [o]⟩
  have horder : (first ++ last).Perm o.settings := by decide
  have hfirst : List.Forall₂ Setting.Spells first flags :=
    .cons (.flag (by decide)) (.cons (.flag (by decide)) .nil)
  have hlast : List.Forall₂ Setting.Spells last values :=
    .cons (.separate (by decide) (by decide)) (.cons (.attached _ _)
      (.cons (.separate (by decide) (by decide)) .nil))
  have hagain : Setting.Spells (.value .output "") [Bytes.ofString "--output", []] :=
    .separate (by decide) (by decide)
  obtain ⟨hread, hrepeated⟩ := parse_spelled hfits
  exact ⟨hfits, hread horder (List.rel_append hfirst hlast),
    hrepeated horder (by decide) (.inl fun _ => ⟨_, rfl⟩) hfirst hagain hlast⟩

end CommandLine

end LoginNames
