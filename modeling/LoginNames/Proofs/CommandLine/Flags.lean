import LoginNames.CommandLine.Parser
import Mathlib

/-! # A flag among the arguments

A flag is given by an argument of its own. The rest of a command line is read the same whether the
flag is set or not: whatever comes of it, the options differ in the flag alone. So a flag may be put
before arguments that do not give it, and arguments that do not give it leave it clear. -/

set_option autoImplicit false

namespace LoginNames

namespace FlagSwitch

/-- The options with a flag set or cleared. -/
def assign (flag : FlagSwitch) (value : Bool) (o : Options) : Options :=
  match flag with
  | stripCarriageReturn => { o with stripCarriageReturn := value }
  | verbose => { o with verbose := value }
  | jsonLogs => { o with jsonLogs := value }
  | monitor => { o with monitor := value }
  | version => { o with showVersion := value }

/-- The argument that gives a flag. -/
def argument (flag : FlagSwitch) : Bytes := 45 :: 45 :: Bytes.ofString (Switch.flag flag).name

theorem setFlag_assign {flag other : FlagSwitch} (h : other ≠ flag) (value : Bool) (o : Options) :
    CommandLine.setFlag other (flag.assign value o) =
      flag.assign value (CommandLine.setFlag other o) := by
  cases flag <;> cases other <;> first | rfl | exact absurd rfl h

@[simp] theorem assign_assign (flag : FlagSwitch) (value earlier : Bool) (o : Options) :
    flag.assign value (flag.assign earlier o) = flag.assign value o := by
  cases flag <;> rfl

end FlagSwitch

namespace Switch

theorem name_of_ofName? {name : Bytes} {switch : Switch} (h : ofName? name = some switch) :
    Bytes.ofString switch.name = name := by
  simpa using List.find?_some h

theorem letter_of_ofLetter? {letter : UInt8} {switch : Switch}
    (h : ofLetter? letter = some switch) : switch.letter?.map Char.toUInt8 = some letter := by
  simpa using List.find?_some h

end Switch

namespace CommandLine

theorem setValue_assign (flag : FlagSwitch) (value : Bool) (switch : ValueSwitch) (given : Bytes)
    (o : Options) :
    setValue switch given (flag.assign value o) =
      (setValue switch given o).map (flag.assign value) := by
  cases switch <;> simp only [setValue]
  case maxLines | maxNameLength => cases number given <;> cases flag <;> rfl
  case overlong => cases policy given <;> cases flag <;> rfl
  all_goals cases text given <;> cases flag <;> rfl

namespace Progress

/-- The progress with a flag set or cleared, where some switches were seen earlier. -/
def assign (flag : FlagSwitch) (value : Bool) (earlier : List Switch) (p : Progress) : Progress :=
  { p with options := flag.assign value p.options, seen := p.seen ++ earlier }

section Assign

variable {flag : FlagSwitch} {value : Bool} {earlier : List Switch}

theorem mem_seen_assign (hearlier : ∀ switch ∈ earlier, switch = .flag flag) {switch : Switch}
    (hswitch : switch ≠ .flag flag) (p : Progress) :
    switch ∈ (p.assign flag value earlier).seen ↔ switch ∈ p.seen := by
  rw [assign, List.mem_append, or_iff_left]
  exact fun h => hswitch (hearlier switch h)

variable (hearlier : ∀ switch ∈ earlier, switch = .flag flag)

include hearlier

theorem applyValue_assign (p : Progress) (switch : ValueSwitch) (given : Bytes) :
    (p.assign flag value earlier).applyValue switch given =
      (p.applyValue switch given).map (assign flag value earlier) := by
  unfold applyValue
  simp only [mem_seen_assign hearlier (by simp : Switch.value switch ≠ .flag flag)]
  by_cases hseen : Switch.value switch ∈ p.seen
  · rw [if_pos hseen, if_pos hseen]
    rfl
  · rw [if_neg hseen, if_neg hseen, assign, setValue_assign]
    cases setValue switch given p.options <;> rfl

theorem settle_assign (p : Progress) :
    (p.assign flag value earlier).settle = p.settle.map (assign flag value earlier) := by
  obtain ⟨options, seen, pending⟩ := p
  cases pending with
  | none => rfl
  | some waiting =>
    obtain ⟨switch, given⟩ := waiting
    cases given with
    | none => rfl
    | some given =>
      exact applyValue_assign hearlier ⟨options, seen, none⟩ switch given

theorem takeFlag_assign {other : FlagSwitch} (h : other ≠ flag) (p : Progress) :
    (p.assign flag value earlier).takeFlag other =
      (p.takeFlag other).map (assign flag value earlier) := by
  unfold takeFlag
  rw [settle_assign hearlier]
  cases p.settle with
  | error interruption => rfl
  | ok p =>
    simp only [Except.map, bind, Except.bind]
    simp only [mem_seen_assign hearlier (by simpa using h : Switch.flag other ≠ .flag flag)]
    by_cases hseen : Switch.flag other ∈ p.seen
    · rw [if_pos hseen, if_pos hseen]
      rfl
    · rw [if_neg hseen, if_neg hseen]
      simp only [assign, FlagSwitch.setFlag_assign h, List.cons_append]

theorem takeValue_assign (p : Progress) (switch : ValueSwitch) (given : Bytes) :
    (p.assign flag value earlier).takeValue switch given =
      (p.takeValue switch given).map (assign flag value earlier) := by
  unfold takeValue
  rw [settle_assign hearlier]
  cases p.settle with
  | error interruption => rfl
  | ok p => exact applyValue_assign hearlier p switch given

theorem await_assign (p : Progress) (switch : ValueSwitch) :
    (p.assign flag value earlier).await switch =
      (p.await switch).map (assign flag value earlier) := by
  unfold await
  rw [settle_assign hearlier]
  cases p.settle <;> rfl

theorem askHelp_assign (p : Progress) (long : Bool) :
    (p.assign flag value earlier).askHelp long =
      (p.askHelp long).map (assign flag value earlier) := by
  unfold askHelp
  rw [settle_assign hearlier]
  cases p.settle <;> rfl

theorem takeLong_assign {argument : Bytes}
    (h : argument ≠ Bytes.ofString (Switch.flag flag).name) (p : Progress) :
    (p.assign flag value earlier).takeLong argument =
      (p.takeLong argument).map (assign flag value earlier) := by
  have hsplit : argument.takeWhile (· != equals) ++ argument.dropWhile (· != equals) = argument :=
    List.takeWhile_append_dropWhile
  unfold takeLong
  dsimp only
  cases hname : Switch.ofName? (argument.takeWhile (· != equals)) with
  | none => rfl
  | some switch =>
    cases hrest : argument.dropWhile (· != equals) with
    | nil =>
      rw [hrest, List.append_nil] at hsplit
      cases switch with
      | value switch => exact await_assign hearlier p switch
      | help => exact askHelp_assign hearlier p true
      | flag other =>
        refine takeFlag_assign hearlier ?_ p
        rintro rfl
        rw [hsplit] at hname
        exact h (Switch.name_of_ofName? hname).symm
    | cons _ given =>
      cases switch with
      | value switch => exact takeValue_assign hearlier p switch given
      | flag other => rfl
      | help => rfl

theorem takeLetters_assign (hletter : (Switch.flag flag).letter? = none) (letters : Bytes)
    (p : Progress) :
    (p.assign flag value earlier).takeLetters letters =
      (p.takeLetters letters).map (assign flag value earlier) := by
  induction letters generalizing p with
  | nil => rfl
  | cons letter rest ih =>
    unfold takeLetters
    cases hswitch : Switch.ofLetter? letter with
    | none => rfl
    | some switch =>
      cases switch with
      | help => exact askHelp_assign hearlier p false
      | value switch =>
        cases rest with
        | nil => exact await_assign hearlier p switch
        | cons c given => exact takeValue_assign hearlier p switch _
      | flag other =>
        have hother : other ≠ flag := by
          rintro rfl
          have hfound := Switch.letter_of_ofLetter? hswitch
          rw [hletter] at hfound
          cases hfound
        simp only
        rw [takeFlag_assign hearlier hother]
        cases p.takeFlag other with
        | error interruption => rfl
        | ok p => exact ih p

omit hearlier in
theorem takeOperand_assign (argument : Bytes) (p : Progress) :
    (p.assign flag value earlier).takeOperand argument =
      (p.takeOperand argument).map (assign flag value earlier) := by
  obtain ⟨options, seen, pending⟩ := p
  cases pending with
  | none => rfl
  | some waiting =>
    obtain ⟨switch, given⟩ := waiting
    cases given <;> rfl

end Assign

/-- Reads one argument, unless it ends the switches. -/
def take (p : Progress) (argument : Bytes) : Except Interruption Progress :=
  match argument with
  | 45 :: 45 :: long => p.takeLong long
  | 45 :: letter :: letters => p.takeLetters (letter :: letters)
  | operand => p.takeOperand operand

theorem takeAll_cons {argument : Bytes} (h : argument ≠ [45, 45]) (p : Progress)
    (rest : List Bytes) : p.takeAll (argument :: rest) = (p.take argument >>= (·.takeAll rest)) := by
  conv_lhs => unfold takeAll
  split
  case h_1 heq => cases heq
  case h_2 heq => exact absurd (List.cons.inj heq).1 h
  case h_3 heq =>
    obtain ⟨rfl, rfl⟩ := List.cons.inj heq
    unfold take
    split <;> simp_all

theorem take_assign {flag : FlagSwitch} {value : Bool} {earlier : List Switch}
    (hearlier : ∀ switch ∈ earlier, switch = .flag flag)
    (hletter : (Switch.flag flag).letter? = none) {argument : Bytes}
    (h : argument ≠ flag.argument) (p : Progress) :
    (p.assign flag value earlier).take argument =
      (p.take argument).map (assign flag value earlier) := by
  unfold take
  split
  case h_1 long =>
    refine takeLong_assign hearlier ?_ p
    rintro rfl
    exact h rfl
  case h_2 letter letters _ => exact takeLetters_assign hearlier hletter (letter :: letters) p
  case h_3 => exact takeOperand_assign argument p

/-- Nothing that is read afterwards tells apart whether a flag is set, if it does not give it. -/
theorem takeAll_assign {flag : FlagSwitch} {value : Bool} {earlier : List Switch}
    (hearlier : ∀ switch ∈ earlier, switch = .flag flag)
    (hletter : (Switch.flag flag).letter? = none) {arguments : List Bytes}
    (h : flag.argument ∉ arguments) (p : Progress) :
    (p.assign flag value earlier).takeAll arguments =
      (p.takeAll arguments).map (assign flag value earlier) := by
  induction arguments generalizing p with
  | nil => exact settle_assign hearlier p
  | cons argument rest ih =>
    rw [List.mem_cons, not_or] at h
    by_cases hend : argument = [45, 45]
    · subst hend
      cases rest with
      | nil => exact settle_assign hearlier p
      | cons _ _ => rfl
    · rw [takeAll_cons hend, takeAll_cons hend, take_assign hearlier hletter (Ne.symm h.1)]
      cases p.take argument with
      | error interruption => rfl
      | ok p => exact ih h.2 p

theorem takeAll_argument {flag : FlagSwitch} (arguments : List Bytes) :
    takeAll {} (flag.argument :: arguments) =
      takeAll (assign flag true [.flag flag] {}) arguments := by
  have hend : flag.argument ≠ [45, 45] := by cases flag <;> decide
  have htake : take {} flag.argument = .ok (assign flag true [.flag flag] {}) := by
    cases flag <;> rfl
  rw [takeAll_cons hend, htake]
  rfl

end Progress

variable {flag : FlagSwitch} {arguments : List Bytes}

/-- A flag before arguments that do not give it is set in what they are read as. -/
theorem parse_argument_cons (hletter : (Switch.flag flag).letter? = none)
    (h : flag.argument ∉ arguments) :
    parse (flag.argument :: arguments) = (parse arguments).map (flag.assign true) := by
  have hearlier : ∀ switch ∈ [Switch.flag flag], switch = .flag flag := by simp
  unfold parse
  rw [Progress.takeAll_argument, Progress.takeAll_assign hearlier hletter h]
  cases Progress.takeAll {} arguments <;> rfl

theorem parse_eq_unset (hletter : (Switch.flag flag).letter? = none)
    (h : flag.argument ∉ arguments) : parse arguments = (parse arguments).map (flag.assign false) := by
  have hnone : ∀ switch ∈ ([] : List Switch), switch = .flag flag := by simp
  have hclear : Progress.assign flag false [] {} = {} := by cases flag <;> rfl
  have hread : Progress.takeAll (.assign flag false [] {}) arguments =
      (Progress.takeAll {} arguments).map (.assign flag false []) :=
    Progress.takeAll_assign hnone hletter h {}
  rw [hclear] at hread
  unfold parse
  rw [hread]
  cases Progress.takeAll {} arguments with
  | error interruption => rfl
  | ok p => simp [Except.map, Progress.assign]

end CommandLine

end LoginNames
