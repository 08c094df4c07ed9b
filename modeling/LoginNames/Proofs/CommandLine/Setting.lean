import LoginNames.CommandLine.Parser
import LoginNames.Proofs.Text.Shown

/-! # Options as settings

Options are given by their settings: for each switch that is used its value as text, or the flag
alone. To set one of them changes what its switch gives and nothing else, so options can be put
together from their settings in any order. -/

set_option autoImplicit false

namespace LoginNames

/-- What one use of a switch sets. -/
inductive Setting
  | value (switch : ValueSwitch) (text : String)
  | flag (switch : FlagSwitch)
deriving DecidableEq

namespace Setting

def switch : Setting → Switch
  | value switch _ => .value switch
  | flag switch => .flag switch

/-- Reads the value of a setting, if it has one, and sets it. -/
def set (o : Options) : Setting → Except UsageFault Options
  | value switch text => CommandLine.setValue switch (Bytes.ofString text) o
  | flag switch => .ok (CommandLine.setFlag switch o)

end Setting

namespace Options

/-- The value of a switch as text, with numbers in decimal. -/
def text? (o : Options) : ValueSwitch → Option String
  | .firstnames => o.firstnames
  | .lastnames => o.lastnames
  | .output => o.output
  | .format => o.format
  | .config => o.config
  | .maxLines => o.maxLines.map toString
  | .maxNameLength => o.maxNameLength.map toString
  | .overlong => o.overlong.map Overlong.word

def isSet (o : Options) : FlagSwitch → Bool
  | .stripCarriageReturn => o.stripCarriageReturn
  | .verbose => o.verbose
  | .jsonLogs => o.jsonLogs
  | .monitor => o.monitor
  | .version => o.showVersion

def setting? (o : Options) : Switch → Option Setting
  | .value switch => (o.text? switch).map (.value switch)
  | .flag switch => if o.isSet switch then some (.flag switch) else none
  | .help => none

def settings (o : Options) : List Setting := Switch.all.filterMap o.setting?

/-- No number is above the largest word. -/
structure Fits (o : Options) : Prop where
  maxLines : ∀ n ∈ o.maxLines, n < 2 ^ 64
  maxNameLength : ∀ n ∈ o.maxNameLength, n < 2 ^ 64

theorem switch_of_setting? {o : Options} {switch : Switch} {s : Setting}
    (h : o.setting? switch = some s) : s.switch = switch := by
  cases switch with
  | value switch =>
    obtain ⟨text, -, rfl⟩ := Option.map_eq_some_iff.mp h
    rfl
  | flag switch =>
    obtain ⟨-, heq⟩ := Option.ite_none_right_eq_some.mp h
    cases heq
    rfl
  | help => cases h

theorem mem_all (switch : Switch) : switch ∈ Switch.all := by
  cases switch with
  | value switch => cases switch <;> decide
  | flag switch => cases switch <;> decide
  | help => decide

theorem mem_settings {o : Options} {s : Setting} :
    s ∈ o.settings ↔ o.setting? s.switch = some s := by
  rw [settings, List.mem_filterMap]
  constructor
  · rintro ⟨switch, -, h⟩
    rwa [switch_of_setting? h]
  · exact fun h => ⟨s.switch, mem_all s.switch, h⟩

theorem nodup_settings (o : Options) : (o.settings.map Setting.switch).Nodup := by
  have hsublist : (o.settings.map Setting.switch).Sublist Switch.all := by
    rw [settings]
    induction Switch.all with
    | nil => exact List.Sublist.slnil
    | cons switch rest ih =>
      cases h : o.setting? switch with
      | none =>
        rw [List.filterMap_cons_none h]
        exact ih.cons switch
      | some s =>
        rw [List.filterMap_cons_some h, List.map_cons, switch_of_setting? h]
        exact ih.cons_cons switch
  exact hsublist.nodup (by decide)

theorem word_injective : Function.Injective Overlong.word := by
  intro a b h
  cases a <;> cases b <;> first | rfl | exact absurd h (by decide)

theorem toString_injective : Function.Injective (toString : Nat → String) := fun _ _ h =>
  Nat.repr_inj.mp h

/-- Options are told apart by what their switches were used for. -/
theorem eq_of_setting? {a b : Options} (h : ∀ switch, a.setting? switch = b.setting? switch) :
    a = b := by
  have htext (switch : ValueSwitch) : a.text? switch = b.text? switch :=
    Option.map_injective (fun _ _ heq => (Setting.value.inj heq).2) (h (.value switch))
  have hflag (switch : FlagSwitch) : a.isSet switch = b.isSet switch := by
    have hswitch := h (.flag switch)
    simp only [setting?] at hswitch
    cases ha : a.isSet switch <;> cases hb : b.isSet switch <;> simp_all
  have hlines : a.maxLines = b.maxLines :=
    Option.map_injective toString_injective (htext .maxLines)
  have hlength : a.maxNameLength = b.maxNameLength :=
    Option.map_injective toString_injective (htext .maxNameLength)
  have hoverlong : a.overlong = b.overlong :=
    Option.map_injective word_injective (htext .overlong)
  cases a
  cases b
  simp only [Options.mk.injEq]
  exact ⟨htext .firstnames, htext .lastnames, htext .output, htext .format, htext .config, hlines,
    hlength, hoverlong, hflag .stripCarriageReturn, hflag .verbose, hflag .jsonLogs,
    hflag .monitor, hflag .version⟩

end Options

namespace CommandLine

theorem text_ofString (s : String) : text (Bytes.ofString s) = .ok s := by
  rw [text, Bytes.text?_ofString]

theorem policy_word (p : Overlong) : policy (Bytes.ofString p.word) = .ok p := by
  cases p <;> rfl

theorem utf8EncodeChar_digit {c : Char} (h : c.isDigit = true) :
    String.utf8EncodeChar c = [c.toUInt8] := by
  have hc : c.toNat ≤ 57 := by
    simp only [Char.isDigit, ge_iff_le, Bool.and_eq_true, decide_eq_true_eq] at h
    exact h.2
  have hone : c.val.toNat ≤ 127 := Nat.le_trans hc (by decide)
  simp only [String.utf8EncodeChar, if_pos hone]
  rfl

theorem ofString_toString (n : Nat) : Bytes.ofString (toString n) = Numeral.toBytes n := by
  have hchars : (toString n).toList = Nat.toDigits 10 n := Nat.toList_repr
  rw [Bytes.ofString_eq_flatMap, hchars, Numeral.toBytes, List.map_eq_flatMap]
  exact List.flatMap_congr fun c hc =>
    utf8EncodeChar_digit (Nat.isDigit_of_mem_toDigits (by decide) (by decide) hc)

theorem number_of_isDigit {value : Bytes} {s : String} (htext : text value = .ok s)
    (hne : value ≠ []) (hdigits : value.all Numeral.isDigit = true)
    (hword : Numeral.ofBytes value ≤ Numeral.maxWord) :
    number value = .ok (Numeral.ofBytes value) := by
  have hok : value ≠ [] ∧ value.all Numeral.isDigit = true ∧
      Numeral.ofBytes value ≤ Numeral.maxWord := ⟨hne, hdigits, hword⟩
  -- the match on the sign is opened by this fact, on a value with a first byte
  have hsign (digits : Bytes) : value ≠ 43 :: digits := by
    rintro rfl
    cases hdigits
  obtain ⟨b, rest, rfl⟩ := List.exists_cons_of_ne_nil hne
  unfold number
  rw [htext]
  simp only [bind, Except.bind]
  exact if_pos hok

theorem number_toString {n : Nat} (h : n < 2 ^ 64) :
    number (Bytes.ofString (toString n)) = .ok n := by
  have htext := text_ofString (toString n)
  rw [ofString_toString] at htext ⊢
  have hword : Numeral.ofBytes (Numeral.toBytes n) ≤ Numeral.maxWord := by
    rw [Numeral.ofBytes_toBytes]
    exact Nat.le_sub_one_of_lt h
  have hdigits : (Numeral.toBytes n).all Numeral.isDigit = true :=
    List.all_eq_true.mpr fun b => Numeral.isDigit_of_mem_toBytes
  rw [number_of_isDigit htext (Numeral.toBytes_ne_nil n) hdigits hword, Numeral.ofBytes_toBytes]

/-- A value that some options have is read, and sets its switch alone. -/
theorem setValue_text? {other : Options} (hfits : other.Fits) {switch : ValueSwitch}
    {given : String} (h : other.text? switch = some given) (o : Options) :
    ∃ o', setValue switch (Bytes.ofString given) o = .ok o' ∧
      (∀ s, o'.text? s = if s = switch then some given else o.text? s) ∧
      ∀ flag, o'.isSet flag = o.isSet flag := by
  cases switch <;> simp only [setValue]
  case maxLines =>
    obtain ⟨n, hn, rfl⟩ := Option.map_eq_some_iff.mp h
    rw [number_toString (hfits.maxLines n hn)]
    exact ⟨_, rfl, fun s => by cases s <;> rfl, fun flag => by cases flag <;> rfl⟩
  case maxNameLength =>
    obtain ⟨n, hn, rfl⟩ := Option.map_eq_some_iff.mp h
    rw [number_toString (hfits.maxNameLength n hn)]
    exact ⟨_, rfl, fun s => by cases s <;> rfl, fun flag => by cases flag <;> rfl⟩
  case overlong =>
    obtain ⟨p, -, rfl⟩ := Option.map_eq_some_iff.mp h
    rw [policy_word]
    exact ⟨_, rfl, fun s => by cases s <;> rfl, fun flag => by cases flag <;> rfl⟩
  all_goals
    rw [text_ofString]
    exact ⟨_, rfl, fun s => by cases s <;> rfl, fun flag => by cases flag <;> rfl⟩

end CommandLine

namespace Options

theorem text?_of_mem_settings {o : Options} {switch : ValueSwitch} {text : String}
    (h : .value switch text ∈ o.settings) : o.text? switch = some text := by
  obtain ⟨given, htext, heq⟩ := Option.map_eq_some_iff.mp (mem_settings.mp h)
  cases heq
  exact htext

theorem setting?_setFlag (flag : FlagSwitch) (o : Options) (switch : Switch) :
    (CommandLine.setFlag flag o).setting? switch =
      if switch = .flag flag then some (.flag flag) else o.setting? switch := by
  cases switch with
  | value switch => cases flag <;> cases switch <;> rfl
  | flag other => cases flag <;> cases other <;> rfl
  | help => rfl

end Options

namespace Setting

/-- The value can be read, whatever is set before. -/
def IsLegible (s : Setting) : Prop := ∀ o, ∃ o', s.set o = .ok o'

/-- The setting is one of some options: it is legible, and in the form that they are written in. -/
def IsWritten (s : Setting) : Prop := ∃ o : Options, o.Fits ∧ s ∈ o.settings

theorem IsWritten.set_eq_ok {s : Setting} (h : s.IsWritten) (o : Options) :
    ∃ o', s.set o = .ok o' ∧
      ∀ switch, o'.setting? switch = if switch = s.switch then some s else o.setting? switch := by
  obtain ⟨other, hfits, hmem⟩ := h
  cases s with
  | flag flag => exact ⟨_, rfl, Options.setting?_setFlag flag o⟩
  | value switch text =>
    obtain ⟨o', hset, htext, hflag⟩ :=
      CommandLine.setValue_text? hfits (Options.text?_of_mem_settings hmem) o
    refine ⟨o', hset, fun t => ?_⟩
    cases t with
    | value t =>
      simp only [Options.setting?, htext, Setting.switch, Switch.value.injEq]
      split
      next heq => rw [heq, Option.map_some]
      next => rfl
    | flag flag => simp only [Options.setting?, hflag, Setting.switch, reduceCtorEq, if_false]
    | help => rfl

theorem IsWritten.isLegible {s : Setting} (h : s.IsWritten) : s.IsLegible := fun o =>
  let ⟨o', hset, _⟩ := h.set_eq_ok o
  ⟨o', hset⟩

/-- Settings of different switches do not touch one another. -/
theorem foldlM_set {settings : List Setting} (hwritten : ∀ s ∈ settings, s.IsWritten)
    (hnodup : (settings.map switch).Nodup) (o : Options) :
    ∃ o', settings.foldlM (fun o s => s.set o) o = .ok o' ∧
      (∀ s ∈ settings, o'.setting? s.switch = some s) ∧
      ∀ switch ∉ settings.map Setting.switch, o'.setting? switch = o.setting? switch := by
  induction settings generalizing o with
  | nil => exact ⟨o, rfl, by simp, fun _ _ => rfl⟩
  | cons s rest ih =>
    obtain ⟨hs, hrest⟩ := List.forall_mem_cons.mp hwritten
    obtain ⟨hfresh, hnodup⟩ := List.nodup_cons.mp hnodup
    obtain ⟨o₁, hset, hone⟩ := hs.set_eq_ok o
    obtain ⟨o₂, hfold, hgiven, hother⟩ := ih hrest hnodup o₁
    refine ⟨o₂, by rw [List.foldlM_cons, hset]; exact hfold, ?_, fun t ht => ?_⟩
    · refine List.forall_mem_cons.mpr ⟨?_, hgiven⟩
      rw [hother s.switch hfresh, hone, if_pos rfl]
    · rw [List.map_cons, List.mem_cons, not_or] at ht
      rw [hother t ht.2, hone, if_neg ht.1]

end Setting

namespace Options

variable {o : Options} {settings : List Setting}

theorem isWritten_of_perm_settings (hfits : o.Fits) (h : settings.Perm o.settings) :
    ∀ s ∈ settings, s.IsWritten :=
  fun _ hs => ⟨o, hfits, h.mem_iff.mp hs⟩

theorem nodup_of_perm_settings (h : settings.Perm o.settings) :
    (settings.map Setting.switch).Nodup :=
  (h.map Setting.switch).nodup_iff.mpr o.nodup_settings

/-- Options are put together from their settings, in any order. -/
theorem foldlM_settings (hfits : o.Fits) (h : settings.Perm o.settings) :
    settings.foldlM (fun o s => s.set o) {} = .ok o := by
  obtain ⟨o', hfold, hgiven, hother⟩ := Setting.foldlM_set (isWritten_of_perm_settings hfits h)
    (nodup_of_perm_settings h) {}
  suffices hall : ∀ switch, o'.setting? switch = o.setting? switch by
    rw [hfold, eq_of_setting? hall]
  intro switch
  cases hswitch : o.setting? switch with
  | some s =>
    have hs := switch_of_setting? hswitch
    have hmem : s ∈ settings := h.mem_iff.mpr (mem_settings.mpr (hs.symm ▸ hswitch))
    exact hs ▸ hgiven s hmem
  | none =>
    have hnot : switch ∉ settings.map Setting.switch := by
      intro hin
      obtain ⟨s, hs, rfl⟩ := List.mem_map.mp hin
      rw [mem_settings.mp (h.mem_iff.mp hs)] at hswitch
      cases hswitch
    rw [hother switch hnot]
    cases switch with
    | value switch => cases switch <;> rfl
    | flag flag => cases flag <;> rfl
    | help => rfl

end Options

end LoginNames
