import LoginNames.Profile
import LoginNames.Proofs.Toml.Reordered

/-! # Profiles up to the order of keys

A profile is read from the entries of its tables sorted by key. So nothing that is read, not even
which fault is found first, hangs on the order in which a document has them. -/

set_option autoImplicit false

namespace LoginNames.Profile

open Toml (Value Entries)

variable {value value' : Value}

theorem text_eq_of_reordered (h : value.Reordered value') :
    Decode.text value = Decode.text value' := by
  cases h <;> rfl

theorem number_eq_of_reordered (h : value.Reordered value') :
    Decode.number value = Decode.number value' := by
  cases h <;> rfl

theorem truth_eq_of_reordered (h : value.Reordered value') :
    Decode.truth value = Decode.truth value' := by
  cases h <;> rfl

/-- Of the value in a table for a policy it only counts whether it is empty. -/
theorem policy_table_eq {word : String} {kind kind' : Toml.TableKind}
    (h : value.Reordered value') :
    Decode.policy (.table kind [(word, value)]) =
      Decode.policy (.table kind' [(word, value')]) := by
  cases h with
  | refl => rfl
  | @array _ _ items items' hlength _ =>
    cases items <;> cases items' <;> first | rfl | cases hlength
  | @table _ _ entries entries' hkeys _ =>
    have hlength := hkeys.length_eq
    cases entries <;> cases entries' <;> first | rfl | cases hlength

theorem policy_eq_of_reordered (h : value.Reordered value') :
    Decode.policy value = Decode.policy value' := by
  cases h with
  | refl => rfl
  | array _ _ => rfl
  | @table kind kind' entries entries' hkeys hvalues =>
    have hlength : entries.length = entries'.length := by simpa using hkeys.length_eq
    match entries, entries' with
    | [], [] => rfl
    | [(word, value)], [(word', value')] =>
      obtain rfl : word = word' := by simpa using hkeys
      exact policy_table_eq (hvalues _ _ _ List.mem_cons_self List.mem_cons_self)
    | _ :: _ :: _, _ :: _ :: _ => rfl

/-- Setting a field does not hang on the order of the keys within its value. -/
def SetsReordered {α : Type} (set : String → Value → α → Except ProfileFault α) : Prop :=
  ∀ key value value' a, value.Reordered value' → set key value a = set key value' a

theorem foldlM_corresponds {α : Type} {set : String → Value → α → Except ProfileFault α}
    (hset : SetsReordered set) {entries entries' : Entries}
    (h : List.Forall₂ Toml.Entries.Corresponds entries entries') (start : α) :
    entries.foldlM (fun a (key, value) => set key value a) start =
      entries'.foldlM (fun a (key, value) => set key value a) start := by
  induction h generalizing start with
  | nil => rfl
  | @cons entry entry' rest rest' hentry _ ih =>
    obtain ⟨key, value⟩ := entry
    obtain ⟨key', value'⟩ := entry'
    obtain ⟨rfl, hvalue⟩ : key = key' ∧ value.Reordered value' := hentry
    have hfirst := hset key value value' start hvalue
    rw [List.foldlM_cons, List.foldlM_cons]
    dsimp only
    rw [hfirst]
    exact bind_congr ih

theorem corresponds_zip {items items' : List Value} (fields : List String)
    (h : List.Forall₂ Value.Reordered items items') :
    List.Forall₂ Toml.Entries.Corresponds (fields.zip items) (fields.zip items') := by
  induction h generalizing fields with
  | nil =>
    rw [List.zip_nil_right]
    exact .nil
  | cons hitem _ ih =>
    cases fields with
    | nil => exact .nil
    | cons field fields => exact .cons ⟨rfl, hitem⟩ (ih fields)

theorem record_eq_of_reordered {α : Type} {fields : List String}
    {set : String → Value → α → Except ProfileFault α} (hset : SetsReordered set) (start : α)
    (h : value.Reordered value') :
    Decode.record fields set start value = Decode.record fields set start value' := by
  cases h with
  | refl => rfl
  | table hkeys hvalues =>
    exact foldlM_corresponds hset (Toml.Entries.Reordered.forall₂_sorted ⟨hkeys, hvalues⟩) start
  | @array kind kind' items items' hlength hitems =>
    have hzip := corresponds_zip fields (List.forall₂_iff_zip.mpr ⟨hlength, fun h => hitems _ h⟩)
    simp only [Decode.record, foldlM_corresponds hset hzip start, hlength]

theorem setInput_reordered : SetsReordered Decode.setInput := by
  intro key value value' p h
  unfold Decode.setInput
  rw [text_eq_of_reordered h, number_eq_of_reordered h, policy_eq_of_reordered h,
    truth_eq_of_reordered h]

theorem setOutput_reordered : SetsReordered Decode.setOutput := by
  intro key value value' p h
  unfold Decode.setOutput
  rw [text_eq_of_reordered h, number_eq_of_reordered h]

theorem setMonitoring_reordered : SetsReordered Decode.setMonitoring := by
  intro key value value' p h
  unfold Decode.setMonitoring
  rw [truth_eq_of_reordered h, h.inRange_eq]

theorem setProfile_reordered : SetsReordered Decode.setProfile := by
  intro key value value' p h
  unfold Decode.setProfile Decode.monitoring
  rw [record_eq_of_reordered setInput_reordered {} h,
    record_eq_of_reordered setOutput_reordered {} h,
    record_eq_of_reordered setMonitoring_reordered none h]

theorem ofToml_eq_of_reordered {entries entries' : Entries} (h : entries.Reordered entries') :
    ofToml entries = ofToml entries' :=
  foldlM_corresponds setProfile_reordered h.forall₂_sorted {}

end LoginNames.Profile
