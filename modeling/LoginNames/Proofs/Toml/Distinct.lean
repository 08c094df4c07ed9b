import LoginNames.Proofs.Attempts
import LoginNames.Toml.Document
import Mathlib

/-! # Keys of a document

A key is set once: no table of a document that is read holds a key twice, wherever the table
stands. Each way to change a table keeps this, so all that are put together from lines have it. -/

set_option autoImplicit false

namespace LoginNames.Toml

/-- No table in the value holds a key twice. -/
inductive Value.Distinct : Value → Prop
  | string (text : String) : Distinct (.string text)
  | integer (value : Int) : Distinct (.integer value)
  | illegible : Distinct .illegible
  | float (value : FloatValue) : Distinct (.float value)
  | boolean (value : Bool) : Distinct (.boolean value)
  | dateTime (text : String) : Distinct (.dateTime text)
  | array (kind : ArrayKind) {items : List Value} (hitems : ∀ item ∈ items, Distinct item) :
    Distinct (.array kind items)
  | table (kind : TableKind) {entries : List (String × Value)}
    (hnodup : (entries.map Prod.fst).Nodup) (hvalues : ∀ entry ∈ entries, Distinct entry.2) :
    Distinct (.table kind entries)

namespace Entries

structure Distinct (entries : Entries) : Prop where
  nodup : (entries.map Prod.fst).Nodup
  values : ∀ entry ∈ entries, entry.2.Distinct

theorem mem_of_lookup {entries : Entries} {key : String} {value : Value}
    (h : entries.lookup key = some value) : (key, value) ∈ entries := by
  obtain ⟨before, after, rfl, -⟩ := List.lookup_eq_some_iff.mp h
  simp

theorem lookup_eq_none {entries : Entries} {key : String} :
    entries.lookup key = none ↔ key ∉ entries.map Prod.fst := by
  rw [List.lookup_eq_none_iff]
  constructor
  · intro h hmem
    obtain ⟨entry, hentry, rfl⟩ := List.mem_map.mp hmem
    exact absurd (h entry hentry) (by simp)
  · rintro h entry hentry
    rw [bne_iff_ne]
    rintro rfl
    exact h (List.mem_map_of_mem hentry)

theorem lookup_of_mem {entries : Entries} {key : String} {value : Value}
    (hnodup : (entries.map Prod.fst).Nodup) (hmem : (key, value) ∈ entries) :
    entries.lookup key = some value := by
  cases hlookup : entries.lookup key with
  | none => exact absurd (List.mem_map_of_mem hmem) (lookup_eq_none.mp hlookup)
  | some other =>
    have heq := List.inj_on_of_nodup_map hnodup (mem_of_lookup hlookup) hmem rfl
    rw [(Prod.mk.inj heq).2]

theorem keys_replace (key : String) (value : Value) (entries : Entries) :
    (entries.replace key value).map Prod.fst = entries.map Prod.fst := by
  rw [replace, List.map_map]
  refine List.map_congr_left fun entry _ => ?_
  rw [Function.comp_apply]
  split
  next h => exact h.symm
  next => rfl

namespace Distinct

variable {entries : Entries} {key : String} {value : Value}

theorem nil : Distinct [] := ⟨List.nodup_nil, fun _ h => absurd h List.not_mem_nil⟩

theorem of_lookup (h : Distinct entries) (hlookup : entries.lookup key = some value) :
    value.Distinct := h.values _ (mem_of_lookup hlookup)

theorem cons (h : Distinct entries) (hlookup : entries.lookup key = none)
    (hvalue : value.Distinct) : Distinct ((key, value) :: entries) where
  nodup := List.nodup_cons.mpr ⟨lookup_eq_none.mp hlookup, h.nodup⟩
  values := List.forall_mem_cons.mpr ⟨hvalue, h.values⟩

theorem replace (h : Distinct entries) (key : String) (hvalue : value.Distinct) :
    Distinct (entries.replace key value) where
  nodup := (keys_replace key value entries).symm ▸ h.nodup
  values entry hentry := by
    obtain ⟨old, hold, rfl⟩ := List.mem_map.mp hentry
    split
    next => exact hvalue
    next => exact h.values old hold

theorem table (h : Distinct entries) (kind : TableKind) : (Value.table kind entries).Distinct :=
  .table kind h.nodup h.values

end Distinct

end Entries

namespace Value.Distinct

theorem entries {kind : TableKind} {inner : Entries} (h : (Value.table kind inner).Distinct) :
    inner.Distinct := by
  cases h with
  | table _ hnodup hvalues => exact ⟨hnodup, hvalues⟩

theorem items {kind : ArrayKind} {values : List Value} (h : (Value.array kind values).Distinct) :
    ∀ value ∈ values, value.Distinct := by
  cases h with
  | array _ hitems => exact hitems

theorem concat {values : List Value} {value : Value} (h : ∀ value ∈ values, value.Distinct)
    (hvalue : value.Distinct) (kind : ArrayKind) :
    (Value.array kind (values ++ [value])).Distinct := by
  refine .array kind fun item hitem => ?_
  obtain hitem | hitem := List.mem_append.mp hitem
  · exact h item hitem
  · exact List.mem_singleton.mp hitem ▸ hvalue

/-- The last element of an array is made anew. -/
theorem setLast {values : List Value} {value : Value} {kind : ArrayKind}
    (h : (Value.array kind values).Distinct) (hvalue : value.Distinct) :
    (Value.array kind (values.dropLast ++ [value])).Distinct :=
  .concat (fun item hitem => h.items item (List.mem_of_mem_dropLast hitem)) hvalue kind

end Value.Distinct

namespace Entries

/-- A change that leaves keys distinct. -/
def Keeps (change : Entries → Option Entries) : Prop :=
  ∀ entries new : Entries, entries.Distinct → change entries = some new → new.Distinct

theorem keeps_extendAt {change : TableKind → Entries → Option Entries}
    (hchange : ∀ kind, Keeps (change kind)) (made : TableKind) (path : List String)
    (kind : TableKind) : Keeps (extendAt made change path kind) := by
  induction path generalizing kind with
  | nil => exact hchange kind
  | cons key path ih =>
    intro entries new h hnew
    unfold extendAt at hnew
    split at hnew
    next hlookup =>
      obtain ⟨inner, hinner, rfl⟩ := Option.map_eq_some_iff.mp hnew
      exact h.cons hlookup ((ih made _ _ .nil hinner).table made)
    next kind inner hlookup =>
      obtain ⟨-, hnew⟩ := Option.ite_none_left_eq_some.mp hnew
      obtain ⟨changed, hchanged, rfl⟩ := Option.map_eq_some_iff.mp hnew
      have hinner := (h.of_lookup hlookup).entries
      exact h.replace key ((ih kind _ _ hinner hchanged).table kind)
    next values hlookup =>
      have harray := h.of_lookup hlookup
      split at hnew
      next kind inner hlast =>
        obtain ⟨changed, hchanged, rfl⟩ := Option.map_eq_some_iff.mp hnew
        have hinner := (harray.items _ (List.mem_of_getLast? hlast)).entries
        exact h.replace key (harray.setLast ((ih kind _ _ hinner hchanged).table kind))
      next => cases hnew
    next => cases hnew

theorem keeps_setNew (key : String) {value : Value} (hvalue : value.Distinct) :
    Keeps (setNew key value) := by
  intro entries new h hnew
  unfold setNew at hnew
  split at hnew
  next hlookup =>
    cases hnew
    exact h.cons hlookup hvalue
  next => cases hnew

theorem keeps_assign (kind : TableKind) (path : KeyPath) {value : Value}
    (hvalue : value.Distinct) : Keeps (assign kind path value) := by
  refine keeps_extendAt (fun kind entries new h hnew => ?_) .dotted path.parents kind
  obtain ⟨-, hnew⟩ := Option.ite_none_left_eq_some.mp hnew
  exact keeps_setNew path.last hvalue entries new h hnew

theorem keeps_openTable (path : KeyPath) : Keeps (openTable path) := by
  refine keeps_extendAt (fun _ entries new h hnew => ?_) .implied path.parents .headed
  split at hnew
  next hlookup =>
    cases hnew
    exact h.cons hlookup (Distinct.nil.table .headed)
  next inner hlookup =>
    cases hnew
    exact h.replace path.last ((h.of_lookup hlookup).entries.table .headed)
  next => cases hnew

theorem keeps_addElement (path : KeyPath) {element : Entries} (helement : element.Distinct) :
    Keeps (addElement path element) := by
  have htable := helement.table .headed
  refine keeps_extendAt (fun _ entries new h hnew => ?_) .implied path.parents .headed
  split at hnew
  next hlookup =>
    cases hnew
    exact h.cons hlookup (.array .headed fun item hitem => List.mem_singleton.mp hitem ▸ htable)
  next values hlookup =>
    cases hnew
    exact h.replace path.last (.concat (h.of_lookup hlookup).items htable .headed)
  next => cases hnew

theorem keeps_changeOpen {change : Entries → Option Entries} (hchange : Keeps change)
    (path : List String) : Keeps (changeOpen change path) := by
  induction path with
  | nil => exact hchange
  | cons key path ih =>
    intro entries new h hnew
    unfold changeOpen at hnew
    split at hnew
    next kind inner hlookup =>
      obtain ⟨changed, hchanged, rfl⟩ := Option.map_eq_some_iff.mp hnew
      have hinner := (h.of_lookup hlookup).entries
      exact h.replace key ((ih _ _ hinner hchanged).table kind)
    next kind values hlookup =>
      have harray := h.of_lookup hlookup
      split at hnew
      next tableKind inner hlast =>
        obtain ⟨changed, hchanged, rfl⟩ := Option.map_eq_some_iff.mp hnew
        have hinner := (harray.items _ (List.mem_of_getLast? hlast)).entries
        exact h.replace key (harray.setLast ((ih _ _ hinner hchanged).table tableKind))
      next => cases hnew
    next => cases hnew

end Entries

theorem Fault.check_eq_ok {α : Type} {attempt : Option α} {a : α} :
    Fault.check attempt = .ok a ↔ attempt = some a := by
  cases attempt <;> simp [check]

theorem Scalar.value?_distinct {text : List Char} {value : Value}
    (h : Scalar.value? text = some value) : value.Distinct := by
  unfold Scalar.value? at h
  split at h
  · cases h
    exact .boolean true
  split at h
  · cases h
    exact .boolean false
  split at h
  · cases h
    exact .dateTime _
  split at h
  · cases h
    exact .integer _
  split at h
  · cases h
    exact .illegible
  · obtain ⟨f, -, rfl⟩ := Option.map_eq_some_iff.mp h
    exact .float f

theorem Piece.value?_distinct {piece : Piece} {value : Value} (h : piece.value? = some value) :
    value.Distinct := by
  cases piece with
  | quoted text multiline =>
    obtain ⟨s, -, rfl⟩ := Option.map_eq_some_iff.mp h
    exact .string _
  | word text => exact Scalar.value?_distinct h

mutual

theorem Node.value_distinct : ∀ (node : Node) {value : Value},
    node.value = .ok value → value.Distinct
  | .scalar piece, _, h => Piece.value?_distinct (Fault.check_eq_ok.mp h)
  | .array items, _, h => by
    obtain ⟨values, hvalues, hok⟩ := bind_eq_ok.mp h
    cases hok
    exact .array .listed (Node.values_distinct items hvalues)
  | .table entries, _, h => by
    obtain ⟨made, hmade, hok⟩ := bind_eq_ok.mp h
    cases hok
    exact (Node.assign_distinct entries .nil hmade).table .inline

theorem Node.values_distinct : ∀ (items : List Node) {values : List Value},
    Node.values items = .ok values → ∀ value ∈ values, value.Distinct
  | [], _, h => by
    cases h
    exact fun _ hvalue => absurd hvalue List.not_mem_nil
  | node :: rest, _, h => by
    obtain ⟨value, hvalue, h⟩ := bind_eq_ok.mp h
    obtain ⟨values, hvalues, hok⟩ := bind_eq_ok.mp h
    cases hok
    exact List.forall_mem_cons.mpr
      ⟨Node.value_distinct node hvalue, Node.values_distinct rest hvalues⟩

theorem Node.assign_distinct : ∀ (rows : List (List Piece × Node)) {made new : Entries},
    made.Distinct → Node.assign made rows = .ok new → new.Distinct
  | [], _, _, hmade, h => by
    cases h
    exact hmade
  | (keys, node) :: rest, _, _, hmade, h => by
    obtain ⟨path, -, h⟩ := bind_eq_ok.mp h
    obtain ⟨value, hvalue, h⟩ := bind_eq_ok.mp h
    obtain ⟨made, hassign, h⟩ := bind_eq_ok.mp h
    have hkeeps := Entries.keeps_assign .inline path (Node.value_distinct node hvalue)
    exact Node.assign_distinct rest (hkeeps _ _ hmade (Fault.check_eq_ok.mp hassign)) h

end

namespace Document

/-- The tables of a document under way, those of an open element among them. -/
structure Distinct (d : Document) : Prop where
  root : d.root.Distinct
  element : ∀ path entries, d.opened = .element path entries → entries.Distinct

theorem Distinct.close {d : Document} {root : Entries} (h : d.Distinct)
    (hok : d.close = .ok root) : root.Distinct := by
  unfold Document.close at hok
  split at hok
  next =>
    cases hok
    exact h.root
  next path entries hopened =>
    have hkeeps := Entries.keeps_addElement path (h.element path entries hopened)
    exact hkeeps _ _ h.root (Fault.check_eq_ok.mp hok)

theorem Distinct.set {d new : Document} {path : KeyPath} {value : Value} (h : d.Distinct)
    (hvalue : value.Distinct) (hok : d.set path value = some new) : new.Distinct := by
  have hassign := Entries.keeps_assign .headed path hvalue
  unfold Document.set at hok
  split at hok
  next inside hopened =>
    obtain ⟨root, hroot, rfl⟩ := Option.map_eq_some_iff.mp hok
    exact ⟨Entries.keeps_changeOpen hassign inside _ _ h.root hroot, h.element⟩
  next header entries hopened =>
    obtain ⟨changed, hchanged, rfl⟩ := Option.map_eq_some_iff.mp hok
    refine ⟨h.root, fun _ _ heq => ?_⟩
    cases heq
    exact hassign _ _ (h.element header entries hopened) hchanged

theorem Distinct.apply {d new : Document} {line : Line} (h : d.Distinct)
    (hok : d.apply line = .ok new) : new.Distinct := by
  cases line with
  | header keys =>
    obtain ⟨root, hclose, hok⟩ := bind_eq_ok.mp hok
    obtain ⟨path, -, hok⟩ := bind_eq_ok.mp hok
    obtain ⟨opened, hopen, hok⟩ := bind_eq_ok.mp hok
    cases hok
    have hroot := Entries.keeps_openTable path _ _ (h.close hclose) (Fault.check_eq_ok.mp hopen)
    exact ⟨hroot, fun _ _ heq => nomatch heq⟩
  | elementHeader keys =>
    obtain ⟨root, hclose, hok⟩ := bind_eq_ok.mp hok
    obtain ⟨path, -, hok⟩ := bind_eq_ok.mp hok
    cases hok
    refine ⟨h.close hclose, fun _ _ heq => ?_⟩
    cases heq
    exact .nil
  | entry keys node =>
    obtain ⟨path, -, hok⟩ := bind_eq_ok.mp hok
    obtain ⟨value, hvalue, hok⟩ := bind_eq_ok.mp hok
    exact h.set (Node.value_distinct node hvalue) (Fault.check_eq_ok.mp hok)

end Document

/-- A document that is read has no key twice in any of its tables. -/
theorem distinct_of_parse {text : String} {entries : Entries} (h : parse text = .ok entries) :
    entries.Distinct := by
  obtain ⟨lines, -, h⟩ := bind_eq_ok.mp h
  obtain ⟨d, hd, h⟩ := bind_eq_ok.mp h
  have hempty : Document.empty.Distinct := ⟨.nil, fun _ _ heq => nomatch heq⟩
  exact (foldlM_invariant (fun _ _ _ h hok => h.apply hok) hempty hd).close h

end LoginNames.Toml
