import ComponentPreview.Json.Reader
import Mathlib.Algebra.Group.Nat.Defs
import Mathlib.Data.List.Induction
import Mathlib.Data.List.TakeWhile

/-!
# Whole numbers of values

Reading refuses whole numbers of too many digits, so no value that was read holds one.
-/

namespace ComponentPreview.Json

/-- Whether a whole number has no more digits than are read. -/
def IsShort (value : Int) : Prop :=
  value.natAbs < 10 ^ maxDigits

/-- Whether every whole number in a value is short. -/
inductive IsMeasured : Json → Prop
  | null : IsMeasured .null
  | bool (value : Bool) : IsMeasured (.bool value)
  | int {value : Int} (short : IsShort value) : IsMeasured (.int value)
  | num (value : Double) : IsMeasured (.num value)
  | str (text : String) : IsMeasured (.str text)
  | arr {items : List Json} (each : ∀ item ∈ items, IsMeasured item) : IsMeasured (.arr items)
  | obj {fields : Named Json} (each : ∀ field ∈ fields, IsMeasured field.2) :
      IsMeasured (.obj fields)

theorem digitsToNat_lt (digits : List Char) (digit : ∀ c ∈ digits, c.isDigit = true) :
    digitsToNat digits < 10 ^ digits.length := by
  induction digits using List.reverseRecOn with
  | nil => decide
  | append_singleton digits c ih =>
      have front := ih fun d mem => digit d (List.mem_append_left _ mem)
      have last : c.toNat - 48 < 10 := by
        have bound := digit c (List.mem_append_right _ List.mem_cons_self)
        simp only [Char.isDigit, Bool.and_eq_true, decide_eq_true_eq] at bound
        have bound : c.toNat ≤ 57 := bound.2
        omega
      rw [digitsToNat, List.foldl_append, ← digitsToNat, List.length_append, List.length_singleton,
        Nat.pow_succ, List.foldl_cons, List.foldl_nil]
      omega

theorem isShort_digitsToNat (negative : Bool) {digits : List Char}
    (digit : ∀ c ∈ digits, c.isDigit = true) (short : ¬maxDigits < digits.length) :
    IsShort (if negative then -(digitsToNat digits : Int) else digitsToNat digits) := by
  have bound : digitsToNat digits < 10 ^ maxDigits :=
    (digitsToNat_lt digits digit).trans_le
      (Nat.pow_le_pow_right (by decide) (Nat.le_of_not_lt short))
  cases negative
  · simpa [IsShort] using bound
  · simpa [IsShort] using bound

theorem isMeasured_of_readMagnitude {text : List Char} {negative : Bool} {unsigned : List Char}
    {value : Json} {rest : List Char}
    (h : readMagnitude text negative unsigned = .ok (value, rest)) : value.IsMeasured := by
  unfold readMagnitude at h
  extract_lets whole at h
  have digit : ∀ c ∈ whole.1, c.isDigit = true := by
    unfold whole
    split
    · simp [Char.isDigit]
    · exact fun c mem => List.mem_takeWhile_imp mem
  clear_value whole
  dsimp only at h
  split at h
  · cases h
  split at h
  · split at h
    · cases h
    · next short =>
        cases h
        exact .int (isShort_digitsToNat negative digit short)
  · cases h
    exact .num _

theorem isMeasured_of_readPlain {text : List Char} {value : Json} {rest : List Char}
    (h : readPlain text = .ok (value, rest)) : value.IsMeasured := by
  have keyword : ∀ entry ∈ keywords, entry.2.IsMeasured := by
    simp only [keywords, List.forall_mem_cons]
    exact ⟨.null, .bool _, .bool _, .num _, .num _, .num _, by simp⟩
  unfold readPlain at h
  split at h
  · next reading found =>
      cases h
      obtain ⟨entry, mem, read⟩ := List.exists_of_findSome?_eq_some found
      dsimp only at read
      split at read
      · cases read
        exact keyword entry mem
      · cases read
  · split at h
    · exact isMeasured_of_readMagnitude h
    · exact isMeasured_of_readMagnitude h

theorem forall_mem_put (name : String) {value : Json} (measured : value.IsMeasured)
    {entries : Named Json} (each : ∀ field ∈ entries, field.2.IsMeasured) :
    ∀ field ∈ Named.put name value entries, field.2.IsMeasured := by
  induction entries with
  | nil => simpa [Named.put] using measured
  | cons entry entries ih =>
      obtain ⟨first, others⟩ := List.forall_mem_cons.1 each
      rw [Named.put]
      split
      · exact List.forall_mem_cons.2 ⟨measured, others⟩
      · exact List.forall_mem_cons.2 ⟨first, ih others⟩

/-- Whatever a number of steps reads of values, items and fields is measured. -/
structure Measures (fuel : Nat) : Prop where
  value {depth : Nat} {text : List Char} {value : Json} {rest : List Char} :
    readValue fuel depth text = .ok (value, rest) → value.IsMeasured
  items {depth : Nat} {done : List Json} {text : List Char} {value : Json} {rest : List Char} :
    (∀ item ∈ done, item.IsMeasured) → readItems fuel depth done text = .ok (value, rest) →
      value.IsMeasured
  fields {depth : Nat} {done : Named Json} {text : List Char} {value : Json} {rest : List Char} :
    (∀ field ∈ done, field.2.IsMeasured) → readFields fuel depth done text = .ok (value, rest) →
      value.IsMeasured

theorem measures_zero : Measures 0 where
  value h := by cases h
  items _ h := by cases h
  fields _ h := by cases h

theorem Measures.succ {fuel : Nat} (ih : Measures fuel) : Measures (fuel + 1) where
  value {depth text value rest} h := by
    unfold readValue at h
    split at h
    · split at h
      · cases h
        exact .str _
      · cases h
    · split at h
      · cases h
      · split at h
        · cases h
          exact .arr (by simp)
        · exact ih.items (by simp) h
    · split at h
      · cases h
      · split at h
        · cases h
          exact .obj (by simp)
        · exact ih.fields (by simp) h
    · exact isMeasured_of_readPlain h
  items {depth done text value rest} each h := by
    unfold readItems at h
    split at h
    · cases h
    · next item _ read =>
        have item := ih.value read
        split at h
        · cases h
          exact .arr (by simpa [or_imp, forall_and] using ⟨each, item⟩)
        · exact ih.items (List.forall_mem_cons.2 ⟨item, each⟩) h
        · cases h
  fields {depth done text value rest} each h := by
    unfold readFields at h
    split at h
    · split at h
      · cases h
      · split at h
        · split at h
          · cases h
          · next read =>
              have fields := fun name => forall_mem_put name (ih.value read) each
              dsimp only at h
              split at h
              · cases h
                exact .obj (fields _)
              · exact ih.fields (fields _) h
              · cases h
        · cases h
    · cases h

theorem measures (fuel : Nat) : Measures fuel := by
  induction fuel with
  | zero => exact measures_zero
  | succ fuel ih => exact ih.succ

/-- A value that was read holds short whole numbers alone. -/
theorem isMeasured_of_readText {text : List Char} {value : Json}
    (h : readText text = .ok value) : value.IsMeasured := by
  unfold readText readTextWithin at h
  split at h
  · cases h
  · next read =>
      split at h
      · cases h
        exact (measures _).value read
      · cases h

/-! ## Parts of measured values -/

theorem IsMeasured.get {value : Json} (measured : value.IsMeasured) (name : String) :
    (value.get name).IsMeasured := by
  cases measured with
  | @obj fields each =>
      rw [Json.get]
      cases found : Named.get? name fields with
      | none => exact .null
      | some value =>
          obtain ⟨field, mem, rfl⟩ := Option.map_eq_some_iff.1 found
          exact each field (List.mem_of_find?_eq_some mem)
  | _ => exact .null

theorem IsMeasured.isShort {value : Json} (measured : value.IsMeasured) {n : Int}
    (h : value.int? = some n) : IsShort n := by
  cases measured with
  | int short => exact Option.some.inj h ▸ short
  | _ => cases h

end ComponentPreview.Json
