import ComponentPreview.Text.Markup
import ComponentPreview.Unicode.Upper
import Mathlib.Algebra.GroupWithZero.Nat
import Mathlib.Data.List.Forall2

/-!
# Tags inside markup

How often a text reads as the start of a tag, letter case aside. What is escaped holds no angle
bracket, so it neither starts such a tag nor goes on with one that stands before it.
-/

namespace ComponentPreview.Markup

theorem toList_escapeWith (entity? : Char → Option String) (text : String) :
    (escapeWith entity? text).toList = text.toList.flatMap fun c =>
      match entity? c with
      | some entity => entity.toList
      | none => [c] := by
  have step : ∀ (cs : List Char) (done : String),
      (cs.foldl
        (fun done c => match entity? c with
          | some entity => done ++ entity
          | none => done.push c) done).toList =
        done.toList ++ cs.flatMap fun c => match entity? c with
          | some entity => entity.toList
          | none => [c] := by
    intro cs
    induction cs with
    | nil => simp
    | cons c cs ih =>
        intro done
        rw [List.foldl_cons, ih, List.flatMap_cons, ← List.append_assoc]
        congr 1
        split <;> simp
  exact (step text.toList "").trans (by simp)

/-- A character that gives way to an entity, and that no entity holds, is escaped. -/
theorem not_mem_escapeWith {entity? : Char → Option String} {mark : Char}
    (escaped : (entity? mark).isSome = true)
    (clean : ∀ c entity, entity? c = some entity → mark ∉ entity.toList) (text : String) :
    mark ∉ (escapeWith entity? text).toList := by
  rw [toList_escapeWith, List.mem_flatMap]
  rintro ⟨c, -, mem⟩
  split at mem
  · next entity found => exact clean c entity found mem
  · next missing =>
      rw [List.mem_singleton] at mem
      rw [mem, missing] at escaped
      cases escaped

theorem angle_not_mem_escape (text : String) : '<' ∉ (escape text).toList := by
  refine not_mem_escapeWith rfl ?_ text
  intro c entity found
  unfold entity? at found
  split at found <;> first | (cases found; decide) | cases found

/-! ## Counting tags -/

/-- How often a text reads as `tag`, letter case aside. -/
def countTag (tag : List Char) : List Char → Nat
  | [] => 0
  | c :: rest =>
      (if tag.isPrefixOf ((c :: rest).map asciiLower) then 1 else 0) + countTag tag rest

def openTag : List Char := ['<', 's', 'c', 'r', 'i', 'p', 't']

def closeTag : List Char := ['<', '/', 's', 'c', 'r', 'i', 'p', 't']

/-- Whether a text differs from a tag at a place that both have. -/
def differs : List Char → List Char → Bool
  | t :: tag, c :: text => asciiLower c != t || differs tag text
  | _, _ => false

/-- Whether no angle bracket of a text begins a tag of a script, whatever follows the text. -/
def isHarmless : List Char → Bool
  | [] => true
  | c :: rest =>
      (c != '<' || differs openTag (c :: rest) && differs closeTag (c :: rest)) && isHarmless rest

theorem differs_append {tag text : List Char} (h : differs tag text = true) (after : List Char) :
    differs tag (text ++ after) = true := by
  induction tag generalizing text with
  | nil => cases text <;> cases h
  | cons t tag ih =>
      cases text with
      | nil => cases h
      | cons c text =>
          rw [differs, Bool.or_eq_true] at h
          rw [List.cons_append, differs, Bool.or_eq_true]
          exact h.imp_right ih

theorem not_isPrefixOf_of_differs {tag text : List Char} (h : differs tag text = true) :
    ¬tag.isPrefixOf (text.map asciiLower) = true := by
  induction tag generalizing text with
  | nil => cases text <;> cases h
  | cons t tag ih =>
      cases text with
      | nil => cases h
      | cons c text =>
          rw [differs, Bool.or_eq_true, bne_iff_ne] at h
          rw [List.map_cons, List.isPrefixOf, Bool.and_eq_true, beq_iff_eq]
          rintro ⟨same, others⟩
          rcases h with other | h
          · exact other same.symm
          · exact ih h others

theorem asciiLower_ne_angle {c : Char} (h : c ≠ '<') : asciiLower c ≠ '<' := by
  unfold asciiLower
  split
  · decide
  · unfold Char.toLower
    split
    · next upper =>
        intro eq
        have low : (65 : Nat) ≤ c.toNat := upper.1
        have sum : (c.val + ('a'.val - 'A'.val)).toNat = (c.toNat + 32) % 4294967296 := by
          rw [UInt32.toNat_add]
          rfl
        have code : (c.val + ('a'.val - 'A'.val)).toNat = 60 := by
          simpa using congrArg Char.toNat eq
        have high : c.toNat ≤ 90 := upper.2
        omega
    · exact h

theorem isHarmless_of_not_mem {text : List Char} (h : '<' ∉ text) : isHarmless text = true := by
  induction text with
  | nil => rfl
  | cons c rest ih =>
      rw [List.mem_cons, not_or] at h
      simp [isHarmless, ih h.2, Ne.symm h.1]

theorem isHarmless_append {first second : List Char} (h : isHarmless first = true)
    (h' : isHarmless second = true) : isHarmless (first ++ second) = true := by
  induction first with
  | nil => exact h'
  | cons c rest ih =>
      rw [isHarmless, Bool.and_eq_true] at h
      rw [List.cons_append, isHarmless, Bool.and_eq_true]
      refine ⟨?_, ih h.2⟩
      rw [Bool.or_eq_true, Bool.and_eq_true] at h ⊢
      refine h.1.imp_right ?_
      rintro ⟨opening, closing⟩
      exact ⟨differs_append opening second, differs_append closing second⟩

/-! ## Texts that begin no tag -/

def Harmless (text : String) : Prop :=
  isHarmless text.toList = true

namespace Harmless

variable {first second : String}

/-- For constant texts, whose characters are at hand. -/
theorem ofList {text : List Char} (h : isHarmless text = true) : Harmless (String.ofList text) := by
  rwa [Harmless, String.toList_ofList]

theorem of_not_mem {text : String} (h : '<' ∉ text.toList) : Harmless text :=
  isHarmless_of_not_mem h

theorem append (h : Harmless first) (h' : Harmless second) : Harmless (first ++ second) := by
  rw [Harmless, String.toList_append]
  exact isHarmless_append h h'

theorem join {texts : List String} (h : ∀ text ∈ texts, Harmless text) :
    Harmless (String.join texts) := by
  rw [Harmless, String.toList_join]
  induction texts with
  | nil => rfl
  | cons text texts ih =>
      obtain ⟨first, others⟩ := List.forall_mem_cons.1 h
      rw [List.flatMap_cons]
      exact isHarmless_append first (ih others)

theorem intercalate {separator : String} (between : Harmless separator) {texts : List String}
    (h : ∀ text ∈ texts, Harmless text) : Harmless (separator.intercalate texts) := by
  induction texts with
  | nil => exact ofList rfl
  | cons text texts ih =>
      obtain ⟨first, others⟩ := List.forall_mem_cons.1 h
      cases texts with
      | nil => rwa [String.intercalate_singleton]
      | cons second texts =>
          rw [String.intercalate_cons_cons]
          exact (first.append between).append (ih others)

theorem lines {texts : List String} (h : ∀ text ∈ texts, Harmless text) :
    Harmless ("\n".intercalate texts) :=
  intercalate (ofList rfl) h

theorem escape (text : String) : Harmless (escape text) :=
  of_not_mem (angle_not_mem_escape text)

theorem toString_nat (n : Nat) : Harmless (toString n) := by
  refine of_not_mem fun mem => ?_
  have digits : (toString n).toList = Nat.toDigits 10 n := Nat.toList_repr
  rw [digits] at mem
  exact absurd (Nat.isDigit_of_mem_toDigits (by decide) (by decide) mem) (by decide)

end Harmless

/-- Whether a text opens and closes so many scripts, whatever follows it. -/
structure Scripts (opened closed : Nat) (text : String) : Prop where
  opens : ∀ after, countTag openTag (text.toList ++ after) = opened + countTag openTag after
  closes : ∀ after, countTag closeTag (text.toList ++ after) = closed + countTag closeTag after

namespace Scripts

variable {opened closed opened' closed' : Nat} {first second : String}

theorem countTag_eq (scripts : Scripts opened closed first) :
    countTag openTag first.toList = opened ∧ countTag closeTag first.toList = closed := by
  have opens := scripts.opens []
  have closes := scripts.closes []
  rw [List.append_nil, countTag, Nat.add_zero] at opens closes
  exact ⟨opens, closes⟩

theorem of_harmless {text : String} (h : Harmless text) : Scripts 0 0 text := by
  suffices step : ∀ chars after, isHarmless chars = true →
      countTag openTag (chars ++ after) = countTag openTag after ∧
      countTag closeTag (chars ++ after) = countTag closeTag after by
    refine ⟨fun after => ?_, fun after => ?_⟩
    · rw [(step _ after h).1, Nat.zero_add]
    · rw [(step _ after h).2, Nat.zero_add]
  intro chars after h
  induction chars with
  | nil => exact ⟨rfl, rfl⟩
  | cons c rest ih =>
      rw [isHarmless, Bool.and_eq_true, Bool.or_eq_true, Bool.and_eq_true, bne_iff_ne] at h
      obtain ⟨begins, others⟩ := h
      have differ : differs openTag (c :: rest) = true ∧ differs closeTag (c :: rest) = true := by
        rcases begins with other | both
        · simp [openTag, closeTag, differs, asciiLower_ne_angle other]
        · exact both
      have opens := not_isPrefixOf_of_differs (differs_append differ.1 after)
      have closes := not_isPrefixOf_of_differs (differs_append differ.2 after)
      rw [List.cons_append] at opens closes ⊢
      rw [countTag, countTag, if_neg opens, if_neg closes, Nat.zero_add, Nat.zero_add]
      exact ih others

theorem append (scripts : Scripts opened closed first) (scripts' : Scripts opened' closed' second) :
    Scripts (opened + opened') (closed + closed') (first ++ second) := by
  refine ⟨?_, ?_⟩
  · intro after
    rw [String.toList_append, List.append_assoc, scripts.opens, scripts'.opens, Nat.add_assoc]
  · intro after
    rw [String.toList_append, List.append_assoc, scripts.closes, scripts'.closes, Nat.add_assoc]

theorem opening {rest : List Char} (h : isHarmless rest = true) :
    Scripts 1 0 (String.ofList ('<' :: 's' :: 'c' :: 'r' :: 'i' :: 'p' :: 't' :: rest)) := by
  have start : Scripts 1 0 (String.ofList openTag) := by
    refine ⟨?_, ?_⟩ <;> intro after <;> simp [openTag, closeTag, countTag, asciiLower]
  have whole := start.append (of_harmless (Harmless.ofList h))
  rwa [← String.ofList_append] at whole

theorem closing {rest : List Char} (h : isHarmless rest = true) :
    Scripts 0 1 (String.ofList ('<' :: '/' :: 's' :: 'c' :: 'r' :: 'i' :: 'p' :: 't' :: rest)) := by
  have start : Scripts 0 1 (String.ofList closeTag) := by
    refine ⟨?_, ?_⟩ <;> intro after <;> simp [openTag, closeTag, countTag, asciiLower]
  have whole := start.append (of_harmless (Harmless.ofList h))
  rwa [← String.ofList_append] at whole

theorem lines {counts : List (Nat × Nat)} {texts : List String}
    (h : List.Forall₂ (fun count text => Scripts count.1 count.2 text) counts texts) :
    Scripts (counts.map Prod.fst).sum (counts.map Prod.snd).sum ("\n".intercalate texts) := by
  induction h with
  | nil => exact of_harmless (Harmless.ofList rfl)
  | @cons count text counts texts first others ih =>
      cases others with
      | nil => simpa using first
      | cons second others =>
          have newline : Scripts 0 0 "\n" := of_harmless (Harmless.ofList rfl)
          rw [String.intercalate_cons_cons]
          simpa using (first.append newline).append ih

/-- Lines of which one alone opens or closes scripts. -/
theorem around {before after : List String} {line : String}
    (front : ∀ text ∈ before, Harmless text) (scripts : Scripts opened closed line)
    (back : ∀ text ∈ after, Harmless text) :
    Scripts opened closed ("\n".intercalate (before ++ line :: after)) := by
  have none {texts : List String} (h : ∀ text ∈ texts, Harmless text) :
      List.Forall₂ (fun count text => Scripts count.1 count.2 text)
        (texts.map fun _ => (0, 0)) texts :=
    List.forall₂_map_left_iff.2 (List.forall₂_same.2 fun text mem => of_harmless (h text mem))
  have rest : List.Forall₂ (fun count text => Scripts count.1 count.2 text)
      ((opened, closed) :: after.map fun _ => (0, 0)) (line :: after) := .cons scripts (none back)
  simpa using lines (List.rel_append (none front) rest)

end Scripts

end ComponentPreview.Markup
