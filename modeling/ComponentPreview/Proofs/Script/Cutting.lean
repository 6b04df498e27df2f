import ComponentPreview.Proofs.Script.Parameter

/-!
# Cutting at commas

A text is cut at a comma if and only if the depth before the comma is zero
(`mem_cutPlaces_cutFrom`), and joining the parts gives the text back. Brackets need not match: below
zero nothing is cut until the depth has come back up.
-/

namespace ComponentPreview.Brackets

/-- What the character at a place adds to the depth. The angle of an arrow adds nothing. -/
def weight (text : List Char) (place : Nat) : Int :=
  match text[place]? with
  | some '(' | some '[' | some '\x7b' | some '<' => 1
  | some ')' | some ']' | some '\x7d' => -1
  | some '>' => if 0 < place ∧ text[place - 1]? = some '=' then 0 else -1
  | _ => 0

/-- The depth before a place. -/
def depthBefore (text : List Char) : Nat → Int
  | 0 => 0
  | place + 1 => depthBefore text place + weight text place

/-- A comma outside of all brackets. -/
def IsLevelComma (text : List Char) (place : Nat) : Prop :=
  text[place]? = some ',' ∧ depthBefore text place = 0

/-- The places between the parts of a text, if one character stands between any two of them and the
first begins at `start`. -/
def cutPlaces (start : Nat) : List (List Char) → List Nat
  | part :: other :: others =>
      (start + part.length) :: cutPlaces (start + part.length + 1) (other :: others)
  | _ => []

theorem after_eq_add_weight (read : List Char) (c : Char) (rest : List Char) (depth : Int) :
    after read.getLast? depth c = depth + weight (read ++ c :: rest) read.length := by
  have here : (read ++ c :: rest)[read.length]? = some c := by simp
  have before : (0 < read.length ∧ (read ++ c :: rest)[read.length - 1]? = some '=') ↔
      read.getLast? = some '=' := by
    rcases List.eq_nil_or_concat read with rfl | ⟨front, last, rfl⟩ <;> simp
  simp only [weight, here, before]
  split <;> simp_all [after, opens, closes, Int.sub_eq_add_neg]
  -- What is left is the angle, which may end an arrow.
  by_cases arrow : read.getLast? = some '=' <;> simp [arrow]

/-- A step of the scan takes the depth from one place to the next. -/
theorem depthBefore_succ (read : List Char) (c : Char) (rest : List Char) :
    depthBefore (read ++ c :: rest) (read.length + 1) =
      after read.getLast? (depthBefore (read ++ c :: rest) read.length) c := by
  rw [after_eq_add_weight read c rest, depthBefore]

theorem le_and_isLevelComma_iff {text : List Char} {first place : Nat} :
    first ≤ place ∧ IsLevelComma text place ↔
      place = first ∧ IsLevelComma text first ∨
        first + 1 ≤ place ∧ IsLevelComma text place := by
  constructor
  · rintro ⟨le, comma⟩
    rcases Nat.eq_or_lt_of_le le with rfl | lt
    · exact .inl ⟨rfl, comma⟩
    · exact .inr ⟨lt, comma⟩
  · rintro (⟨rfl, comma⟩ | ⟨lt, comma⟩)
    · exact ⟨Nat.le_refl _, comma⟩
    · exact ⟨Nat.le_of_succ_le lt, comma⟩

/-! ## The scan -/

theorem cutFrom_ne_nil (text : List Char) (previous : Option Char) (depth : Int) (part : List Char)
    (parts : List (List Char)) : cutFrom previous depth part parts text ≠ [] := by
  induction text generalizing previous depth part parts with
  | nil => simp [cutFrom]
  | cons c rest ih =>
      rw [cutFrom]
      split
      · exact ih _ _ _ _
      · exact ih _ _ _ _

/-- The parts that are finished stay as they are. -/
theorem cutFrom_eq_append (text : List Char) (previous : Option Char) (depth : Int)
    (part : List Char) (parts : List (List Char)) :
    cutFrom previous depth part parts text =
      parts.reverse ++ cutFrom previous depth part [] text := by
  induction text generalizing previous depth part parts with
  | nil => simp [cutFrom]
  | cons c rest ih =>
      rw [cutFrom, cutFrom]
      split
      · rw [ih _ _ _ (part.reverse :: parts), ih _ _ _ [part.reverse], List.reverse_cons,
          List.append_assoc, List.reverse_singleton]
      · exact ih _ _ _ _

/-- Where a part ends, its end is the first place, and the next part begins behind it. -/
theorem cutPlaces_cutFrom_ended (start : Nat) (previous : Option Char) (depth : Int)
    (part text : List Char) :
    cutPlaces start (cutFrom previous depth [] [part.reverse] text) =
      (start + part.length) ::
        cutPlaces (start + part.length + 1) (cutFrom previous depth [] [] text) := by
  rw [cutFrom_eq_append, List.reverse_singleton, List.singleton_append]
  cases parts_eq : cutFrom previous depth [] [] text with
  | nil => exact absurd parts_eq (cutFrom_ne_nil _ _ _ _ _)
  | cons other others => rw [cutPlaces, List.length_reverse]

/-- The scan carries the depth before its place and the place at which its part begins. -/
theorem mem_cutPlaces_cutFrom (read part rest : List Char) (start place : Nat)
    (begun : start + part.length = read.length) :
    place ∈ cutPlaces start
        (cutFrom read.getLast? (depthBefore (read ++ rest) read.length) part [] rest) ↔
      read.length ≤ place ∧ IsLevelComma (read ++ rest) place := by
  induction rest generalizing read part start with
  | nil =>
      have ended : ¬(read.length ≤ place ∧ IsLevelComma (read ++ []) place) := by
        rintro ⟨le, comma, -⟩
        rw [List.append_nil, List.getElem?_eq_none le] at comma
        cases comma
      simpa [cutFrom, cutPlaces] using ended
  | cons c rest ih =>
      have here : (read ++ c :: rest)[read.length]? = some c := by simp
      have behind (part : List Char) (start : Nat) (begun : start + part.length = read.length + 1) :
          place ∈ cutPlaces start (cutFrom (some c)
              (after read.getLast? (depthBefore (read ++ c :: rest) read.length) c) part [] rest) ↔
            read.length + 1 ≤ place ∧ IsLevelComma (read ++ c :: rest) place := by
        simpa [depthBefore_succ] using ih (read ++ [c]) part start (by simpa using begun)
      rw [cutFrom, le_and_isLevelComma_iff]
      split
      · next level =>
          obtain ⟨rfl, level⟩ : c = ',' ∧ depthBefore (read ++ c :: rest) read.length = 0 := by
            simpa using level
          have isCut : IsLevelComma (read ++ ',' :: rest) read.length := ⟨here, level⟩
          rw [cutPlaces_cutFrom_ended, begun, List.mem_cons, and_iff_left isCut]
          exact or_congr_right (behind [] (read.length + 1) rfl)
      · next level =>
          have uncut : ¬IsLevelComma (read ++ c :: rest) read.length := by
            rintro ⟨comma, zero⟩
            rw [here] at comma
            cases comma
            exact level (by simp [zero])
          rw [behind (c :: part) start (by simp; omega)]
          simp [uncut]

/-- Nothing is lost, and the commas outside of all brackets are cut at, those and no others. -/
theorem cutAtCommas_cuts_at_level_commas (text : List Char) :
    cutAtCommas text ≠ [] ∧ Text.join [','] (cutAtCommas text) = text ∧
      ∀ place, place ∈ cutPlaces 0 (cutAtCommas text) ↔
        text[place]? = some ',' ∧ depthBefore text place = 0 := by
  refine ⟨cutFrom_ne_nil _ _ _ _ _, join_cutAtCommas text, fun place => ?_⟩
  have cuts := mem_cutPlaces_cutFrom [] [] text 0 place rfl
  simpa [cutAtCommas, IsLevelComma, depthBefore] using cuts

example : cutAtCommas "a),b(,=>,c>,<d".toList =
    ["a),b(".toList, "=>".toList, "c>,<d".toList] := by decide

end ComponentPreview.Brackets
