import ComponentPreview.Proofs.Script.Step
import ComponentPreview.Proofs.Script.Token

/-!
# Primitives that no pass assembles

Where a pass takes away a type or the keyword of an export, and where it puts in the assignment of
the default export, no primitive of dynamic code comes together: what stands around such a place
belongs to none.
-/

namespace ComponentPreview

open Edit Pattern

theorem not_isNameChar_of_isBlank {c : Char} (h : isBlank c = true) : isNameChar c = false := by
  have table : ∀ n ∈ List.range' 9 5 ++ List.range' 28 5 ++ [0x85, 0xa0, 0x1680] ++
      List.range' 0x2000 11 ++ [0x2028, 0x2029, 0x202f, 0x205f, 0x3000],
      isNameChar (Char.ofNat n) = false := by decide +kernel
  rw [← Char.ofNat_toNat c]
  refine table c.toNat ?_
  simp only [isBlank, Bool.or_eq_true, Bool.and_eq_true, decide_eq_true_eq, beq_iff_eq] at h
  simp only [List.mem_append, List.mem_range'_1, List.mem_cons, List.not_mem_nil, or_false]
  omega

theorem isWord_of_isBlank {c : Char} (blank : isBlank c = true) : isWord c = false := by
  have other := not_isNameChar_of_isBlank blank
  rw [isNameChar, Bool.or_eq_false_iff] at other
  exact other.1

namespace DynamicCode

theorem not_isWord_of_isTextMark {c : Char} (h : isTextMark c = true) : isWord c = false := by
  simp only [isTextMark, isQuoteMark, Bool.or_eq_true, beq_iff_eq] at h
  rcases h with (rfl | rfl) | rfl <;> decide

/-- The names of the functions that a primitive calls. -/
def names : DynamicCode → List (List Char)
  | evaluation => ["eval".toList]
  | functionConstructor => ["Function".toList]
  | textTimer => ["setTimeout".toList, "setInterval".toList]

/-- A primitive reads as a name, a parenthesis after blanks and, if anything, the blanks and the
quote mark that follow. -/
theorem reads_parts {primitive : DynamicCode} {word : List Char}
    (h : primitive.token.reads word) :
    ∃ name ∈ names primitive, ∃ blanks tail, word = name ++ (blanks ++ '(' :: tail) ∧
      (∀ c ∈ blanks, isBlank c = true) ∧ (∀ c ∈ tail, isBlank c = true ∨ isTextMark c = true) ∧
      ∀ c ∈ tail.getLast?, isTextMark c = true := by
  cases primitive with
  | evaluation =>
      obtain ⟨blanks, areBlank, rfl⟩ := h
      exact ⟨_, List.mem_singleton_self _, blanks, [], rfl, areBlank, by simp, by simp⟩
  | functionConstructor =>
      obtain ⟨blanks, areBlank, rfl⟩ := h
      exact ⟨_, List.mem_singleton_self _, blanks, [], rfl, areBlank, by simp, by simp⟩
  | textTimer =>
      obtain ⟨name, mem, blanks, blanks', mark, areBlank, areBlank', isMark, rfl⟩ := h
      refine ⟨"set".toList ++ name, ?_, blanks, blanks' ++ [mark], by simp, areBlank, ?_, ?_⟩
      · rcases List.mem_cons.1 mem with rfl | mem
        · decide
        · rw [List.mem_singleton.1 mem]
          decide
      · intro c mem
        rcases List.mem_append.1 mem with mem | mem
        · exact .inl (areBlank' c mem)
        · exact .inr (List.mem_singleton.1 mem ▸ isMark)
      · simpa using isMark

/-- Whether a character stands in no primitive. -/
def isForeign (c : Char) : Bool :=
  !isBlank c && c != '(' && !isTextMark c && all.all fun primitive =>
    (names primitive).all fun name => !name.contains c

variable {primitive : DynamicCode} {word : List Char}

theorem not_mem_of_isForeign {c : Char} (h : primitive.token.reads word)
    (foreign : isForeign c = true) : c ∉ word := by
  obtain ⟨name, mem, blanks, tail, rfl, areBlank, tails, -⟩ := reads_parts h
  simp only [isForeign, Bool.and_eq_true, Bool.not_eq_true', bne_iff_ne,
    List.all_eq_true] at foreign
  obtain ⟨⟨⟨blank, opener⟩, mark⟩, named⟩ := foreign
  have known : primitive ∈ all := by cases primitive <;> decide
  have absent : c ∉ name := by simpa using named primitive known name mem
  simp only [List.mem_append, List.mem_cons, not_or]
  refine ⟨absent, fun within => ?_, opener, fun within => ?_⟩
  · rw [areBlank c within] at blank
    cases blank
  · rcases tails c within with h | h
    · rw [h] at blank
      cases blank
    · rw [h] at mark
      cases mark

theorem opener_mem_of_reads (h : primitive.token.reads word) : '(' ∈ word := by
  obtain ⟨name, -, blanks, tail, rfl, -⟩ := reads_parts h
  simp

theorem head_of_reads (h : primitive.token.reads word) :
    ∃ c rest, word = c :: rest ∧ c ∈ ['e', 'F', 's'] := by
  obtain ⟨name, mem, blanks, tail, rfl, -⟩ := reads_parts h
  have heads : ∀ name ∈ names primitive, ∃ c rest, name = c :: rest ∧ c ∈ ['e', 'F', 's'] := by
    cases primitive <;> simp [names]
  obtain ⟨c, rest, rfl, initial⟩ := heads name mem
  exact ⟨c, _, rfl, initial⟩

theorem last_of_reads (h : primitive.token.reads word) :
    ∀ c ∈ word.getLast?, isBlank c = false := by
  obtain ⟨name, -, blanks, tail, rfl, -, -, last⟩ := reads_parts h
  intro c mem
  rw [List.getLast?_append, List.getLast?_append, List.getLast?_cons] at mem
  cases ended : tail.getLast? with
  | none =>
      rw [ended] at mem
      cases mem
      decide
  | some d =>
      rw [ended] at mem
      cases mem
      exact isBlank_of_isTextMark (last _ ended)

/-- Within a primitive no word character follows another character. -/
theorem isWord_of_reads {first last : List Char} {c : Char}
    (h : primitive.token.reads (first ++ c :: last)) (within : isWord c = true) :
    ∀ d ∈ first.getLast?, isWord d = true := by
  obtain ⟨name, mem, blanks, tail, eq, areBlank, tails, -⟩ := reads_parts h
  have letters : (names primitive).all (·.all isWord) = true := by cases primitive <;> decide
  have others : ∀ d ∈ blanks ++ '(' :: tail, isWord d = false := by
    intro d mem
    rcases List.mem_append.1 mem with mem | mem
    · exact isWord_of_isBlank (areBlank d mem)
    · rcases List.mem_cons.1 mem with rfl | mem
      · decide
      · exact (tails d mem).elim isWord_of_isBlank not_isWord_of_isTextMark
  rcases List.append_eq_append_iff.1 eq with ⟨more, rfl, -⟩ | ⟨more, -, eq⟩
  · intro d ended
    have named := List.all_eq_true.1 letters _ mem
    exact List.all_eq_true.1 named d (List.mem_append_left _ (List.mem_of_getLast? ended))
  · have mem : c ∈ blanks ++ '(' :: tail := by
      rw [eq]
      simp
    rw [others c mem] at within
    cases within

end DynamicCode

/-! ## Guarded edits -/

theorem not_beginsAfterBlanks {mark : Char} {word rest : List Char} (some : word ≠ [])
    (other : mark ∉ word) (last : ∀ c ∈ word.getLast?, isBlank c = false) :
    beginsAfterBlanks mark (word ++ rest) = false := by
  induction word with
  | nil => exact absurd rfl some
  | cons c word ih =>
      rw [List.mem_cons, not_or] at other
      rw [List.cons_append, beginsAfterBlanks, Bool.or_eq_false_iff, Bool.and_eq_false_iff]
      refine ⟨beq_false_of_ne (Ne.symm other.1), ?_⟩
      cases word with
      | nil => exact .inl (last c rfl)
      | cons d word => exact .inr (ih (List.cons_ne_nil _ _) other.2 (by simpa using last))

theorem beginsAfterBlanks_append {mark : Char} {blanks text : List Char}
    (areBlank : ∀ c ∈ blanks, isBlank c = true) (h : beginsAfterBlanks mark text = true) :
    beginsAfterBlanks mark (blanks ++ text) = true := by
  induction blanks with
  | nil => exact h
  | cons c blanks ih =>
      obtain ⟨first, others⟩ := List.forall_mem_cons.1 areBlank
      rw [List.cons_append, beginsAfterBlanks, first, ih others, Bool.and_self, Bool.or_true]

namespace DynamicCode

variable {primitive : DynamicCode} {word right : List Char} {edit : List Change}
  {marks : List Char}

/-- No end of a primitive begins with a foreign mark, blanks aside. -/
theorem not_beginsWith_of_reads {word₁ word₂ : List Char}
    (h : primitive.token.reads (word₁ ++ word₂)) (some : word₂ ≠ [])
    (foreign : marks.all isForeign = true) : ¬BeginsWith marks (word₂ ++ right) := by
  rintro ⟨mark, mem, begins⟩
  have absent := not_mem_of_isForeign h (List.all_eq_true.1 foreign mark mem)
  have last : ∀ c ∈ word₂.getLast?, isBlank c = false := by
    intro c ended
    refine last_of_reads h c ?_
    rw [List.getLast?_append, Option.mem_def.1 ended]
    rfl
  rw [not_beginsAfterBlanks some (fun within => absent (List.mem_append_right _ within)) last]
    at begins
  cases begins

/-- A primitive comes from the text before an edit whose changes leave nothing but blanks before
foreign marks. -/
theorem occursIn_before_of_guarded (guarded : Guarded marks edit [])
    (foreign : marks.all isForeign = true)
    (h : primitive.token.OccursIn (after edit)) : primitive.token.OccursIn (before edit) := by
  have guard : ∀ first old new last, edit = first ++ .put old new :: last →
      (∀ c ∈ new, isBlank c = true) ∧ BeginsWith marks (after last) := by
    intro first old new last eq
    obtain ⟨blank, begins⟩ := guarded first old new last eq
    rw [List.append_nil] at begins
    exact ⟨blank, begins⟩
  refine occursIn_before (fun _ => by cases primitive <;> trivial) h ?_ ?_
  · rintro left word right eq fits ⟨first, old, new, last, rfl, low, high⟩
    obtain ⟨blank, mark, mem, begins⟩ := guard first old new last rfl
    rw [after_append, after_cons, Change.after] at eq
    rcases crossing_cases eq low high with ⟨word₁, word₂, some, -, -, rfl, rest⟩ |
      ⟨new₁, new₂, -, some, rfl, rest⟩
    · have begins' := beginsAfterBlanks_append blank begins
      rw [rest] at begins'
      exact not_beginsWith_of_reads fits.reads some foreign ⟨mark, mem, begins'⟩
    · obtain ⟨c, others, rfl, initial⟩ := head_of_reads fits.reads
      obtain ⟨d, new₂, rfl⟩ := List.exists_cons_of_ne_nil some
      obtain rfl := (List.cons.inj rest).1
      have blanks := blank d (by simp)
      have letters : ∀ c ∈ ['e', 'F', 's'], isBlank c = false := by simp [isBlank]
      rw [letters d initial] at blanks
      cases blanks
  · intro first old new last word right eq rest spelled
    obtain ⟨c, others, rfl, -⟩ := head_of_reads spelled
    have begins := (guard first old new last eq).2
    rw [rest] at begins
    rw [← List.nil_append (c :: others)] at spelled
    exact absurd begins (not_beginsWith_of_reads spelled (List.cons_ne_nil _ _) foreign)

end DynamicCode

end ComponentPreview
