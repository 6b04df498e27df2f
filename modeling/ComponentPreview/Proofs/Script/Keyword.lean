import ComponentPreview.Proofs.Script.Primitive

/-!
# Blocked keywords

A keyword stands for itself where it is no part of a longer name, so an end of it that is a
character of names must not touch another one. What is looked for keeps the neighbours of both ends
out of names, whatever the keyword begins and ends with. So a keyword that begins with another sign
is missed behind a name (`property_missed_behind_name`), and the keywords that are found wherever
they stand for themselves are those that have a character of names at both ends, or end in a
parenthesis (`blocked_iff_of_named_ends`).
-/

namespace ComponentPreview

open Pattern

namespace Validation

def beginsName (keyword : String) : Bool :=
  begins isNameChar keyword.toList

def endsName (keyword : String) : Bool :=
  keyword.toList.getLast?.any isNameChar

/-- A keyword where it is no part of a longer name. Before the parenthesis of a call may be white
space. -/
def bareToken (keyword : String) : Token where
  follows previous := beginsName keyword = true → ∀ c ∈ previous, isNameChar c = false
  reads word :=
    if isCall keyword = true then
      ∃ blanks, (∀ c ∈ blanks, isBlank c = true) ∧
        word = keyword.toList.dropLast ++ (blanks ++ ['('])
    else word = keyword.toList
  precedes next := endsName keyword = true → ∀ c ∈ next, isNameChar c = false

variable {keyword : String} {text word : List Char}

theorem reads_of_isCall (call : isCall keyword = true) :
    (bareToken keyword).reads word ↔ ∃ blanks, (∀ c ∈ blanks, isBlank c = true) ∧
      word = keyword.toList.dropLast ++ (blanks ++ ['(']) := by
  simp [bareToken, call]

theorem reads_of_not_isCall (other : isCall keyword = false) :
    (bareToken keyword).reads word ↔ word = keyword.toList := by
  simp [bareToken, other]

theorem bareToken_reads : (bareToken keyword).reads = (keywordToken keyword).reads := by
  funext word
  cases call : isCall keyword <;> simp [bareToken, keywordToken, call, Token.call, Token.whole]

theorem keywordToken_follows {previous : Option Char} :
    (keywordToken keyword).follows previous ↔ ∀ c ∈ previous, isNameChar c = false := by
  cases call : isCall keyword <;> simp [keywordToken, call, Token.call, Token.whole]

theorem keywordToken_precedes {next : Option Char} :
    (keywordToken keyword).precedes next ↔
      (isCall keyword = false → ∀ c ∈ next, isNameChar c = false) := by
  cases call : isCall keyword <;> simp [keywordToken, call, Token.call, Token.whole]

theorem toList_eq_of_isCall (call : isCall keyword = true) :
    keyword.toList = keyword.toList.dropLast ++ ['('] := by
  obtain ⟨name, spelled⟩ := List.getLast?_eq_some_iff.1 (beq_iff_eq.1 call)
  rw [spelled, List.dropLast_concat]

theorem isCall_eq_false_of_endsName (ends : endsName keyword = true) : isCall keyword = false := by
  cases call : isCall keyword with
  | false => rfl
  | true =>
      rw [endsName, toList_eq_of_isCall call, List.getLast?_concat] at ends
      exact absurd ends (by decide)

theorem mem_blockedIn_singleton_iff :
    keyword ∈ blockedIn [keyword] text ↔ (keywordToken keyword).OccursIn text := by
  rw [mem_blockedIn_iff, and_iff_right (List.mem_singleton_self keyword)]

/-- What is found stands for itself. -/
theorem bareToken_occursIn (h : (keywordToken keyword).OccursIn text) :
    (bareToken keyword).OccursIn text := by
  obtain ⟨left, word, right, rfl, fits⟩ := h
  refine ⟨left, word, right, rfl, ?_, bareToken_reads ▸ fits.reads, ?_⟩
  · exact fun _ => keywordToken_follows.1 fits.follows
  · exact fun ends => keywordToken_precedes.1 fits.precedes (isCall_eq_false_of_endsName ends)

/-- With characters of names at both ends, or a parenthesis at the latter, a keyword has to keep
out of the same names. -/
theorem keywordToken_occursIn (begun : beginsName keyword = true)
    (ended : isCall keyword = true ∨ endsName keyword = true)
    (h : (bareToken keyword).OccursIn text) : (keywordToken keyword).OccursIn text := by
  obtain ⟨left, word, right, rfl, fits⟩ := h
  refine ⟨left, word, right, rfl, ?_, bareToken_reads ▸ fits.reads, ?_⟩
  · exact keywordToken_follows.2 (fits.follows begun)
  · refine keywordToken_precedes.2 fun other => fits.precedes (ended.resolve_left ?_)
    simp [other]

/-! ## Keywords that are missed -/

theorem bareToken_reads_self (keyword : String) : (bareToken keyword).reads keyword.toList := by
  cases call : isCall keyword with
  | true => exact (reads_of_isCall call).2 ⟨[], by simp, toList_eq_of_isCall call⟩
  | false => exact (reads_of_not_isCall call).2 rfl

theorem length_le_of_reads (reads : (bareToken keyword).reads word) :
    keyword.toList.length ≤ word.length := by
  cases call : isCall keyword with
  | true =>
      obtain ⟨blanks, -, rfl⟩ := (reads_of_isCall call).1 reads
      rw [toList_eq_of_isCall call]
      simp
  | false => exact Nat.le_of_eq (congrArg List.length ((reads_of_not_isCall call).1 reads)).symm

/-- A keyword that begins with another sign, or with none, reads as a text that does. -/
theorem begins_of_reads (begun : beginsName keyword = false)
    (reads : (bareToken keyword).reads word) : begins isNameChar word = false := by
  cases call : isCall keyword with
  | false => rwa [(reads_of_not_isCall call).1 reads]
  | true =>
      obtain ⟨blanks, areBlank, rfl⟩ := (reads_of_isCall call).1 reads
      rw [beginsName, toList_eq_of_isCall call] at begun
      cases name : keyword.toList.dropLast with
      | cons c rest =>
          rw [name] at begun
          exact begun
      | nil =>
          cases blanks with
          | nil => decide
          | cons c blanks => exact not_isNameChar_of_isBlank (areBlank c List.mem_cons_self)

/-- A keyword that begins with another sign is missed behind a name. -/
theorem missed_behind_name (begun : beginsName keyword = false) :
    (bareToken keyword).OccursIn ('a' :: keyword.toList) ∧
      ¬(keywordToken keyword).OccursIn ('a' :: keyword.toList) := by
  constructor
  · refine ⟨['a'], keyword.toList, [], by simp, ?_, bareToken_reads_self keyword, ?_⟩
    · simp [bareToken, begun]
    · simp [bareToken]
  · rintro ⟨left, word, right, text_eq, fits⟩
    have reads : (bareToken keyword).reads word := bareToken_reads ▸ fits.reads
    cases left with
    | nil =>
        cases word with
        | nil =>
            -- Only the empty keyword reads as no text, and before a name it is not found.
            have other : isCall keyword = false := by
              cases call : isCall keyword with
              | false => rfl
              | true =>
                  obtain ⟨blanks, -, none⟩ := (reads_of_isCall call).1 reads
                  simp at none
            have next := keywordToken_precedes.1 fits.precedes other 'a'
            rw [List.nil_append, List.nil_append] at text_eq
            exact absurd (next (by rw [← text_eq]; rfl)) (by decide)
        | cons c word =>
            obtain rfl : 'a' = c := (List.cons.inj text_eq).1
            have first : isNameChar 'a' = false := begins_of_reads begun reads
            exact absurd first (by decide)
    | cons c left =>
        obtain rfl : 'a' = c := (List.cons.inj text_eq).1
        have sizes := congrArg List.length text_eq
        have long := length_le_of_reads reads
        simp only [List.length_cons, List.length_append] at sizes
        obtain rfl : left = [] := List.length_eq_zero_iff.1 (by omega)
        exact absurd (keywordToken_follows.1 fits.follows 'a' rfl) (by decide)

/-- A keyword that stands for no calls and ends with another sign is missed before a name. -/
theorem missed_before_name (begun : beginsName keyword = true) (other : isCall keyword = false)
    (ended : endsName keyword = false) :
    (bareToken keyword).OccursIn (keyword.toList ++ ['a']) ∧
      ¬(keywordToken keyword).OccursIn (keyword.toList ++ ['a']) := by
  constructor
  · refine ⟨[], keyword.toList, ['a'], by simp, ?_, bareToken_reads_self keyword, ?_⟩
    · simp [bareToken]
    · simp [bareToken, ended]
  · rintro ⟨left, word, right, text_eq, fits⟩
    have reads : (bareToken keyword).reads word := bareToken_reads ▸ fits.reads
    obtain rfl := (reads_of_not_isCall other).1 reads
    rcases List.eq_nil_or_concat keyword.toList with nil | ⟨name, c, spelled⟩
    · simp [beginsName, nil, begins] at begun
    · rw [List.concat_eq_append] at spelled
      rw [spelled] at text_eq
      cases right with
      | nil =>
          have lasts := congrArg List.getLast? text_eq
          rw [List.append_nil, ← List.append_assoc, List.getLast?_concat, List.getLast?_concat,
            Option.some.injEq] at lasts
          rw [endsName, spelled, List.getLast?_concat, ← lasts] at ended
          exact absurd ended (by decide)
      | cons d right =>
          have sizes := congrArg List.length text_eq
          simp only [List.length_append, List.length_cons, List.length_nil] at sizes
          obtain rfl : left = [] := List.length_eq_zero_iff.1 (by omega)
          rw [List.nil_append, List.append_cancel_left_eq] at text_eq
          obtain rfl : 'a' = d := (List.cons.inj text_eq).1
          exact absurd (keywordToken_precedes.1 fits.precedes other 'a' rfl) (by decide)

/-- A keyword is found in a text just where it reads with no character of names before it, nor, if
it stands for no calls, behind it. It then stands for itself. The keywords that are found in every
text in which they stand for themselves are just those that begin with a character of names and end
with one or with a parenthesis. -/
theorem blocked_iff_of_named_ends (keyword : String) :
    (∀ text, keyword ∈ blockedIn [keyword] text ↔ ∃ left word right,
      text = left ++ (word ++ right) ∧ (bareToken keyword).reads word ∧
        (∀ c ∈ left.getLast?, isNameChar c = false) ∧
        (isCall keyword = false → ∀ c ∈ right.head?, isNameChar c = false)) ∧
    (∀ text, keyword ∈ blockedIn [keyword] text → (bareToken keyword).OccursIn text) ∧
    ((∀ text, keyword ∈ blockedIn [keyword] text ↔ (bareToken keyword).OccursIn text) ↔
      beginsName keyword = true ∧ (isCall keyword = true ∨ endsName keyword = true)) := by
  simp only [mem_blockedIn_singleton_iff]
  refine ⟨fun text => ?_, fun text => bareToken_occursIn, ?_, ?_⟩
  · constructor
    · rintro ⟨left, word, right, text_eq, fits⟩
      exact ⟨left, word, right, text_eq, bareToken_reads ▸ fits.reads,
        keywordToken_follows.1 fits.follows, keywordToken_precedes.1 fits.precedes⟩
    · rintro ⟨left, word, right, text_eq, reads, apart, apart'⟩
      exact ⟨left, word, right, text_eq, keywordToken_follows.2 apart, bareToken_reads ▸ reads,
        keywordToken_precedes.2 apart'⟩
  · intro found
    cases begun : beginsName keyword with
    | false =>
        obtain ⟨bare, missed⟩ := missed_behind_name begun
        exact absurd ((found _).2 bare) missed
    | true =>
        refine ⟨rfl, ?_⟩
        cases call : isCall keyword with
        | true => exact .inl rfl
        | false =>
            cases ended : endsName keyword with
            | true => exact .inr rfl
            | false =>
                obtain ⟨bare, missed⟩ := missed_before_name begun call ended
                exact absurd ((found _).2 bare) missed
  · rintro ⟨begun, ended⟩ text
    exact ⟨bareToken_occursIn, keywordToken_occursIn begun ended⟩

/-- A property that is blocked, on a name that has it. -/
theorem property_missed_behind_name :
    (bareToken ".innerHTML").OccursIn "el.innerHTML = x".toList ∧
      ".innerHTML" ∉ blockedIn [".innerHTML"] "el.innerHTML = x".toList := by
  refine ⟨⟨"el".toList, ".innerHTML".toList, " = x".toList, by decide, ?_,
    bareToken_reads_self _, ?_⟩, by decide +kernel⟩
  · intro begun
    exact absurd begun (by decide)
  · intro _ c mem
    obtain rfl : c = ' ' := by simpa using mem.symm
    decide

end Validation

end ComponentPreview
