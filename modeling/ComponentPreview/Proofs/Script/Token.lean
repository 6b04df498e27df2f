import ComponentPreview.Proofs.Text.Edit
import ComponentPreview.Validation

/-!
# Forbidden tokens

What the patterns of forbidden tokens find, in terms of how a token reads and which neighbours it
may have. A token looks no further than one character around it.
-/

namespace ComponentPreview

open Pattern

namespace Token

def call (shuns : Char → Bool) (name : List Char) : Token where
  follows previous := ∀ c ∈ previous, shuns c = false
  reads word := ∃ blanks, (∀ c ∈ blanks, isBlank c = true) ∧ word = name ++ (blanks ++ ['('])
  precedes _ := True

def whole (name : List Char) : Token where
  follows previous := ∀ c ∈ previous, isNameChar c = false
  reads word := word = name
  precedes next := ∀ c ∈ next, isNameChar c = false

/-- A call of a timer with a text. -/
def timer : Token where
  follows previous := ∀ c ∈ previous, isWord c = false
  reads word := ∃ name ∈ ["Timeout".toList, "Interval".toList], ∃ blanks blanks' mark,
    (∀ c ∈ blanks, isBlank c = true) ∧ (∀ c ∈ blanks', isBlank c = true) ∧
    DynamicCode.isTextMark mark = true ∧
    word = "set".toList ++ (name ++ (blanks ++ '(' :: (blanks' ++ [mark])))
  precedes _ := True

end Token

section

variable {pattern : Pattern} {token : Token} {first last : Progress}

/-- A pattern finds a token if at each place it has an end just where the token fits. -/
theorem occursIn_iff_of_ends (h : ∀ here : Cursor, (∃ last, last ∈ pattern.ends ⟨here, []⟩) ↔
      ∃ word rest, here.rest = word ++ rest ∧ token.follows here.before ∧ token.reads word ∧
        token.precedes rest.head?) (text : List Char) :
    pattern.occursIn text = true ↔ token.OccursIn text := by
  rw [occursIn_iff]
  constructor
  · rintro ⟨left, here, last, reads, ends⟩
    obtain ⟨word, rest, rest_eq, follows, spelled, precedes⟩ := (h here).1 ⟨last, ends⟩
    have before : here.before = left.getLast? := by
      rw [reads.before_eq]
      exact Option.or_none
    refine ⟨left, word, rest, ?_, before ▸ follows, spelled, precedes⟩
    rw [← rest_eq]
    exact reads.rest_eq
  · rintro ⟨left, word, rest, rfl, fits⟩
    have reads : (Cursor.start (left ++ (word ++ rest))).Reads left
        ⟨left.getLast?, left.length, word ++ rest⟩ :=
      ⟨rfl, (Nat.zero_add _).symm, Option.or_none.symm⟩
    obtain ⟨last, ends⟩ := (h ⟨left.getLast?, left.length, word ++ rest⟩).2
      ⟨word, rest, rfl, fits.follows, fits.reads, fits.precedes⟩
    exact ⟨left, _, last, reads, ends⟩

theorem exists_reads {here : Cursor} (word : List Char) {rest : List Char}
    (h : here.rest = word ++ rest) :
    ∃ there, here.Reads word there ∧ there.rest = rest :=
  ⟨⟨word.getLast?.or here.before, here.offset + word.length, rest⟩, ⟨h, rfl, rfl⟩, rfl⟩

theorem exists_reads_start (word rest : List Char) :
    ∃ there, (Cursor.start (word ++ rest)).Reads word there ∧ there.rest = rest :=
  exists_reads word rfl

theorem exists_reads_rest {here : Cursor} {word : List Char} (h : here.rest = word) :
    ∃ there, here.Reads word there ∧ there.rest = [] :=
  exists_reads word (h.trans (List.append_nil word).symm)

theorem exists_spacing (first : Progress) {blanks rest : List Char} {mark : Char}
    (h : first.here.rest = blanks ++ mark :: rest) (areBlank : ∀ c ∈ blanks, isBlank c = true)
    (other : isBlank mark = false) :
    ∃ last ∈ spacing.ends first, last.here.rest = mark :: rest := by
  obtain ⟨there, reads, eq⟩ := exists_reads blanks h
  refine ⟨first.moveTo there, mem_ends_every.2 ⟨blanks, there, reads, areBlank, ?_, rfl⟩, eq⟩
  rw [eq, begins, other]

theorem follows_eq_false {isIn : Char → Bool} {here : Cursor} :
    here.follows isIn = false ↔ ∀ c ∈ here.before, isIn c = false := by
  unfold Cursor.follows
  cases here.before <;> simp

theorem exists_ends_call (shuns : Char → Bool) (name : List Char) (here : Cursor) :
    (∃ last, last ∈ (notAfter shuns ++ word name ++ spacing ++ lit "(").ends ⟨here, []⟩) ↔
      ∃ word rest, here.rest = word ++ rest ∧ (Token.call shuns name).follows here.before ∧
        (Token.call shuns name).reads word ∧ (Token.call shuns name).precedes rest.head? := by
  constructor
  · rintro ⟨last, ends⟩
    obtain ⟨opened, ends, opens⟩ := mem_ends_append.1 ends
    obtain ⟨named, ends, spaced⟩ := mem_ends_append.1 ends
    obtain ⟨start, starts, names⟩ := mem_ends_append.1 ends
    obtain ⟨follows, rfl⟩ := mem_ends_notAfter.1 starts
    obtain ⟨there, reads, rfl⟩ := mem_ends_word.1 names
    obtain ⟨blanks, there', reads', areBlank, -, rfl⟩ := mem_ends_every.1 spaced
    obtain ⟨there'', reads'', rfl⟩ := mem_ends_lit.1 opens
    have whole := reads.trans (reads'.trans reads'')
    exact ⟨_, there''.rest, whole.rest_eq, follows_eq_false.1 follows, ⟨blanks, areBlank, rfl⟩,
      trivial⟩
  · rintro ⟨_, rest, rest_eq, follows, ⟨blanks, areBlank, rfl⟩, -⟩
    rw [List.append_assoc, List.append_assoc] at rest_eq
    obtain ⟨there, reads, eq⟩ := exists_reads name rest_eq
    obtain ⟨spaced, spaces, eq'⟩ := exists_spacing ⟨there, []⟩ eq areBlank rfl
    obtain ⟨stop, opens, -⟩ := exists_reads ['('] eq'
    exact ⟨_, mem_ends_append.2 ⟨spaced, mem_ends_append.2 ⟨_, mem_ends_append.2
      ⟨_, mem_ends_notAfter.2 ⟨follows_eq_false.2 follows, rfl⟩,
        mem_ends_word.2 ⟨there, reads, rfl⟩⟩, spaces⟩, mem_ends_lit.2 ⟨stop, opens, rfl⟩⟩⟩

theorem exists_ends_whole (name : String) (here : Cursor) :
    (∃ last, last ∈ (notAfter isNameChar ++ lit name ++ notAhead (one isNameChar)).ends
        ⟨here, []⟩) ↔
      ∃ word rest, here.rest = word ++ rest ∧ (Token.whole name.toList).follows here.before ∧
        (Token.whole name.toList).reads word ∧ (Token.whole name.toList).precedes rest.head? := by
  have aheads (there : Cursor) : (∀ later, later ∉ (one isNameChar).ends ⟨there, []⟩) ↔
      ∀ c ∈ there.rest.head?, isNameChar c = false := by
    rcases there with ⟨before, offset, _ | ⟨c, rest⟩⟩
    · simp [ends]
    · by_cases isName : isNameChar c <;> simp [ends, isName]
  constructor
  · rintro ⟨last, ends⟩
    obtain ⟨named, ends, alone⟩ := mem_ends_append.1 ends
    obtain ⟨start, starts, names⟩ := mem_ends_append.1 ends
    obtain ⟨follows, rfl⟩ := mem_ends_notAfter.1 starts
    obtain ⟨there, reads, rfl⟩ := mem_ends_lit.1 names
    have precedes := (aheads there).1 (mem_ends_notAhead.1 alone).1
    exact ⟨name.toList, there.rest, reads.rest_eq, follows_eq_false.1 follows, rfl, precedes⟩
  · rintro ⟨_, rest, rest_eq, follows, rfl, precedes⟩
    obtain ⟨there, reads, eq⟩ := exists_reads name.toList rest_eq
    have alone := (aheads there).2 (eq ▸ precedes)
    exact ⟨_, mem_ends_append.2 ⟨_, mem_ends_append.2
      ⟨_, mem_ends_notAfter.2 ⟨follows_eq_false.2 follows, rfl⟩,
        mem_ends_lit.2 ⟨there, reads, rfl⟩⟩,
      mem_ends_notAhead.2 ⟨alone, rfl⟩⟩⟩

theorem mem_ends_timerName :
    last ∈ (anyOf ["Timeout", "Interval"]).ends first ↔
      ∃ name ∈ ["Timeout".toList, "Interval".toList], ∃ there, first.here.Reads name there ∧
        last = first.moveTo there := by
  simp only [anyOf, mem_ends_either, mem_ends_lit, List.mem_cons, List.not_mem_nil, or_false,
    exists_eq_or_imp, exists_eq_left]

theorem isBlank_of_isTextMark {mark : Char} (h : DynamicCode.isTextMark mark = true) :
    isBlank mark = false := by
  simp only [DynamicCode.isTextMark, isQuoteMark, Bool.or_eq_true, beq_iff_eq] at h
  rcases h with (rfl | rfl) | rfl <;> decide

theorem exists_ends_timer (here : Cursor) :
    (∃ last, last ∈ DynamicCode.textTimer.pattern.ends ⟨here, []⟩) ↔
      ∃ word rest, here.rest = word ++ rest ∧ Token.timer.follows here.before ∧
        Token.timer.reads word ∧ Token.timer.precedes rest.head? := by
  constructor
  · rintro ⟨last, ends⟩
    obtain ⟨_, ends, marks⟩ := mem_ends_append.1 ends
    obtain ⟨_, ends, spaces'⟩ := mem_ends_append.1 ends
    obtain ⟨_, ends, opens⟩ := mem_ends_append.1 ends
    obtain ⟨_, ends, spaces⟩ := mem_ends_append.1 ends
    obtain ⟨_, ends, names⟩ := mem_ends_append.1 ends
    obtain ⟨_, starts, sets⟩ := mem_ends_append.1 ends
    obtain ⟨edge, rfl⟩ := mem_ends_wordEdge.1 starts
    obtain ⟨there₁, reads₁, rfl⟩ := mem_ends_lit.1 sets
    obtain ⟨name, mem, there₂, reads₂, rfl⟩ := mem_ends_timerName.1 names
    obtain ⟨blanks, there₃, reads₃, areBlank, -, rfl⟩ := mem_ends_every.1 spaces
    obtain ⟨there₄, reads₄, rfl⟩ := mem_ends_lit.1 opens
    obtain ⟨blanks', there₅, reads₅, areBlank', -, rfl⟩ := mem_ends_every.1 spaces'
    obtain ⟨mark, there₆, isMark, reads₆, rfl⟩ := mem_ends_one.1 marks
    have whole := reads₁.trans (reads₂.trans (reads₃.trans (reads₄.trans (reads₅.trans reads₆))))
    have precedes : here.precedes isWord = true := by
      rw [Cursor.precedes, reads₁.rest_eq]
      rfl
    have follows : here.follows isWord = false := by
      rw [precedes] at edge
      exact Bool.eq_false_iff.2 edge
    exact ⟨_, there₆.rest, whole.rest_eq, follows_eq_false.1 follows,
      ⟨name, mem, blanks, blanks', mark, areBlank, areBlank', isMark, rfl⟩, trivial⟩
  · rintro ⟨_, rest, rest_eq, follows, ⟨name, mem, blanks, blanks', mark, areBlank, areBlank',
      isMark, rfl⟩, -⟩
    simp only [List.append_assoc, List.cons_append, List.nil_append] at rest_eq
    obtain ⟨there₁, reads₁, eq₁⟩ := exists_reads _ rest_eq
    obtain ⟨there₂, reads₂, eq₂⟩ := exists_reads name eq₁
    obtain ⟨spaced, spaces, eq₃⟩ := exists_spacing ⟨there₂, []⟩ eq₂ areBlank rfl
    obtain ⟨there₄, reads₄, eq₄⟩ := exists_reads ['('] eq₃
    obtain ⟨spaced', spaces', eq₅⟩ := exists_spacing (spaced.moveTo there₄) eq₄ areBlank'
      (isBlank_of_isTextMark isMark)
    obtain ⟨there₆, reads₆, -⟩ := exists_reads [mark] eq₅
    have precedes : here.precedes isWord = true := by
      rw [Cursor.precedes, rest_eq]
      rfl
    have edge : here.follows isWord ≠ here.precedes isWord := by
      rw [follows_eq_false.2 follows, precedes]
      decide
    exact ⟨_, mem_ends_append.2 ⟨spaced', mem_ends_append.2 ⟨_, mem_ends_append.2 ⟨spaced,
      mem_ends_append.2 ⟨_, mem_ends_append.2 ⟨_, mem_ends_append.2 ⟨_,
        mem_ends_wordEdge.2 ⟨edge, rfl⟩, mem_ends_lit.2 ⟨there₁, reads₁, rfl⟩⟩,
        mem_ends_timerName.2 ⟨name, mem, there₂, reads₂, rfl⟩⟩, spaces⟩,
      mem_ends_lit.2 ⟨there₄, reads₄, rfl⟩⟩, spaces'⟩,
      mem_ends_one.2 ⟨mark, there₆, isMark, reads₆, rfl⟩⟩⟩

end

/-! ## Primitives and keywords -/

def DynamicCode.token : DynamicCode → Token
  | evaluation => .call isNameChar "eval".toList
  | functionConstructor => .call (fun c => isNameChar c || c == '.') "Function".toList
  | textTimer => .timer

theorem DynamicCode.occursIn_pattern_iff (primitive : DynamicCode) (text : List Char) :
    primitive.pattern.occursIn text = true ↔ primitive.token.OccursIn text := by
  cases primitive with
  | evaluation => exact occursIn_iff_of_ends (exists_ends_call _ _) text
  | functionConstructor => exact occursIn_iff_of_ends (exists_ends_call _ _) text
  | textTimer => exact occursIn_iff_of_ends exists_ends_timer text

theorem DynamicCode.mem_usages_iff {primitive : DynamicCode} {text : List Char} :
    primitive ∈ DynamicCode.usages text ↔ primitive.token.OccursIn text := by
  rw [usages, List.mem_filter, occursIn_pattern_iff]
  exact and_iff_right (by cases primitive <;> decide)

namespace Validation

def keywordToken (keyword : String) : Token :=
  if isCall keyword then .call isNameChar keyword.toList.dropLast else .whole keyword.toList

theorem occursIn_keywordPattern_iff (keyword : String) (text : List Char) :
    (keywordPattern keyword).occursIn text = true ↔ (keywordToken keyword).OccursIn text := by
  unfold keywordPattern keywordToken
  split
  · exact occursIn_iff_of_ends (exists_ends_call _ _) text
  · exact occursIn_iff_of_ends (exists_ends_whole _) text

theorem mem_blockedIn_iff {keywords : List String} {keyword : String} {text : List Char} :
    keyword ∈ blockedIn keywords text ↔
      keyword ∈ keywords ∧ (keywordToken keyword).OccursIn text := by
  rw [blockedIn, List.mem_filter, occursIn_keywordPattern_iff]

/-- Whatever is found dangerous has a label. -/
theorem dangers_eq_nil {config : Config} {text : List Char} (h : dangers config text = []) :
    DynamicCode.usages text = [] ∧ blockedIn config.blockedKeywords text = [] := by
  have step : ∀ (keywords found : List String),
      keywords.foldl (fun found keyword =>
        if found.contains (keywordLabel keyword) then found
        else found ++ [keywordLabel keyword]) found = [] → found = [] ∧ keywords = [] := by
    intro keywords
    induction keywords with
    | nil => exact fun found none => ⟨none, rfl⟩
    | cons keyword keywords ih =>
        intro found none
        have empty := (ih _ none).1
        dsimp only at empty
        split at empty
        · next labelled =>
            rw [empty] at labelled
            cases labelled
        · exact absurd empty (List.append_ne_nil_of_right_ne_nil _ (List.cons_ne_nil _ _))
  obtain ⟨labels, keywords⟩ := step _ _ h
  exact ⟨List.map_eq_nil_iff.1 labels, keywords⟩

/-- An accepted source holds no primitive of dynamic code and no blocked keyword. -/
theorem not_occursIn_of_isValid {config : Config} {source : Source} {analysis : Analysis}
    (h : (Validation.of config source analysis).isValid = true) :
    (∀ primitive : DynamicCode, ¬primitive.token.OccursIn source.text) ∧
    ∀ keyword ∈ config.blockedKeywords, ¬(keywordToken keyword).OccursIn source.text := by
  have none : dangers config source.text = [] := by
    unfold Validation.of at h
    split at h
    · cases h
    · simp only [isValid, rejectionsOf, List.isEmpty_iff, List.append_eq_nil_iff] at h
      by_cases none : dangers config source.text = []
      · exact none
      · simp [none] at h
  obtain ⟨usages, keywords⟩ := dangers_eq_nil none
  constructor
  · intro primitive occurs
    have mem := DynamicCode.mem_usages_iff.2 occurs
    rw [usages] at mem
    cases mem
  · intro keyword given occurs
    have mem := mem_blockedIn_iff.2 ⟨given, occurs⟩
    rw [keywords] at mem
    cases mem

end Validation

end ComponentPreview
