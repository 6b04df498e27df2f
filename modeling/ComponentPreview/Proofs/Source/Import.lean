import ComponentPreview.Proofs.Script.Import
import ComponentPreview.Proofs.Source.Clause

/-!
# Reading imports back

A match of the statement is told by what stands between the keyword and the module
(`statement_at?`). In a text of imports, one on each line, every clause is read where it stands
(`all_source`), unless the module of a bare import ends in the beginning of a statement: then the
text behind it is taken for a module. So the names and the modules are those of the imports exactly
if no module is empty, no specifier is misread and no bare import misleads the scan
(`all_source_iff`).
-/

namespace ComponentPreview

namespace Import

open Pattern

/-- What stands between the keyword and the module of a statement. -/
def Links (lead specifier : List Char) : Prop :=
  ∃ blanks blanks' blanks'',
    lead = blanks ++ (specifier ++ (blanks' ++ ("from".toList ++ blanks''))) ∧
      (blanks ≠ [] ∧ blanks' ≠ [] ∧ blanks'' ≠ []) ∧
      ((∀ c ∈ blanks, isBlank c = true) ∧ (∀ c ∈ blanks', isBlank c = true) ∧
        ∀ c ∈ blanks'', isBlank c = true) ∧
      specifier ≠ [] ∧ ∀ c ∈ specifier, isSpecifierChar c = true

/-- The module of an import, between quote marks. -/
structure Quote where
  mark : Char
  word : List Char
  isMark : isQuoteMark mark = true
  clean : ∀ c ∈ word, isQuoteMark c = false ∧ c ≠ '\n'

def Quote.text (quote : Quote) : List Char :=
  quote.mark :: (quote.word ++ [quote.mark])

/-- An import on a line. One without a clause is bare. -/
structure Line where
  clause? : Option Clause
  module : Quote
  terminated : Bool

namespace Line

variable (line : Line)

/-- What stands between the keyword and the module. -/
def lead : List Char :=
  ' ' :: match line.clause? with
    | none => []
    | some clause => clause.text ++ " from ".toList

def ending : List Char :=
  if line.terminated then [';'] else []

def text : List Char :=
  "import".toList ++ (line.lead ++ (line.module.text ++ line.ending))

/-- What an import binds, and from where. -/
def bound : List Import :=
  line.clause?.toList.map fun clause =>
    ⟨clause.bound.map String.ofList, String.ofList line.module.word⟩

/-- What the scan reads of an import. -/
def read : List Import :=
  if line.module.word = [] then []
  else line.clause?.toList.map fun clause =>
    ⟨clause.read.map String.ofList, String.ofList line.module.word⟩

/-- The module of a bare import ends in the beginning of a statement. -/
def Misleads : Prop :=
  line.clause? = none ∧ ∃ front lead specifier,
    line.module.word = front ++ ("import".toList ++ lead) ∧ Links lead specifier ∧
      ∀ c ∈ front.getLast?, isWord c = false

end Line

/-- The lines of a text, with a line break at its end or without one. -/
def source (lines : List Line) (closed : Bool) : List Char :=
  Text.join ['\n'] (lines.map Line.text) ++ if closed then ['\n'] else []

variable {here middle there : Cursor} {found : Match} {lead specifier module rest : List Char}
  {mark mark' : Char}

/-! ## One statement -/

def specifierText : Pattern :=
  one isSpecifierChar ++ few isSpecifierChar (beginsAfterBlanks 'f')

theorem statement_parts : statement = wordEdge ++ (lit "import" ++ (oneOrMore isBlank ++
    (capture specifierText ++ (gap ++ (lit "from" ++ (gap ++ quotedText)))))) :=
  rfl

theorem quotedText_parts : quotedText = one isQuoteMark ++
    (capture (one (!isQuoteMark ·) ++ every (!isQuoteMark ·)) ++ one isQuoteMark) :=
  rfl

theorem mem_ends_oneOrMore {isIn : Char → Bool} {first last : Progress} :
    last ∈ (oneOrMore isIn).ends first ↔ ∃ word there, word ≠ [] ∧ (∀ c ∈ word, isIn c = true) ∧
      first.here.Reads word there ∧ last = first.moveTo there := by
  rw [oneOrMore, mem_ends_append]
  constructor
  · rintro ⟨_, starts, ends⟩
    obtain ⟨c, place, isIn_c, reads, rfl⟩ := mem_ends_one.1 starts
    obtain ⟨others, there, reads', within, rfl⟩ := mem_ends_many.1 ends
    exact ⟨c :: others, there, List.cons_ne_nil _ _, List.forall_mem_cons.2 ⟨isIn_c, within⟩,
      reads.trans reads', rfl⟩
  · rintro ⟨_ | ⟨c, others⟩, there, some, within, reads, rfl⟩
    · exact absurd rfl some
    · obtain ⟨isIn_c, within⟩ := List.forall_mem_cons.1 within
      obtain ⟨place, front, back⟩ :=
        Cursor.Reads.exists_middle (show first.here.Reads ([c] ++ others) there from reads)
      exact ⟨_, mem_ends_one.2 ⟨c, place, isIn_c, front, rfl⟩,
        mem_ends_many.2 ⟨others, there, back, within, rfl⟩⟩

theorem mem_ends_specifier {first last : Progress} :
    last ∈ (capture specifierText).ends first ↔ ∃ word there, word ≠ [] ∧
      (∀ c ∈ word, isSpecifierChar c = true) ∧ first.here.Reads word there ∧
      beginsAfterBlanks 'f' there.rest = true ∧
      last = ⟨there, first.groups ++ [Span.between first.here there]⟩ := by
  rw [mem_ends_capture]
  constructor
  · rintro ⟨_, ends, rfl⟩
    obtain ⟨_, starts, ends⟩ := mem_ends_append.1 ends
    obtain ⟨c, place, isIn_c, reads, rfl⟩ := mem_ends_one.1 starts
    obtain ⟨others, there, reads', within, stop, rfl⟩ := mem_ends_few.1 ends
    exact ⟨c :: others, there, List.cons_ne_nil _ _, List.forall_mem_cons.2 ⟨isIn_c, within⟩,
      reads.trans reads', stop, rfl⟩
  · rintro ⟨_ | ⟨c, others⟩, there, some, within, reads, stop, rfl⟩
    · exact absurd rfl some
    · obtain ⟨isIn_c, within⟩ := List.forall_mem_cons.1 within
      obtain ⟨place, front, back⟩ :=
        Cursor.Reads.exists_middle (show first.here.Reads ([c] ++ others) there from reads)
      exact ⟨_, mem_ends_append.2 ⟨_, mem_ends_one.2 ⟨c, place, isIn_c, front, rfl⟩,
        mem_ends_few.2 ⟨others, there, back, within, stop, rfl⟩⟩, rfl⟩

theorem mem_ends_quotedText {first last : Progress} :
    last ∈ quotedText.ends first ↔ ∃ mark module mark' place inner there,
      isQuoteMark mark = true ∧ (module ≠ [] ∧ ∀ c ∈ module, isQuoteMark c = false) ∧
        isQuoteMark mark' = true ∧ first.here.Reads [mark] place ∧ place.Reads module inner ∧
        inner.Reads [mark'] there ∧ last = ⟨there, first.groups ++ [Span.between place inner]⟩ := by
  rw [quotedText_parts, mem_ends_append]
  constructor
  · rintro ⟨_, opens, ends⟩
    obtain ⟨mark, place, isMark, reads, rfl⟩ := mem_ends_one.1 opens
    obtain ⟨_, captured, closes⟩ := mem_ends_append.1 ends
    obtain ⟨_, named, rfl⟩ := mem_ends_capture.1 captured
    obtain ⟨c, others, inner, isIn_c, within, reads', -, rfl⟩ :=
      Component.mem_ends_oneAndEvery.1 named
    obtain ⟨mark', there, isMark', reads'', rfl⟩ := mem_ends_one.1 closes
    have clean : ∀ d ∈ c :: others, (!isQuoteMark d) = true :=
      List.forall_mem_cons.2 ⟨isIn_c, within⟩
    exact ⟨mark, c :: others, mark', place, inner, there, isMark,
      ⟨List.cons_ne_nil _ _, by simpa using clean⟩, isMark', reads, reads', reads'', rfl⟩
  · rintro ⟨mark, _ | ⟨c, others⟩, mark', place, inner, there, isMark, ⟨some, clean⟩, isMark',
      reads, reads', reads'', rfl⟩
    · exact absurd rfl some
    · have clean' : ∀ d ∈ c :: others, (!isQuoteMark d) = true := by simpa using clean
      obtain ⟨isIn_c, within⟩ := List.forall_mem_cons.1 clean'
      refine ⟨_, mem_ends_one.2 ⟨mark, place, isMark, reads, rfl⟩, mem_ends_append.2
        ⟨_, mem_ends_capture.2 ⟨_, Component.mem_ends_oneAndEvery.2
          ⟨c, others, inner, isIn_c, within, reads', ?_, rfl⟩, rfl⟩,
          mem_ends_one.2 ⟨mark', there, isMark', reads'', rfl⟩⟩⟩
      simp [reads''.rest_eq, begins, isMark']

/-- What a match of the statement consists of. -/
theorem statement_at? (h : statement.at? here = some found) :
    ∃ lead mark mark', here.Reads
        ("import".toList ++ (lead ++ mark :: (found.group 1 ++ [mark']))) found.stop ∧
      Links lead (found.group 0) ∧ isQuoteMark mark = true ∧ isQuoteMark mark' = true ∧
      (found.group 1 ≠ [] ∧ ∀ c ∈ found.group 1, isQuoteMark c = false) ∧
      ∀ c ∈ here.before, isWord c = false := by
  obtain ⟨last, ends, rfl⟩ := exists_end_of_at? h
  rw [statement_parts] at ends
  obtain ⟨_, starts, ends⟩ := mem_ends_append.1 ends
  obtain ⟨edge, rfl⟩ := mem_ends_wordEdge.1 starts
  obtain ⟨_, word, ends⟩ := mem_ends_append.1 ends
  obtain ⟨place₁, reads₁, rfl⟩ := mem_ends_lit.1 word
  obtain ⟨_, spaced, ends⟩ := mem_ends_append.1 ends
  obtain ⟨blanks, place₂, some, areBlank, reads₂, rfl⟩ := mem_ends_oneOrMore.1 spaced
  obtain ⟨_, captured, ends⟩ := mem_ends_append.1 ends
  obtain ⟨specifier, place₃, some₃, within, reads₃, -, rfl⟩ := mem_ends_specifier.1 captured
  obtain ⟨_, spaced, ends⟩ := mem_ends_append.1 ends
  obtain ⟨blanks', place₄, some', areBlank', reads₄, -, rfl⟩ := Component.mem_ends_gap.1 spaced
  obtain ⟨_, word, ends⟩ := mem_ends_append.1 ends
  obtain ⟨place₅, reads₅, rfl⟩ := mem_ends_lit.1 word
  obtain ⟨_, spaced, quoted⟩ := mem_ends_append.1 ends
  obtain ⟨blanks'', place₆, some'', areBlank'', reads₆, -, rfl⟩ := Component.mem_ends_gap.1 spaced
  obtain ⟨mark, module, mark', place₇, place₈, there, isMark, clean, isMark', reads₇, reads₈,
    reads₉, rfl⟩ := mem_ends_quotedText.1 quoted
  have group₀ : (Span.between place₂ place₃).text = specifier := reads₃.text_between
  have group₁ : (Span.between place₇ place₈).text = module := reads₈.text_between
  have front := (reads₁.trans reads₂).trans ((reads₃.trans reads₄).trans (reads₅.trans reads₆))
  have whole := front.trans ((reads₇.trans reads₈).trans reads₉)
  have unworded : ∀ c ∈ here.before, isWord c = false := by
    have precedes : here.precedes isWord = true := by
      rw [Cursor.precedes, reads₁.rest_eq]
      rfl
    rw [precedes] at edge
    exact follows_eq_false.1 (Bool.eq_false_iff.2 edge)
  refine ⟨blanks ++ (specifier ++ (blanks' ++ ("from".toList ++ blanks''))), mark, mark', ?_,
    ⟨blanks, blanks', blanks'', ?_, ⟨some, some', some''⟩, ⟨areBlank, areBlank', areBlank''⟩, ?_⟩,
    isMark, isMark', ?_, unworded⟩
  all_goals simp only [Match.group, Progress.toMatch, Progress.moveTo, List.nil_append,
    List.cons_append, List.getElem?_cons_zero, List.getElem?_cons_succ, group₀, group₁]
  · simpa using whole
  · exact ⟨some₃, within⟩
  · exact clean

/-- Where a statement is spelled, there is a match. -/
theorem isSome_statement (unworded : ∀ c ∈ here.before, isWord c = false)
    (links : Links lead specifier) (isMark : isQuoteMark mark = true)
    (clean : module ≠ [] ∧ ∀ c ∈ module, isQuoteMark c = false) (isMark' : isQuoteMark mark' = true)
    (rest_eq : here.rest = "import".toList ++ (lead ++ mark :: (module ++ mark' :: rest))) :
    (statement.at? here).isSome = true := by
  obtain ⟨blanks, blanks', blanks'', rfl, ⟨some, some', some''⟩,
    ⟨areBlank, areBlank', areBlank''⟩, some₃, within⟩ := links
  obtain ⟨place₁, reads₁, rest_eq₁⟩ := exists_reads "import".toList rest_eq
  rw [List.append_assoc] at rest_eq₁
  obtain ⟨place₂, reads₂, rest_eq₂⟩ := exists_reads blanks rest_eq₁
  rw [List.append_assoc] at rest_eq₂
  obtain ⟨place₃, reads₃, rest_eq₃⟩ := exists_reads specifier rest_eq₂
  rw [List.append_assoc] at rest_eq₃
  obtain ⟨place₄, reads₄, rest_eq₄⟩ := exists_reads blanks' rest_eq₃
  rw [List.append_assoc] at rest_eq₄
  obtain ⟨place₅, reads₅, rest_eq₅⟩ := exists_reads "from".toList rest_eq₄
  obtain ⟨place₆, reads₆, rest_eq₆⟩ := exists_reads blanks'' rest_eq₅
  obtain ⟨place₇, reads₇, rest_eq₇⟩ := exists_reads [mark] rest_eq₆
  obtain ⟨place₈, reads₈, rest_eq₈⟩ := exists_reads module rest_eq₇
  obtain ⟨there, reads₉, -⟩ := exists_reads [mark'] rest_eq₈
  have edge : here.follows isWord ≠ here.precedes isWord := by
    have precedes : here.precedes isWord = true := by
      rw [Cursor.precedes, reads₁.rest_eq]
      rfl
    rw [follows_eq_false.2 unworded, precedes]
    exact Bool.false_ne_true
  have shown : isBlank mark = false := by
    refine Bool.eq_false_iff.2 fun blank => ?_
    rw [Modules.isQuoteMark_of_isBlank blank] at isMark
    cases isMark
  refine isSome_at?.2 ⟨_, statement_parts ▸ mem_ends_append.2 ⟨_, mem_ends_wordEdge.2 ⟨edge, rfl⟩,
    mem_ends_append.2 ⟨_, mem_ends_lit.2 ⟨place₁, reads₁, rfl⟩,
    mem_ends_append.2 ⟨_, mem_ends_oneOrMore.2 ⟨blanks, place₂, some, areBlank, reads₂, rfl⟩,
    mem_ends_append.2 ⟨_, mem_ends_specifier.2 ⟨specifier, place₃, some₃, within, reads₃, ?_, rfl⟩,
    mem_ends_append.2 ⟨_, Component.mem_ends_gap.2
      ⟨blanks', place₄, some', areBlank', reads₄, ?_, rfl⟩,
    mem_ends_append.2 ⟨_, mem_ends_lit.2 ⟨place₅, reads₅, rfl⟩,
    mem_ends_append.2 ⟨_, Component.mem_ends_gap.2
      ⟨blanks'', place₆, some'', areBlank'', reads₆, ?_, rfl⟩,
    mem_ends_quotedText.2 ⟨mark, module, mark', place₇, place₈, there, isMark, clean, isMark',
      reads₇, reads₈, reads₉, rfl⟩⟩⟩⟩⟩⟩⟩⟩⟩
  · rw [rest_eq₃]
    exact beginsAfterBlanks_append areBlank' rfl
  · rw [rest_eq₄]
    rfl
  · rw [rest_eq₆, begins, shown]

/-! ## One line -/

theorem not_isQuoteMark_import : ∀ c ∈ "import".toList, isQuoteMark c = false := by
  simp [isQuoteMark]

theorem not_isQuoteMark_from : ∀ c ∈ "from".toList, isQuoteMark c = false := by
  simp [isQuoteMark]

theorem Links.not_isQuoteMark (links : Links lead specifier) :
    ∀ c ∈ lead, isQuoteMark c = false := by
  obtain ⟨blanks, blanks', blanks'', rfl, -, ⟨areBlank, areBlank', areBlank''⟩, -, within⟩ := links
  have other {c : Char} (isIn : isSpecifierChar c = true) : isQuoteMark c = false := by
    refine Bool.eq_false_iff.2 fun mark => ?_
    rcases Modules.eq_of_isQuoteMark mark with rfl | rfl <;> exact absurd isIn (by decide)
  simp only [List.mem_append]
  rintro c (mem | mem | mem | mem | mem)
  · exact Modules.isQuoteMark_of_isBlank (areBlank c mem)
  · exact other (within c mem)
  · exact Modules.isQuoteMark_of_isBlank (areBlank' c mem)
  · exact not_isQuoteMark_from c mem
  · exact Modules.isQuoteMark_of_isBlank (areBlank'' c mem)

theorem Links.length_le (links : Links lead specifier) : 8 ≤ lead.length := by
  obtain ⟨blanks, blanks', blanks'', rfl, ⟨some, some', some''⟩, -, some₃, -⟩ := links
  have positive := List.length_pos_iff.2 some
  have positive' := List.length_pos_iff.2 some'
  have positive'' := List.length_pos_iff.2 some''
  have positive₃ := List.length_pos_iff.2 some₃
  have word : "from".toList.length = 4 := rfl
  simp only [List.length_append]
  omega

/-- One space is all the white space that stands before something visible. -/
theorem eq_of_blanks {blanks rest other : List Char} (some : blanks ≠ [])
    (areBlank : ∀ c ∈ blanks, isBlank c = true) (shown : begins isBlank other = false)
    (eq : blanks ++ rest = ' ' :: other) : blanks = [' '] ∧ rest = other := by
  obtain ⟨c, blanks, rfl⟩ := List.exists_cons_of_ne_nil some
  obtain ⟨rfl, rest_eq⟩ := List.cons.inj eq
  cases blanks with
  | nil => exact ⟨rfl, rest_eq⟩
  | cons d blanks =>
      have head : begins isBlank other = true := rest_eq ▸ areBlank d (by simp)
      rw [shown] at head
      cases head

theorem isBlank_space : ∀ c ∈ [' '], isBlank c = true := by simp [isBlank]

theorem links_clause (clause : Clause) {spaces : List Char} (some : spaces ≠ [])
    (areBlank : ∀ c ∈ spaces, isBlank c = true) :
    Links (' ' :: (clause.text ++ (" from".toList ++ spaces))) clause.text := by
  obtain ⟨c, rest, eq, -⟩ := clause.exists_head
  exact ⟨[' '], [' '], spaces, rfl, ⟨by simp, by simp, some⟩,
    ⟨isBlank_space, isBlank_space, areBlank⟩, by simp [eq], clause.isSpecifierChar_text⟩

/-- Where one space stands before the clause and one behind it, the clause is the specifier. -/
theorem Links.specifier_eq {clause : Clause} {spaces : List Char}
    (areSpaces : ∀ c ∈ spaces, isBlank c = true)
    (links : Links (' ' :: (clause.text ++ (" from".toList ++ spaces))) specifier) :
    specifier = clause.text := by
  obtain ⟨blanks, blanks', blanks'', eq, ⟨some, some', -⟩, ⟨areBlank, areBlank', areBlank''⟩, -⟩ :=
    links
  obtain ⟨c, more, head, shown⟩ := clause.exists_head
  obtain ⟨front, d, last, shown'⟩ := clause.exists_last
  have begin : begins isBlank (clause.text ++ (" from".toList ++ spaces)) = false := by
    simp [head, begins, shown]
  obtain ⟨-, inner⟩ := eq_of_blanks some areBlank begin eq.symm
  -- The white space behind the clause is told from the end.
  have mirrored : blanks''.reverse ++ 'm' :: ("orf".toList ++
      (blanks'.reverse ++ specifier.reverse)) =
      spaces.reverse ++ 'm' :: ("orf".toList ++ ' ' :: clause.text.reverse) := by
    simpa using congrArg List.reverse inner
  obtain ⟨-, -, inner'⟩ := Text.first_unique (!isBlank ·) mirrored (by simpa using areBlank'')
    (by decide) (by simpa using areSpaces) (by decide)
  rw [List.append_cancel_left_eq] at inner'
  have begin' : begins isBlank clause.text.reverse = false := by simp [last, begins, shown']
  obtain ⟨-, same⟩ := eq_of_blanks (by simpa using some') (by simpa using areBlank') begin' inner'
  exact List.reverse_inj.1 same

theorem head?_statement (here : Cursor) (found : Match) (h : statement.at? here = some found) :
    here.rest.head? = some 'i' := by
  obtain ⟨lead, mark, mark', reads, -⟩ := statement_at? h
  rw [reads.rest_eq]
  rfl

theorem Line.text_eq (line : Line) (rest : List Char) : line.text ++ rest =
    ("import".toList ++ line.lead) ++ line.module.mark :: (line.module.word ++
      line.module.mark :: (line.ending ++ rest)) := by
  change ("import".toList ++ (line.lead ++ ((line.module.mark ::
    (line.module.word ++ [line.module.mark])) ++ line.ending))) ++ rest = _
  simp only [List.append_assoc, List.cons_append, List.nil_append]

theorem Line.length_text (line : Line) : line.text.length = "import".toList.length +
    (line.lead.length + (line.module.word.length + (line.ending.length + 2))) := by
  have size := congrArg List.length (line.text_eq [])
  simp only [List.append_nil, List.length_append, List.length_cons] at size
  omega

theorem Line.ending_cases (line : Line) : line.ending = [] ∨ line.ending = [';'] := by
  rw [ending]
  split <;> simp

theorem Line.eq_of_mem_ending {line : Line} {c : Char} (mem : c ∈ line.ending) : c = ';' := by
  rcases line.ending_cases with none | semicolon
  · simp [none] at mem
  · simpa [semicolon] using mem

theorem Line.not_isQuoteMark_lead (line : Line) : ∀ c ∈ line.lead, isQuoteMark c = false := by
  obtain ⟨_ | clause, module, terminated⟩ := line
  · simp [lead, isQuoteMark]
  · exact (links_clause clause (by simp) isBlank_space).not_isQuoteMark

/-- A match that begins in a line has the module of the line, or it begins in it. -/
theorem Line.match_within (line : Line) {front : List Char} (reads : here.Reads line.text there)
    (ahead : here.Reads front middle) (shorter : front.length < line.text.length)
    (h : statement.at? middle = some found) :
    (∃ lead, "import".toList ++ line.lead = front ++ ("import".toList ++ lead) ∧
      Links lead (found.group 0) ∧ found.group 1 = line.module.word ∧ line.module.word ≠ [] ∧
      found.stop.rest = line.ending ++ there.rest) ∨
    ∃ more lead specifier mark tail,
      front = ("import".toList ++ line.lead) ++ line.module.mark :: more ∧
      line.module.word = more ++ ("import".toList ++ lead) ∧ Links lead specifier ∧
      (∀ c ∈ more.getLast?, isWord c = false) ∧ isQuoteMark mark = true ∧
      found.group 1 ++ mark :: tail = line.ending ++ there.rest ∧
      ∀ c ∈ found.group 1, isQuoteMark c = false := by
  obtain ⟨lead, mark, mark', whole, links, isMark, isMark', ⟨some, clean⟩, unworded⟩ :=
    statement_at? h
  have within : ∀ c ∈ "import".toList ++ lead, isQuoteMark c = false :=
    List.forall_mem_append.2 ⟨not_isQuoteMark_import, links.not_isQuoteMark⟩
  have inner : ∀ c ∈ line.module.word, isQuoteMark c = false :=
    fun c mem => (line.module.clean c mem).1
  have later : middle.rest = ("import".toList ++ lead) ++
      mark :: (found.group 1 ++ mark' :: found.stop.rest) := by
    rw [whole.rest_eq]
    simp
  have same := ahead.rest_eq.symm.trans (reads.rest_eq.trans (line.text_eq there.rest))
  rcases Text.append_eq_append_cons same with ⟨more, eq, eq'⟩ | ⟨more, rfl, eq⟩
  · have within' : ∀ c ∈ more, isQuoteMark c = false := fun c mem =>
      List.forall_mem_append.2 ⟨not_isQuoteMark_import, line.not_isQuoteMark_lead⟩ c
        (eq ▸ List.mem_append_right _ mem)
    obtain ⟨rfl, -, rest_eq⟩ := Text.first_unique isQuoteMark (later.symm.trans eq') within isMark
      within' line.module.isMark
    obtain ⟨module_eq, -, stop_eq⟩ := Text.first_unique isQuoteMark rest_eq clean isMark' inner
      line.module.isMark
    exact .inl ⟨lead, eq, links, module_eq, module_eq ▸ some, stop_eq⟩
  · rcases Text.append_eq_append_cons eq.symm with ⟨other, eq, eq'⟩ | ⟨other, rfl, ending_eq⟩
    · have within' : ∀ c ∈ other, isQuoteMark c = false := fun c mem => inner c (by simp [eq, mem])
      obtain ⟨rfl, -, rest_eq⟩ := Text.first_unique isQuoteMark (later.symm.trans eq') within isMark
        within' line.module.isMark
      refine .inr ⟨more, lead, _, mark', _, rfl, eq, links, fun c last => unworded c ?_, isMark',
        rest_eq, clean⟩
      rw [ahead.before_eq]
      simp [List.getLast?_append, List.getLast?_cons, Option.mem_def.1 last]
    · -- Behind the module there is at most a semicolon.
      exfalso
      have few : other.length < line.ending.length := by
        simp only [line.length_text, List.length_append, List.length_cons] at shorter
        omega
      rcases line.ending_cases with none | semicolon
      · rw [none] at few
        exact Nat.not_lt_zero _ few
      · rw [semicolon, List.length_singleton, Nat.lt_one_iff, List.length_eq_zero_iff] at few
        rw [semicolon, few, later] at ending_eq
        exact absurd (List.cons.inj ending_eq).1 (by decide)

def view (found : Match) : Option Import :=
  some (ofMatch found)

theorem all_eq (text : List Char) : all text = (statement.findAll text).filterMap view :=
  (congrFun List.filterMap_eq_map _).symm

theorem text_ne_nil_of_statement (h : statement.at? here = some found) : found.text ≠ [] := by
  obtain ⟨lead, mark, mark', reads, -⟩ := statement_at? h
  rw [(reads_of_at? h).word_unique reads]
  exact nofun

theorem exists_all_eq {text : List Char} (h : statement.at? (.start text) = some found) :
    ∃ others, all text = ofMatch found :: others := by
  obtain ⟨others, stop, later, ended⟩ := Collects.exists_upto_end statement view found.stop
  have first : statement.Collects view (.start text) ([ofMatch found] ++ others) stop :=
    Collects.append (.of_at? h (text_ne_nil_of_statement h)) later
  exact ⟨others, by rw [all_eq, first.filterMap_eq ended, List.singleton_append]⟩

/-- A line that binds nothing, or from nowhere, has a match in it only where it misleads. -/
theorem Line.misleads_of_match {line : Line} {front : List Char}
    (silent : line.clause? = none ∨ line.module.word = []) (reads : here.Reads line.text there)
    (ahead : here.Reads front middle) (shorter : front.length < line.text.length)
    (h : statement.at? middle = some found) :
    line.Misleads ∧ ∃ mark tail, isQuoteMark mark = true ∧
      found.group 1 ++ mark :: tail = line.ending ++ there.rest ∧
      ∀ c ∈ found.group 1, isQuoteMark c = false := by
  rcases line.match_within reads ahead shorter h with ⟨lead, eq, links, -, some, -⟩ |
    ⟨more, lead, specifier, mark, tail, -, eq, links, unworded, isMark, group, clean⟩
  · have bare := silent.resolve_right some
    have long := links.length_le
    have size := congrArg List.length eq
    simp only [Line.lead, bare, List.length_append, List.length_singleton] at size
    omega
  · have some : line.module.word ≠ [] := by simp [eq]
    exact ⟨⟨silent.resolve_right some, more, lead, specifier, eq, links, unworded⟩, mark, tail,
      isMark, group, clean⟩

/-- Of a line that binds nothing, or from nowhere, nothing is read. -/
theorem Line.collects_silent {line : Line} (silent : line.clause? = none ∨ line.module.word = [])
    (reads : here.Reads line.text there)
    (follows : line.Misleads → ∀ c ∈ there.rest, isQuoteMark c = false) :
    statement.Collects view here [] there := by
  refine .of_passes reads fun front middle ahead shorter => ?_
  rw [Option.eq_none_iff_forall_ne_some]
  intro found found_at
  obtain ⟨misleads, mark, tail, isMark, group, -⟩ :=
    line.misleads_of_match silent reads ahead shorter found_at
  have mem : mark ∈ line.ending ++ there.rest := group ▸ by simp
  have other : isQuoteMark mark = false := by
    rcases List.mem_append.1 mem with mem | mem
    · rw [eq_of_mem_ending mem]
      decide
    · exact follows misleads mark mem
  rw [isMark] at other
  cases other

/-- Of a line with a clause and a module the import is read. -/
theorem Line.collects_binding {line : Line} {clause : Clause}
    (unworded : ∀ c ∈ here.before, isWord c = false) (reads : here.Reads line.text there)
    (clause_eq : line.clause? = Option.some clause) (some : line.module.word ≠ []) :
    statement.Collects view here line.read there := by
  have lead_eq : line.lead = ' ' :: (clause.text ++ (" from".toList ++ [' '])) := by
    rw [lead, clause_eq]
    rfl
  have rest_eq := reads.rest_eq.trans (line.text_eq there.rest)
  rw [List.append_assoc] at rest_eq
  obtain ⟨found, found_at⟩ := Option.isSome_iff_exists.1 (isSome_statement unworded
    (lead_eq ▸ links_clause clause (by simp) isBlank_space) line.module.isMark
    ⟨some, fun c mem => (line.module.clean c mem).1⟩ line.module.isMark rest_eq)
  have nonempty : ([] : List Char).length < line.text.length := by
    rw [line.length_text, List.length_nil]
    omega
  rcases line.match_within reads (.refl here) nonempty found_at with
    ⟨lead', eq, links, module_eq, -, stop_eq⟩ | ⟨more, _, _, _, _, eq, -⟩
  · obtain rfl : line.lead = lead' := by simpa using eq
    rw [lead_eq] at links
    have shown : line.read = (view found).toList := by
      simp [read, some, clause_eq, view, ofMatch, module_eq, links.specifier_eq isBlank_space,
        clause.boundNames_text]
    have whole := reads_of_at? found_at
    have same := whole.rest_eq.symm.trans reads.rest_eq
    rw [stop_eq, ← List.append_assoc] at same
    have behind : found.stop.Reads line.ending there :=
      Cursor.Reads.of_append ((List.append_cancel_right same).symm ▸ reads) whole
    have absent : 'i' ∉ line.ending := fun mem => absurd (eq_of_mem_ending mem) (by decide)
    have front : statement.Collects view here line.read found.stop :=
      shown ▸ .of_at? found_at (text_ne_nil_of_statement found_at)
    have all := front.append (.of_absent head?_statement behind absent)
    rwa [List.append_nil] at all
  · cases eq

/-- What the scan reads of a line, if the line does not mislead it or no quote mark follows. -/
theorem Line.collects (line : Line) (unworded : ∀ c ∈ here.before, isWord c = false)
    (reads : here.Reads line.text there)
    (follows : line.Misleads → ∀ c ∈ there.rest, isQuoteMark c = false) :
    statement.Collects view here line.read there := by
  by_cases silent : line.clause? = none ∨ line.module.word = []
  · have none : line.read = [] := by
      rcases silent with bare | empty
      · simp [read, bare]
      · simp [read, empty]
    rw [none]
    exact collects_silent silent reads follows
  · obtain ⟨bare, some⟩ := not_or.1 silent
    obtain ⟨clause, clause_eq⟩ := Option.ne_none_iff_exists'.1 bare
    exact collects_binding unworded reads clause_eq some

/-- The module of a line that misleads has no word character before the keyword in it. -/
theorem Line.unworded_of_lead {line : Line} {more : List Char}
    (ahead : here.Reads (("import".toList ++ line.lead) ++ line.module.mark :: more) middle)
    (unworded : ∀ c ∈ more.getLast?, isWord c = false) :
    ∀ c ∈ middle.before, isWord c = false := by
  intro c mem
  rw [ahead.before_eq] at mem
  rcases List.eq_nil_or_concat more with rfl | ⟨front, d, rfl⟩
  · obtain rfl : line.module.mark = c := by
      simpa only [List.getLast?_concat, Option.some_or, Option.mem_def, Option.some.injEq] using
        mem
    exact Modules.ImportForm.isWord_of_isQuoteMark line.module.isMark
  · obtain rfl : d = c := by
      simpa only [List.concat_eq_append, ← List.cons_append, ← List.append_assoc,
        List.getLast?_concat, Option.some_or, Option.mem_def, Option.some.injEq] using mem
    exact unworded d (by simp)

/-- A line that misleads and has another one below it gives a module that goes on into that. -/
theorem Line.exists_broken {line other : Line} {rest : List Char} (misleads : line.Misleads)
    (reads : here.Reads line.text there) (below : there.rest = '\n' :: (other.text ++ rest)) :
    ∃ broken others stop, statement.Collects view here (broken :: others) stop ∧ stop.rest = [] ∧
      '\n' ∈ broken.module.toList := by
  obtain ⟨bare, more, lead, specifier, module_eq, links, unworded⟩ := misleads
  have next : line.ending ++ there.rest =
      (line.ending ++ '\n' :: ("import".toList ++ other.lead)) ++ other.module.mark ::
        (other.module.word ++ other.module.mark :: (other.ending ++ rest)) := by
    rw [below, other.text_eq]
    simp
  have clean : ∀ c ∈ line.ending ++ '\n' :: ("import".toList ++ other.lead),
      isQuoteMark c = false := by
    have semicolon : ∀ c ∈ line.ending, isQuoteMark c = false := fun c mem => by
      rw [eq_of_mem_ending mem]
      decide
    exact List.forall_mem_append.2 ⟨semicolon, List.forall_mem_cons.2 ⟨by decide,
      List.forall_mem_append.2 ⟨not_isQuoteMark_import, other.not_isQuoteMark_lead⟩⟩⟩
  have whole : line.text ++ there.rest =
      (("import".toList ++ line.lead) ++ line.module.mark :: more) ++ ("import".toList ++
        (lead ++ line.module.mark :: (line.ending ++ there.rest))) := by
    rw [line.text_eq, module_eq]
    simp
  obtain ⟨middle, ahead, middle_eq⟩ := exists_reads _ (reads.rest_eq.trans whole)
  rw [next] at middle_eq
  obtain ⟨front, place, found, reads', passes, found_at, shorter⟩ := exists_leftmost ahead
    (isSome_statement (unworded_of_lead ahead unworded) links line.module.isMark ⟨by simp, clean⟩
      other.module.isMark middle_eq)
  have within : front.length < line.text.length := by
    have size := congrArg List.length whole
    have word : "import".toList.length = 6 := rfl
    simp only [List.length_append, List.length_cons] at size shorter word
    omega
  obtain ⟨-, mark, tail, isMark, group, clean'⟩ :=
    line.misleads_of_match (.inl bare) reads reads' within found_at
  obtain ⟨group_eq, -⟩ := Text.first_unique isQuoteMark (group.trans next) clean' isMark clean
    other.module.isMark
  obtain ⟨others, stop, later, ended⟩ := Collects.exists_upto_end statement view found.stop
  have first : statement.Collects view here ([] ++ [ofMatch found] ++ others) stop :=
    ((Collects.of_passes reads' passes).append
      (.of_at? found_at (text_ne_nil_of_statement found_at))).append later
  refine ⟨ofMatch found, others, stop, first, ended, ?_⟩
  simp [ofMatch, group_eq]

/-! ## Line by line -/

theorem exists_join_cons (separator part : List Char) (others : List (List Char)) :
    ∃ rest, Text.join separator (part :: others) = part ++ rest := by
  cases others with
  | nil => exact ⟨[], (List.append_nil part).symm⟩
  | cons other others =>
      exact ⟨separator ++ Text.join separator (other :: others), List.append_assoc _ _ _⟩

theorem join_lines (line other : Line) (lines : List Line) :
    Text.join ['\n'] ((line :: other :: lines).map Line.text) =
      line.text ++ (['\n'] ++ Text.join ['\n'] ((other :: lines).map Line.text)) := by
  simp [Text.join]

theorem unworded_newline (reads : here.Reads ['\n'] there) :
    ∀ c ∈ there.before, isWord c = false := by
  rw [reads.before_eq]
  rintro _ ⟨⟩
  decide

theorem collects_lines {lines : List Line} (unworded : ∀ c ∈ here.before, isWord c = false)
    (reads : here.Reads (Text.join ['\n'] (lines.map Line.text)) there)
    (quiet : ∀ c ∈ there.rest, isQuoteMark c = false)
    (plain : ∀ line ∈ lines.dropLast, ¬line.Misleads) :
    statement.Collects view here (lines.flatMap Line.read) there := by
  induction lines generalizing here with
  | nil =>
      rw [Cursor.Reads.nil_iff.1 reads]
      exact .refl here
  | cons line lines ih =>
      cases lines with
      | nil =>
          rw [List.flatMap_cons, List.flatMap_nil, List.append_nil]
          exact line.collects unworded reads fun _ => quiet
      | cons other lines =>
          rw [join_lines] at reads
          obtain ⟨middle, front, rest⟩ := reads.exists_middle
          obtain ⟨next, broken, back⟩ := rest.exists_middle
          rw [List.dropLast_cons_cons, List.forall_mem_cons] at plain
          have first := line.collects unworded front fun misleads => absurd misleads plain.1
          have gap : statement.Collects view middle [] next :=
            .of_absent head?_statement broken (by decide)
          exact first.append (gap.append (ih (unworded_newline broken) back plain.2))

/-- A line that misleads, but for the last one, gives a module that goes on into the next line. -/
theorem exists_broken_of_misleads {lines : List Line}
    (unworded : ∀ c ∈ here.before, isWord c = false)
    (reads : here.Reads (Text.join ['\n'] (lines.map Line.text)) there)
    (misled : ∃ line ∈ lines.dropLast, line.Misleads) :
    ∃ shown stop, statement.Collects view here shown stop ∧ stop.rest = [] ∧
      ∃ broken ∈ shown, '\n' ∈ broken.module.toList := by
  induction lines generalizing here with
  | nil => simp at misled
  | cons line lines ih =>
      cases lines with
      | nil => simp at misled
      | cons other lines =>
          rw [join_lines] at reads
          obtain ⟨middle, front, rest⟩ := reads.exists_middle
          by_cases misleads : line.Misleads
          · obtain ⟨more, joined⟩ := exists_join_cons ['\n'] other.text (lines.map Line.text)
            have below : middle.rest = '\n' :: (other.text ++ (more ++ there.rest)) := by
              rw [rest.rest_eq, List.map_cons, joined]
              simp
            obtain ⟨broken, others, stop, collects, ended, mem⟩ :=
              line.exists_broken misleads front below
            exact ⟨_, stop, collects, ended, broken, List.mem_cons_self, mem⟩
          · obtain ⟨next, broken, back⟩ := rest.exists_middle
            have first := line.collects unworded front fun other => absurd other misleads
            have gap : statement.Collects view middle [] next :=
              .of_absent head?_statement broken (by decide)
            obtain ⟨shown, stop, later, ended, module, mem, long⟩ :=
              ih (unworded_newline broken) back (by simpa [misleads] using misled)
            exact ⟨_, stop, first.append (gap.append later), ended, module, by simp [mem], long⟩

theorem exists_reads_source (lines : List Line) (closed : Bool) : ∃ there,
    (Cursor.start (source lines closed)).Reads (Text.join ['\n'] (lines.map Line.text)) there ∧
      there.rest = if closed then ['\n'] else [] :=
  exists_reads_start _ _

theorem all_source {lines : List Line} (closed : Bool)
    (plain : ∀ line ∈ lines.dropLast, ¬line.Misleads) :
    all (source lines closed) = lines.flatMap Line.read := by
  obtain ⟨there, reads, rest_eq⟩ := exists_reads_source lines closed
  have quiet : ∀ c ∈ there.rest, isQuoteMark c = false := by
    rw [rest_eq]
    cases closed <;> simp [isQuoteMark]
  have quiet' : 'i' ∉ there.rest := by
    rw [rest_eq]
    cases closed <;> simp
  obtain ⟨stop, behind, ended⟩ : ∃ stop, there.Reads there.rest stop ∧ stop.rest = [] :=
    exists_reads_rest rfl
  have front := collects_lines (by simp [Cursor.start]) reads quiet plain
  have whole := front.append (.of_absent head?_statement behind quiet')
  rw [all_eq, whole.filterMap_eq ended, List.append_nil]

/-- No module is empty and no specifier misread. -/
def Line.IsPlain (line : Line) : Prop :=
  ∀ clause ∈ line.clause?, line.module.word ≠ [] ∧
    ∀ specifier ∈ clause.specifiers, ¬specifier.IsMisread

theorem Line.read_eq_bound_iff (line : Line) : line.read = line.bound ↔ line.IsPlain := by
  obtain ⟨_ | clause, module, terminated⟩ := line
  · simp [read, bound, IsPlain]
  · by_cases empty : module.word = []
    · simp [read, bound, IsPlain, empty]
    · have names : clause.read.map String.ofList = clause.bound.map String.ofList ↔
          clause.read = clause.bound :=
        List.map_inj_right fun _ _ => String.ofList_inj.1
      simp [read, bound, IsPlain, empty, names, ← clause.read_eq_bound_iff]

theorem Line.length_read_le (line : Line) : line.read.length ≤ line.bound.length := by
  rw [read, bound]
  split <;> simp

theorem length_flatMap_read_le (lines : List Line) :
    (lines.flatMap Line.read).length ≤ (lines.flatMap Line.bound).length := by
  induction lines with
  | nil => exact Nat.le_refl _
  | cons line lines ih =>
      simp only [List.flatMap_cons, List.length_append]
      exact Nat.add_le_add line.length_read_le ih

/-- No line makes up for what another one loses. -/
theorem flatMap_read_eq_iff (lines : List Line) :
    lines.flatMap Line.read = lines.flatMap Line.bound ↔ ∀ line ∈ lines, line.IsPlain := by
  induction lines with
  | nil => exact iff_of_true rfl (List.forall_mem_nil _)
  | cons line lines ih =>
      rw [List.forall_mem_cons, ← ih, ← line.read_eq_bound_iff, List.flatMap_cons,
        List.flatMap_cons]
      refine ⟨fun same => ?_, fun both => by rw [both.1, both.2]⟩
      have sizes := congrArg List.length same
      have fewer := line.length_read_le
      have fewer' := length_flatMap_read_le lines
      simp only [List.length_append] at sizes
      exact List.append_inj same (by omega)

theorem newline_not_mem_of_bound {lines : List Line} {module : Import}
    (mem : module ∈ lines.flatMap Line.bound) : '\n' ∉ module.module.toList := by
  obtain ⟨line, -, mem⟩ := List.mem_flatMap.1 mem
  obtain ⟨clause, -, rfl⟩ := List.mem_map.1 mem
  rw [String.toList_ofList]
  exact fun mem => (line.module.clean _ mem).2 rfl

/-- The scan gives back the imports of a text exactly if it can read each of them and none misleads
it about the next one. -/
theorem all_source_iff (lines : List Line) (closed : Bool) :
    all (source lines closed) = lines.flatMap Line.bound ↔
      (∀ line ∈ lines, line.IsPlain) ∧ ∀ line ∈ lines.dropLast, ¬line.Misleads := by
  by_cases misled : ∃ line ∈ lines.dropLast, line.Misleads
  · obtain ⟨there, reads, -⟩ := exists_reads_source lines closed
    obtain ⟨shown, stop, collects, ended, broken, mem, long⟩ :=
      exists_broken_of_misleads (by simp [Cursor.start]) reads misled
    refine iff_of_false (fun same => ?_) fun plain => ?_
    · rw [all_eq, collects.filterMap_eq ended] at same
      exact newline_not_mem_of_bound (same ▸ mem) long
    · obtain ⟨line, mem, misleads⟩ := misled
      exact plain.2 line mem misleads
  · have plain : ∀ line ∈ lines.dropLast, ¬line.Misleads := by simpa using misled
    rw [all_source closed plain, flatMap_read_eq_iff]
    exact (and_iff_left plain).symm

def misreadLine : Line where
  clause? := some (.items none ⟨[' '], by simp [isBlank]⟩
    [⟨false, .of 't' "ype".toList (by decide) (by decide), some (.of 'X' [] (by decide) rfl)⟩])
  module := ⟨'\'', "./m".toList, by decide, by simp [isQuoteMark]⟩
  terminated := true

theorem alias_of_type_misread : all (source [misreadLine] true) = [⟨["as X"], "./m"⟩] ∧
    misreadLine.bound = [⟨["X"], "./m"⟩] := by
  decide

end Import

end ComponentPreview
