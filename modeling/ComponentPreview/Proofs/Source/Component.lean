import ComponentPreview.Document.Basic
import ComponentPreview.Proofs.Script.Primitive

/-!
# The name of a component

What the forms of a declaration find, told by the parts of the text: words with white space after
each of them, the name, and what has to follow it. The first form that stands anywhere gives the
name, at its leftmost place (`nameIn_eq_iff`). What it gives is spelled like an identifier, but
none of the forms asks whether it is a reserved word (`nameIn_mem_reservedWords_iff`).
-/

namespace ComponentPreview

namespace Component

open Pattern

def reservedWords : List String := [
  "await", "break", "case", "catch", "class", "const", "continue", "debugger", "default", "delete",
  "do", "else", "enum", "export", "extends", "false", "finally", "for", "function", "if", "import",
  "in", "instanceof", "new", "null", "return", "super", "switch", "this", "throw", "true", "try",
  "typeof", "var", "void", "while", "with", "yield"]

/-- How an identifier is spelled. Reserved words are spelled like that too. -/
def IsIdentifier (word : List Char) : Prop :=
  ∃ first others, word = first :: others ∧ isNameStart first = true ∧
    ∀ c ∈ others, isNameChar c = true

/-- The words of a list, with white space after each. -/
def IsLead : List String → List Char → Prop
  | [], lead => lead = []
  | keyword :: keywords, lead => ∃ blanks others, lead = keyword.toList ++ (blanks ++ others) ∧
      blanks ≠ [] ∧ (∀ c ∈ blanks, isBlank c = true) ∧ IsLead keywords others

inductive Form
  | exportedFunction
  | function
  | constant
  | exported
  | derivedClass
  deriving DecidableEq

namespace Form

def all : List Form := [exportedFunction, function, constant, exported, derivedClass]

def words : Form → List String
  | exportedFunction => ["export", "default", "function"]
  | function => ["function"]
  | constant => ["const"]
  | exported => ["export", "default"]
  | derivedClass => ["class"]

/-- Whether the form may begin within a word. -/
def isLoose : Form → Bool
  | exportedFunction | exported => true
  | _ => false

/-- What may stand where the name is to be. -/
def Allows : Form → List Char → Prop
  | exported, rest => ∀ keyword ∈ ["function", "class"], ∀ others,
      rest = keyword.toList ++ others → ∃ c ∈ others.head?, isWord c = true
  | _, _ => True

/-- What has to follow the name. -/
def Closes : Form → List Char → Prop
  | constant, right => ∃ blanks note others, right = blanks ++ (note ++ '=' :: others) ∧
      (∀ c ∈ blanks, isBlank c = true) ∧
      (note = [] ∨ ∃ text, note = ':' :: text ∧ text ≠ [] ∧ ∀ c ∈ text, isAnnotation c = true)
  | derivedClass, right => ∃ blanks others, right = blanks ++ ("extends".toList ++ others) ∧
      blanks ≠ [] ∧ (∀ c ∈ blanks, isBlank c = true) ∧ ∀ c ∈ others.head?, isWord c = false
  | _, _ => True

/-- The form reads as its words, a name and what follows it. -/
structure Declares (form : Form) (before : Option Char) (lead word right : List Char) : Prop where
  starts : form.isLoose = true ∨ ∀ c ∈ before, isWord c = false
  leads : IsLead form.words lead
  identifier : IsIdentifier word
  whole : ∀ c ∈ right.head?, isNameChar c = false
  allows : form.Allows (word ++ right)
  closes : form.Closes right

def StandsAt (form : Form) (text left word : List Char) : Prop :=
  ∃ lead right, text = left ++ (lead ++ (word ++ right)) ∧
    form.Declares left.getLast? lead word right

/-- The form stands in a text where no earlier form does, and gives a name at its leftmost place. -/
def Names (form : Form) (text word : List Char) : Prop :=
  (∃ earlier later, all = earlier ++ form :: later ∧
    ∀ other ∈ earlier, ∀ left word', ¬other.StandsAt text left word') ∧
  ∃ left, form.StandsAt text left word ∧
    ∀ left' word', form.StandsAt text left' word' → left.length ≤ left'.length

/-! ## The patterns of the forms -/

def pattern : Form → Pattern
  | exportedFunction => exportDefault ++ lit "function" ++ gap ++ capture name
  | function => wordEdge ++ lit "function" ++ gap ++ capture name
  | constant => wordEdge ++ lit "const" ++ gap ++ capture name ++ spacing ++
      optional (lit ":" ++ one isAnnotation ++ every isAnnotation) ++ lit "="
  | exported => exportDefault ++
      notAhead (either (lit "function" ++ wordEdge) (lit "class" ++ wordEdge)) ++ capture name
  | derivedClass =>
      wordEdge ++ lit "class" ++ gap ++ capture name ++ gap ++ lit "extends" ++ wordEdge

theorem forms_eq : forms = all.map pattern := rfl

def start : Form → Pattern
  | exportedFunction | exported => nothing
  | function | constant | derivedClass => wordEdge

def led : List String → Pattern
  | [] => nothing
  | keyword :: keywords => lit keyword ++ (gap ++ led keywords)

def barrier : Form → Pattern
  | exported => notAhead (either (lit "function" ++ wordEdge) (lit "class" ++ wordEdge))
  | _ => nothing

def tail : Form → Pattern
  | exportedFunction | function | exported => nothing
  | constant =>
      spacing ++ (optional (lit ":" ++ one isAnnotation ++ every isAnnotation) ++ lit "=")
  | derivedClass => gap ++ (lit "extends" ++ wordEdge)

def lead (form : Form) : Pattern :=
  form.start ++ (led form.words ++ form.barrier)

/-- All forms are put together alike. -/
theorem ends_pattern (form : Form) (first : Progress) :
    form.pattern.ends first = (form.lead ++ (capture name ++ form.tail)).ends first := by
  have append (left right : Pattern) :
      (left ++ right).ends = fun progress => (left.ends progress).flatMap right.ends :=
    funext (ends_append left right)
  have none : nothing.ends = fun progress => [progress] := rfl
  cases form <;>
    simp only [pattern, lead, start, barrier, tail, words, led, exportDefault, append, none,
      List.flatMap_assoc, List.flatMap_cons, List.flatMap_nil, List.append_nil,
      List.flatMap_singleton']

theorem at?_pattern (form : Form) (here : Cursor) :
    form.pattern.at? here = (form.lead ++ (capture name ++ form.tail)).at? here := by
  rw [at?_eq, at?_eq, ends_pattern]

end Form

variable {first last : Progress}

theorem begins_eq_false {isIn : Char → Bool} {rest : List Char} :
    begins isIn rest = false ↔ ∀ c ∈ rest.head?, isIn c = false := by
  cases rest <;> simp [begins]

theorem mem_ends_oneAndEvery {isFirst isIn : Char → Bool} :
    last ∈ (one isFirst ++ every isIn).ends first ↔
      ∃ c others there, isFirst c = true ∧ (∀ d ∈ others, isIn d = true) ∧
        first.here.Reads (c :: others) there ∧ begins isIn there.rest = false ∧
        last = first.moveTo there := by
  rw [mem_ends_append]
  constructor
  · rintro ⟨middle, ones, everys⟩
    obtain ⟨c, there, isFirst, reads, rfl⟩ := mem_ends_one.1 ones
    obtain ⟨others, there', reads', within, stop, rfl⟩ := mem_ends_every.1 everys
    exact ⟨c, others, there', isFirst, within, reads.trans reads', stop, rfl⟩
  · rintro ⟨c, others, there, isFirst, within, reads, stop, rfl⟩
    obtain ⟨there', reads', rest_eq⟩ := exists_reads [c] reads.rest_eq
    obtain ⟨there'', reads'', -⟩ := exists_reads others rest_eq
    obtain rfl := (reads'.trans reads'').unique reads
    exact ⟨_, mem_ends_one.2 ⟨c, there', isFirst, reads', rfl⟩,
      mem_ends_every.2 ⟨others, there'', reads'', within, stop, rfl⟩⟩

theorem isNameChar_of_mem_identifier {word : List Char} (h : IsIdentifier word) :
    ∀ c ∈ word, isNameChar c = true := by
  obtain ⟨first, others, rfl, isStart, areName⟩ := h
  exact List.forall_mem_cons.2 ⟨isNameChar_of_isNameStart first isStart, areName⟩

theorem mem_ends_name :
    last ∈ name.ends first ↔ ∃ word there, IsIdentifier word ∧ first.here.Reads word there ∧
      begins isNameChar there.rest = false ∧ last = first.moveTo there := by
  rw [name, mem_ends_oneAndEvery]
  constructor
  · rintro ⟨c, others, there, isStart, areName, reads, stop, rfl⟩
    exact ⟨c :: others, there, ⟨c, others, rfl, isStart, areName⟩, reads, stop, rfl⟩
  · rintro ⟨word, there, ⟨c, others, rfl, isStart, areName⟩, reads, stop, rfl⟩
    exact ⟨c, others, there, isStart, areName, reads, stop, rfl⟩

theorem mem_ends_gap :
    last ∈ gap.ends first ↔ ∃ blanks there, blanks ≠ [] ∧ (∀ c ∈ blanks, isBlank c = true) ∧
      first.here.Reads blanks there ∧ begins isBlank there.rest = false ∧
      last = first.moveTo there := by
  rw [gap, mem_ends_oneAndEvery]
  constructor
  · rintro ⟨c, others, there, isFirst, areBlank, reads, stop, rfl⟩
    exact ⟨c :: others, there, List.cons_ne_nil _ _, List.forall_mem_cons.2 ⟨isFirst, areBlank⟩,
      reads, stop, rfl⟩
  · rintro ⟨blanks, there, some, areBlank, reads, stop, rfl⟩
    cases blanks with
    | nil => exact absurd rfl some
    | cons c others =>
        obtain ⟨isFirst, areBlank⟩ := List.forall_mem_cons.1 areBlank
        exact ⟨c, others, there, isFirst, areBlank, reads, stop, rfl⟩

/-- A word that ends where a longer one does not go on. -/
theorem exists_ends_keyword {keyword : String} (mark : Char)
    (ended : keyword.toList.getLast? = some mark) (shown : isWord mark = true) :
    (∃ last, last ∈ (lit keyword ++ wordEdge).ends first) ↔
      ∃ others, first.here.rest = keyword.toList ++ others ∧
        ∀ c ∈ others.head?, isWord c = false := by
  have follows {there : Cursor} (reads : first.here.Reads keyword.toList there) :
      there.follows isWord = true := by
    rw [Cursor.follows, reads.before_eq, ended]
    exact shown
  have precedes {there : Cursor} :
      there.precedes isWord = false ↔ ∀ c ∈ there.rest.head?, isWord c = false :=
    begins_eq_false
  constructor
  · rintro ⟨last, ends⟩
    obtain ⟨middle, spelled, edge⟩ := mem_ends_append.1 ends
    obtain ⟨there, reads, rfl⟩ := mem_ends_lit.1 spelled
    have apart : there.follows isWord ≠ there.precedes isWord := (mem_ends_wordEdge.1 edge).1
    rw [follows reads] at apart
    exact ⟨there.rest, reads.rest_eq, precedes.1 (Bool.eq_false_iff.2 apart.symm)⟩
  · rintro ⟨others, rest_eq, stop⟩
    obtain ⟨there, reads, eq⟩ := exists_reads keyword.toList rest_eq
    have apart : there.follows isWord ≠ there.precedes isWord := by
      rw [follows reads, precedes.2 (eq ▸ stop)]
      decide
    exact ⟨_, mem_ends_append.2 ⟨_, mem_ends_lit.2 ⟨there, reads, rfl⟩,
      mem_ends_wordEdge.2 ⟨apart, rfl⟩⟩⟩

/-! ## The parts of a form -/

namespace Form

theorem reads_of_led {keywords : List String} (h : last ∈ (led keywords).ends first) :
    ∃ lead, IsLead keywords lead ∧ first.here.Reads lead last.here := by
  induction keywords generalizing first with
  | nil =>
      obtain rfl := List.mem_singleton.1 h
      exact ⟨[], rfl, .refl _⟩
  | cons keyword keywords ih =>
      obtain ⟨spelled, ends, h⟩ := mem_ends_append.1 h
      obtain ⟨spaced, gaps, h⟩ := mem_ends_append.1 h
      obtain ⟨there, reads, rfl⟩ := mem_ends_lit.1 ends
      obtain ⟨blanks, there', some, areBlank, reads', -, rfl⟩ := mem_ends_gap.1 gaps
      obtain ⟨others, leads, reads''⟩ := ih h
      exact ⟨_, ⟨blanks, others, rfl, some, areBlank, leads⟩, reads.trans (reads'.trans reads'')⟩

/-- Whether the words of a list are spelled so that white space before them is all seen. -/
def AreShown (keywords : List String) : Prop :=
  ∀ keyword ∈ keywords, ∀ others, begins isBlank (keyword.toList ++ others) = false

theorem areShown_words (form : Form) : AreShown form.words := by
  cases form <;> simp [AreShown, words, begins] <;> decide

theorem begins_lead {keywords : List String} {lead rest : List Char}
    (leads : IsLead keywords lead) (shown : AreShown keywords)
    (stop : begins isBlank rest = false) : begins isBlank (lead ++ rest) = false := by
  cases keywords with
  | nil =>
      obtain rfl : lead = [] := leads
      exact stop
  | cons keyword keywords =>
      obtain ⟨blanks, others, rfl, -⟩ := leads
      rw [List.append_assoc]
      exact shown keyword List.mem_cons_self _

theorem ends_of_led {keywords : List String} {lead : List Char} (leads : IsLead keywords lead)
    (shown : AreShown keywords) {there : Cursor} (reads : first.here.Reads lead there)
    (stop : begins isBlank there.rest = false) :
    first.moveTo there ∈ (led keywords).ends first := by
  induction keywords generalizing first lead with
  | nil =>
      obtain rfl := leads
      rw [Cursor.Reads.nil_iff.1 reads]
      exact List.mem_singleton_self _
  | cons keyword keywords ih =>
      obtain ⟨blanks, others, rfl, some, areBlank, leads⟩ := leads
      have shown' : AreShown keywords := (List.forall_mem_cons.1 shown).2
      have rest_eq := reads.rest_eq
      simp only [List.append_assoc] at rest_eq
      obtain ⟨spelled, reads₁, eq₁⟩ := exists_reads keyword.toList rest_eq
      obtain ⟨spaced, reads₂, eq₂⟩ := exists_reads blanks eq₁
      obtain ⟨there', reads₃, -⟩ := exists_reads others eq₂
      obtain rfl := (reads₁.trans (reads₂.trans reads₃)).unique reads
      have stop' : begins isBlank spaced.rest = false := by
        rw [eq₂]
        exact begins_lead leads shown' stop
      have later : (first.moveTo spaced).moveTo there' ∈
          (led keywords).ends (first.moveTo spaced) :=
        ih leads shown' reads₃
      exact mem_ends_append.2 ⟨_, mem_ends_lit.2 ⟨spelled, reads₁, rfl⟩, mem_ends_append.2
        ⟨_, mem_ends_gap.2 ⟨blanks, spaced, some, areBlank, reads₂, stop', rfl⟩, later⟩⟩

theorem mem_ends_start {form : Form} {lead right : List Char} (leads : IsLead form.words lead)
    (rest_eq : first.here.rest = lead ++ right) :
    last ∈ form.start.ends first ↔
      (form.isLoose = true ∨ ∀ c ∈ first.here.before, isWord c = false) ∧ last = first := by
  cases form with
  | exportedFunction | exported => simp [start, isLoose]
  | function | constant | derivedClass =>
      obtain ⟨blanks, others, rfl, -⟩ := leads
      have precedes : first.here.precedes isWord = true := by
        rw [Cursor.precedes, rest_eq]
        rfl
      rw [start, mem_ends_wordEdge, precedes, ← follows_eq_false]
      simp [isLoose]

theorem eq_of_mem_start {form : Form} (h : last ∈ form.start.ends first) : last = first := by
  cases form with
  | exportedFunction | exported => exact List.mem_singleton.1 h
  | function | constant | derivedClass => exact (mem_ends_wordEdge.1 h).2

theorem mem_ends_barrier {form : Form} :
    last ∈ form.barrier.ends first ↔ form.Allows first.here.rest ∧ last = first := by
  cases form with
  | exported =>
      have apart {keyword : String} (mark : Char) (ended : keyword.toList.getLast? = some mark)
          (shown : isWord mark = true) :
          (∀ later, later ∉ (lit keyword ++ wordEdge).ends first) ↔
            ∀ others, first.here.rest = keyword.toList ++ others →
              ∃ c ∈ others.head?, isWord c = true := by
        rw [← not_exists, exists_ends_keyword mark ended shown]
        simp
      have functions := @apart "function" 'n' rfl rfl
      have classes := @apart "class" 's' rfl rfl
      rw [barrier, mem_ends_notAhead]
      simp only [mem_ends_either, not_or, forall_and, functions, classes, Allows, List.mem_cons,
        List.not_mem_nil, or_false, forall_eq_or_imp, forall_eq]
  | _ => simp [barrier, Allows]

theorem mem_ends_note :
    last ∈ (optional (lit ":" ++ one isAnnotation ++ every isAnnotation)).ends first ↔
      last = first ∨ ∃ text there, text ≠ [] ∧ (∀ c ∈ text, isAnnotation c = true) ∧
        first.here.Reads (':' :: text) there ∧ begins isAnnotation there.rest = false ∧
        last = first.moveTo there := by
  have parts : lit ":" ++ one isAnnotation ++ every isAnnotation =
      lit ":" ++ (one isAnnotation ++ every isAnnotation) := rfl
  rw [mem_ends_optional, parts, or_comm]
  refine or_congr Iff.rfl ?_
  constructor
  · intro h
    obtain ⟨colon, colons, texts⟩ := mem_ends_append.1 h
    obtain ⟨there, reads, rfl⟩ := mem_ends_lit.1 colons
    obtain ⟨c, others, there', isFirst, within, reads', stop, rfl⟩ :=
      mem_ends_oneAndEvery.1 texts
    exact ⟨c :: others, there', List.cons_ne_nil _ _, List.forall_mem_cons.2 ⟨isFirst, within⟩,
      reads.trans reads', stop, rfl⟩
  · rintro ⟨text, there, some, within, reads, stop, rfl⟩
    cases text with
    | nil => exact absurd rfl some
    | cons c others =>
        obtain ⟨isFirst, within⟩ := List.forall_mem_cons.1 within
        obtain ⟨there', reads', rest_eq⟩ := exists_reads [':'] reads.rest_eq
        obtain ⟨there'', reads'', -⟩ := exists_reads (c :: others) rest_eq
        obtain rfl := (reads'.trans reads'').unique reads
        exact mem_ends_append.2 ⟨_, mem_ends_lit.2 ⟨there', reads', rfl⟩,
          mem_ends_oneAndEvery.2 ⟨c, others, there'', isFirst, within, reads'', stop, rfl⟩⟩

theorem exists_ends_assigned :
    (∃ last, last ∈ constant.tail.ends first) ↔ constant.Closes first.here.rest := by
  constructor
  · rintro ⟨last, ends⟩
    obtain ⟨spaced, spaces, others⟩ := mem_ends_append.1 ends
    obtain ⟨noted, notes, marks⟩ := mem_ends_append.1 others
    obtain ⟨blanks, there, reads, areBlank, -, rfl⟩ := mem_ends_every.1 spaces
    have assigned := (reads_of_lit marks).rest_eq
    rcases mem_ends_note.1 notes with rfl | ⟨text, there', some, within, reads', -, rfl⟩
    · exact ⟨blanks, [], last.here.rest, reads.rest_eq.trans (congrArg _ assigned), areBlank,
        .inl rfl⟩
    · have rest_eq := (reads.trans reads').rest_eq
      rw [List.append_assoc] at rest_eq
      exact ⟨blanks, ':' :: text, last.here.rest,
        rest_eq.trans (congrArg (fun rest => blanks ++ (':' :: text ++ rest)) assigned), areBlank,
        .inr ⟨text, rfl, some, within⟩⟩
  · rintro ⟨blanks, note, others, rest_eq, areBlank, noted⟩
    obtain ⟨there, reads, eq⟩ := exists_reads blanks rest_eq
    obtain ⟨there', reads', eq'⟩ := exists_reads note eq
    obtain ⟨stop, reads'', -⟩ := exists_reads ['='] eq'
    have shown : begins isBlank there.rest = false := by
      rw [eq]
      rcases noted with rfl | ⟨text, rfl, -⟩ <;> rfl
    have ended : begins isAnnotation there'.rest = false := by
      rw [eq']
      rfl
    have notes : (first.moveTo there).moveTo there' ∈
        (optional (lit ":" ++ one isAnnotation ++ every isAnnotation)).ends
          (first.moveTo there) := by
      rw [mem_ends_note]
      rcases noted with rfl | ⟨text, rfl, some, within⟩
      · left
        rw [Cursor.Reads.nil_iff.1 reads']
        rfl
      · right
        exact ⟨text, there', some, within, reads', ended, rfl⟩
    exact ⟨_, mem_ends_append.2 ⟨_, mem_ends_every.2 ⟨blanks, there, reads, areBlank, shown, rfl⟩,
      mem_ends_append.2 ⟨_, notes, mem_ends_lit.2 ⟨stop, reads'', rfl⟩⟩⟩⟩

theorem exists_ends_extending :
    (∃ last, last ∈ derivedClass.tail.ends first) ↔ derivedClass.Closes first.here.rest := by
  have extends_iff (here : Progress) : (∃ last, last ∈ (lit "extends" ++ wordEdge).ends here) ↔
      ∃ others, here.here.rest = "extends".toList ++ others ∧
        ∀ c ∈ others.head?, isWord c = false :=
    exists_ends_keyword 's' rfl rfl
  constructor
  · rintro ⟨last, ends⟩
    obtain ⟨spaced, gaps, keywords⟩ := mem_ends_append.1 ends
    obtain ⟨blanks, there, some, areBlank, reads, -, rfl⟩ := mem_ends_gap.1 gaps
    obtain ⟨others, rest_eq, stop⟩ := (extends_iff _).1 ⟨last, keywords⟩
    exact ⟨blanks, others, reads.rest_eq.trans (congrArg _ rest_eq), some, areBlank, stop⟩
  · rintro ⟨blanks, others, rest_eq, some, areBlank, stop⟩
    obtain ⟨there, reads, eq⟩ := exists_reads blanks rest_eq
    obtain ⟨last, ends⟩ := (extends_iff (first.moveTo there)).2 ⟨others, eq, stop⟩
    have shown : begins isBlank there.rest = false := by
      rw [eq]
      rfl
    exact ⟨last, mem_ends_append.2
      ⟨_, mem_ends_gap.2 ⟨blanks, there, some, areBlank, reads, shown, rfl⟩, ends⟩⟩

theorem exists_ends_tail {form : Form} :
    (∃ last, last ∈ form.tail.ends first) ↔ form.Closes first.here.rest := by
  cases form with
  | constant => exact exists_ends_assigned
  | derivedClass => exact exists_ends_extending
  | _ => simp [tail, Closes]

/-! ## The places of a form -/

variable {form : Form} {here : Cursor} {text left word : List Char}

theorem declares_of_at? {found : Match} (h : form.pattern.at? here = some found) :
    ∃ lead right, here.rest = lead ++ (found.group 0 ++ right) ∧
      form.Declares here.before lead (found.group 0) right := by
  rw [at?_pattern] at h
  obtain ⟨first, inner, last, leads, names, reads, tails, -⟩ :=
    Pass.reads_group (by cases form <;> rfl) rfl h
  obtain ⟨started, starts, others⟩ := mem_ends_append.1 leads
  obtain ⟨spelled, words, barriers⟩ := mem_ends_append.1 others
  obtain rfl := eq_of_mem_start starts
  obtain ⟨allows, rfl⟩ := mem_ends_barrier.1 barriers
  obtain ⟨name, there, identifier, reads', whole, rfl⟩ := mem_ends_name.1 names
  obtain rfl := reads.word_unique reads'
  obtain ⟨lead, isLead, reads''⟩ := reads_of_led words
  have rest_eq : here.rest = lead ++ (found.group 0 ++ there.rest) := by
    rw [← List.append_assoc]
    exact (reads''.trans reads').rest_eq
  rw [reads'.rest_eq] at allows
  exact ⟨lead, there.rest, rest_eq,
    { starts := ((mem_ends_start isLead rest_eq).1 starts).1
      leads := isLead
      identifier
      whole := begins_eq_false.1 whole
      allows
      closes := exists_ends_tail.1 ⟨last, tails⟩ }⟩

theorem not_isBlank_of_isIdentifier {word : List Char} (h : IsIdentifier word)
    (right : List Char) : begins isBlank (word ++ right) = false := by
  obtain ⟨c, others, rfl, isStart, -⟩ := h
  have isName := isNameChar_of_isNameStart c isStart
  rw [List.cons_append, begins, Bool.eq_false_iff]
  intro blank
  rw [not_isNameChar_of_isBlank blank] at isName
  cases isName

theorem exists_at?_of_declares {lead right : List Char}
    (rest_eq : here.rest = lead ++ (word ++ right))
    (h : form.Declares here.before lead word right) :
    ∃ found, form.pattern.at? here = some found := by
  obtain ⟨there, reads, eq⟩ := exists_reads lead rest_eq
  obtain ⟨there', reads', rfl⟩ := exists_reads word eq
  have stop : begins isBlank there.rest = false := by
    rw [eq]
    exact not_isBlank_of_isIdentifier h.identifier _
  have starts : ⟨here, []⟩ ∈ form.start.ends ⟨here, []⟩ :=
    (mem_ends_start h.leads rest_eq).2 ⟨h.starts, rfl⟩
  have words : ⟨there, []⟩ ∈ (led form.words).ends ⟨here, []⟩ :=
    ends_of_led h.leads (areShown_words form) reads stop
  have barriers : ⟨there, []⟩ ∈ form.barrier.ends ⟨there, []⟩ :=
    mem_ends_barrier.2 ⟨eq ▸ h.allows, rfl⟩
  have names : ⟨there', []⟩ ∈ name.ends ⟨there, []⟩ :=
    mem_ends_name.2 ⟨word, there', h.identifier, reads', begins_eq_false.2 h.whole, rfl⟩
  obtain ⟨last, tails⟩ : ∃ last, last ∈ form.tail.ends ⟨there', [Span.between there there']⟩ :=
    exists_ends_tail.2 h.closes
  rw [← Option.isSome_iff_exists, at?_pattern, isSome_at?]
  exact ⟨last, mem_ends_append.2 ⟨_, mem_ends_append.2 ⟨_, starts, mem_ends_append.2
    ⟨_, words, barriers⟩⟩, mem_ends_append.2 ⟨_, mem_ends_capture.2 ⟨_, names, rfl⟩, tails⟩⟩⟩

theorem drop_blanks {blanks rest : List Char} (areBlank : ∀ c ∈ blanks, isBlank c = true)
    (stop : begins isBlank rest = false) : (blanks ++ rest).dropWhile isBlank = rest := by
  rw [List.dropWhile_append_of_pos areBlank]
  cases rest with
  | nil => rfl
  | cons c rest => exact List.dropWhile_cons_of_neg (Bool.eq_false_iff.1 stop)

theorem take_name (h : IsIdentifier word) {right : List Char}
    (whole : ∀ c ∈ right.head?, isNameChar c = false) :
    (word ++ right).takeWhile isNameChar = word := by
  obtain ⟨c, others, rfl, isStart, areName⟩ := h
  rw [List.takeWhile_append_of_pos
    (List.forall_mem_cons.2 ⟨isNameChar_of_isNameStart c isStart, areName⟩)]
  cases right with
  | nil => simp
  | cons d right => simp [whole d rfl]

theorem lead_unique {keywords : List String} {lead lead' rest rest' : List Char}
    (leads : IsLead keywords lead) (leads' : IsLead keywords lead') (shown : AreShown keywords)
    (stop : begins isBlank rest = false) (stop' : begins isBlank rest' = false)
    (h : lead ++ rest = lead' ++ rest') : rest = rest' := by
  induction keywords generalizing lead lead' with
  | nil =>
      obtain rfl : lead = [] := leads
      obtain rfl : lead' = [] := leads'
      exact h
  | cons keyword keywords ih =>
      obtain ⟨blanks, others, rfl, -, areBlank, leads⟩ := leads
      obtain ⟨blanks', others', rfl, -, areBlank', leads'⟩ := leads'
      have shown' : AreShown keywords := (List.forall_mem_cons.1 shown).2
      simp only [List.append_assoc, List.append_cancel_left_eq] at h
      have dropped := congrArg (List.dropWhile isBlank) h
      rw [drop_blanks areBlank (begins_lead leads shown' stop),
        drop_blanks areBlank' (begins_lead leads' shown' stop')] at dropped
      exact ih leads leads' shown' dropped

/-- A form gives one name at a place. -/
theorem Declares.unique {before before' : Option Char} {lead lead' right right' word' : List Char}
    (h : form.Declares before lead word right) (h' : form.Declares before' lead' word' right')
    (eq : lead ++ (word ++ right) = lead' ++ (word' ++ right')) : word = word' := by
  have rest_eq := lead_unique h.leads h'.leads (areShown_words form)
    (not_isBlank_of_isIdentifier h.identifier right)
    (not_isBlank_of_isIdentifier h'.identifier right') eq
  rw [← take_name h.identifier h.whole, rest_eq, take_name h'.identifier h'.whole]

theorem standsAt_iff :
    form.StandsAt text left word ↔ ∃ here found, (Cursor.start text).Reads left here ∧
      form.pattern.at? here = some found ∧ found.group 0 = word := by
  constructor
  · rintro ⟨lead, right, rfl, h⟩
    obtain ⟨found, found_at⟩ : ∃ found,
        form.pattern.at? ⟨left.getLast?, left.length, lead ++ (word ++ right)⟩ = some found :=
      exists_at?_of_declares rfl h
    obtain ⟨lead', right', rest_eq, h'⟩ := declares_of_at? found_at
    exact ⟨_, found, ⟨rfl, (Nat.zero_add _).symm, Option.or_none.symm⟩, found_at,
      (h.unique h' rest_eq).symm⟩
  · rintro ⟨here, found, reads, found_at, rfl⟩
    obtain ⟨lead, right, rest_eq, h⟩ := declares_of_at? found_at
    have before : here.before = left.getLast? := by
      rw [reads.before_eq]
      exact Option.or_none
    have text_eq : text = left ++ here.rest := reads.rest_eq
    exact ⟨lead, right, rest_eq ▸ text_eq, before ▸ h⟩

theorem first?_eq_none_iff :
    form.pattern.first? text = none ↔ ∀ left word, ¬form.StandsAt text left word := by
  rw [Pattern.first?_eq_none_iff]
  constructor
  · intro none left word stands
    obtain ⟨here, found, reads, found_at, -⟩ := standsAt_iff.1 stands
    rw [none left here reads] at found_at
    cases found_at
  · intro none left here reads
    rw [Option.eq_none_iff_forall_ne_some]
    intro found found_at
    exact none left _ (standsAt_iff.2 ⟨here, found, reads, found_at, rfl⟩)

theorem leftmost_of_first? {found : Match} (h : form.pattern.first? text = some found) :
    ∃ left, form.StandsAt text left (found.group 0) ∧
      ∀ left' word', form.StandsAt text left' word' → left.length ≤ left'.length := by
  obtain ⟨left, here, reads, found_at, leftmost⟩ := leftmost_of_firstFrom? h
  refine ⟨left, standsAt_iff.2 ⟨here, found, reads, found_at, rfl⟩, ?_⟩
  intro left' word' stands
  apply Nat.le_of_not_lt
  intro shorter
  obtain ⟨here', found', reads', found_at', -⟩ := standsAt_iff.1 stands
  rw [leftmost left' here' reads' shorter] at found_at'
  cases found_at'

theorem StandsAt.unique {left' word' : List Char} (h : form.StandsAt text left word)
    (h' : form.StandsAt text left' word') (same : left.length = left'.length) : word = word' := by
  obtain ⟨lead, right, text_eq, declares⟩ := h
  obtain ⟨lead', right', text_eq', declares'⟩ := h'
  exact declares.unique declares'
    (List.append_inj_right (text_eq.symm.trans text_eq') same)

theorem nameIn_eq_of_names (h : form.Names text word) : nameIn text = String.ofList word := by
  obtain ⟨⟨earlier, later, split, missing⟩, left, stands, leftmost⟩ := h
  obtain ⟨found, first⟩ : ∃ found, form.pattern.first? text = some found := by
    rw [← Option.ne_none_iff_exists', ne_eq, first?_eq_none_iff]
    exact fun none => none left word stands
  obtain ⟨left', stands', leftmost'⟩ := leftmost_of_first? first
  have same := Nat.le_antisymm (leftmost left' _ stands') (leftmost' left _ stands)
  have chosen : forms.findSome? (·.first? text) = some found := by
    rw [forms_eq, List.findSome?_map, List.findSome?_eq_some_iff]
    exact ⟨earlier, form, later, split, first,
      fun other mem => first?_eq_none_iff.2 (missing other mem)⟩
  rw [nameIn, chosen, stands.unique stands' same]

end Form

/-- The name of a source is what the first form that stands in it names, or else `App`. -/
theorem nameIn_eq_iff {text word : List Char} :
    nameIn text = String.ofList word ↔ (∃ form : Form, form.Names text word) ∨
      (∀ (form : Form) left word', ¬form.StandsAt text left word') ∧ word = "App".toList := by
  constructor
  · intro named
    cases chosen : forms.findSome? (·.first? text) with
    | none =>
        right
        rw [nameIn, chosen] at named
        rw [Form.forms_eq, List.findSome?_map, List.findSome?_eq_none_iff] at chosen
        constructor
        · intro form
          exact Form.first?_eq_none_iff.1 (chosen form (by cases form <;> decide))
        · rw [← String.toList_ofList (l := word), ← named]
          rfl
    | some found =>
        left
        rw [nameIn, chosen] at named
        obtain rfl := String.ofList_injective named
        rw [Form.forms_eq, List.findSome?_map, List.findSome?_eq_some_iff] at chosen
        obtain ⟨earlier, form, later, split, first, missing⟩ := chosen
        exact ⟨form, ⟨earlier, later, split,
          fun other mem => Form.first?_eq_none_iff.1 (missing other mem)⟩,
          Form.leftmost_of_first? first⟩
  · rintro (⟨form, names⟩ | ⟨missing, rfl⟩)
    · exact Form.nameIn_eq_of_names names
    · have chosen : forms.findSome? (·.first? text) = none := by
        rw [Form.forms_eq, List.findSome?_map, List.findSome?_eq_none_iff]
        exact fun form _ => Form.first?_eq_none_iff.2 (missing form)
      rw [nameIn, chosen]
      rfl

theorem isIdentifier_nameIn (text : List Char) : IsIdentifier (nameIn text).toList := by
  have named : nameIn text = String.ofList (nameIn text).toList := String.ofList_toList.symm
  rcases nameIn_eq_iff.1 named with ⟨form, -, left, ⟨lead, right, -, declares⟩, -⟩ | ⟨-, default⟩
  · exact declares.identifier
  · rw [default]
    refine ⟨'A', ['p', 'p'], rfl, rfl, ?_⟩
    simp only [List.mem_cons, List.not_mem_nil, or_false, or_self, forall_eq]
    decide

/-- A name is always spelled like an identifier. It is a reserved word just if the first form of a
declaration that stands in the source has a reserved word where the name is to be. -/
theorem nameIn_mem_reservedWords_iff (text : List Char) :
    IsIdentifier (nameIn text).toList ∧
      (nameIn text ∈ reservedWords ↔
        ∃ form : Form, ∃ word, form.Names text word ∧ String.ofList word ∈ reservedWords) := by
  refine ⟨isIdentifier_nameIn text, ?_⟩
  constructor
  · intro reserved
    have named : nameIn text = String.ofList (nameIn text).toList := String.ofList_toList.symm
    rcases nameIn_eq_iff.1 named with ⟨form, names⟩ | ⟨-, default⟩
    · exact ⟨form, _, names, named ▸ reserved⟩
    · rw [named, default] at reserved
      exact absurd reserved (by decide)
  · rintro ⟨form, word, names, reserved⟩
    rw [Form.nameIn_eq_of_names names]
    exact reserved

theorem construction_names_new :
    let text := "export default new Board();".toList
    nameIn text = "new" ∧ "new" ∈ reservedWords ∧
      "typeof new !== 'undefined'".toList <:+: (Document.entryFallback (nameIn text)).toList := by
  decide +kernel

end Component

end ComponentPreview
