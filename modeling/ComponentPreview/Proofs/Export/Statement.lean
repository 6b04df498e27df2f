import ComponentPreview.Proofs.Script.Import
import ComponentPreview.Proofs.Script.Seam
import ComponentPreview.Proofs.Source.Component

/-!
# Export statements

A source is made of code without the word `export` and of export statements, each with the lines it
stands on. What is to become of a statement is its `expected` text, what really becomes of it the
text that is `left`; they differ for the statements that slip through (`Statement.Slips`).
-/

namespace ComponentPreview

namespace Modules

open Pattern

/-- The word `export`, which belongs to no longer word. -/
def exportWord : Token where
  follows previous := ∀ c ∈ previous, isWord c = false
  reads word := word = "export".toList
  precedes next := ∀ c ∈ next, isWord c = false

def AreBlank (blanks : List Char) : Prop :=
  ∀ c ∈ blanks, isBlank c = true

def IsIndent (indent : List Char) : Prop :=
  ∀ c ∈ indent, Declaration.isIndent c = true

instance (blanks : List Char) : Decidable (AreBlank blanks) :=
  decidable_of_iff (blanks.all isBlank = true) List.all_eq_true

instance (indent : List Char) : Decidable (IsIndent indent) :=
  decidable_of_iff (indent.all Declaration.isIndent = true) List.all_eq_true

/-! ## Lists -/

/-- Where names are exported from. -/
structure Origin where
  blanks : List Char
  mark : Char
  module : List Char

namespace Origin

def text (origin : Origin) : List Char :=
  "from".toList ++ (origin.blanks ++ origin.mark :: (origin.module ++ [origin.mark]))

/-- The name of a module holds neither a quote mark nor the start of an escape. -/
def isSpecial (c : Char) : Bool :=
  isQuoteMark c || c == '\\'

theorem text_eq (origin : Origin) : origin.text =
    ("from".toList ++ (origin.blanks ++ origin.mark :: origin.module)) ++ [origin.mark] := by
  change "from".toList ++ (origin.blanks ++ origin.mark :: (origin.module ++ [origin.mark])) = _
  simp only [List.append_assoc, List.cons_append]

structure WellFormed (origin : Origin) : Prop where
  blanks : AreBlank origin.blanks
  mark : isQuoteMark origin.mark = true
  module : ∀ c ∈ origin.module, isSpecial c = false

end Origin

/-- An export of everything or of a list of names. -/
structure Listing where
  indent : List Char
  blanks : List Char
  names : Option (List Char)
  gap : List Char
  origin : Option Origin
  close : List Char

/-- Whether a text begins with the module of a list. -/
def Continues (rest : List Char) : Prop :=
  ∃ blanks mark later, rest = "from".toList ++ (blanks ++ mark :: later) ∧ AreBlank blanks ∧
    isQuoteMark mark = true

/-- What may stand at the end of a line after a statement. -/
def IsLineEnd (close : List Char) : Prop :=
  ∃ blanks semicolon blanks' stop, close = blanks ++ (semicolon ++ (blanks' ++ stop)) ∧
    IsIndent blanks ∧ IsIndent blanks' ∧ (semicolon = [] ∨ semicolon = [';']) ∧
    (stop = [] ∨ stop = ['\n'])

namespace Listing

def body (listing : Listing) : List Char :=
  match listing.names with
  | none => ['*']
  | some names => '\x7b' :: (names ++ ['\x7d'])

def source (listing : Listing) : List Char :=
  match listing.origin with
  | none => []
  | some origin => origin.text

/-- A list without the keyword. -/
def tail (listing : Listing) : List Char :=
  listing.blanks ++ (listing.body ++ (listing.gap ++ (listing.source ++ listing.close)))

def text (listing : Listing) : List Char :=
  listing.indent ++ ("export".toList ++ listing.tail)

structure WellFormed (listing : Listing) : Prop where
  indent : IsIndent listing.indent
  blanks : AreBlank listing.blanks
  names : ∀ names ∈ listing.names, '\x7d' ∉ names
  gap : AreBlank listing.gap
  origin : ∀ origin ∈ listing.origin, origin.WellFormed

/-- What follows a list belongs neither to its line end nor, where the list has no module, to the
white space before a module. -/
structure Ends (listing : Listing) (following : List Char) : Prop where
  lineEnd : IsLineEnd listing.close
  complete : ∀ c ∈ following.head?, ¬IsLineEnd (listing.close ++ [c])
  spaced : listing.origin = none → ∀ c ∈ (listing.close ++ following).head?, isBlank c = false
  named : listing.origin = none → ¬Continues (listing.close ++ following)

end Listing

/-- The name under which everything is exported, and the module. -/
def Renames (clause : List Char) : Prop :=
  ∃ gap name gap' origin close, clause = "as".toList ++
      (gap ++ (name ++ (gap' ++ (Origin.text origin ++ close)))) ∧
    (gap ≠ [] ∧ AreBlank gap) ∧ Component.IsIdentifier name ∧ (gap' ≠ [] ∧ AreBlank gap') ∧
    origin.WellFormed ∧ IsLineEnd close

/-- Whether a text begins with the declaration of a constant, a variable, a function or a class. -/
def Declares (text : List Char) : Prop :=
  (∃ keyword ∈ ["const", "let", "var", "function", "class"], ∃ later,
    text = keyword.toList ++ later ∧ ∃ c ∈ later.head?, isWord c = false) ∨
  ∃ gap later, text = "async".toList ++ (gap ++ ("function".toList ++ later)) ∧
    (gap ≠ [] ∧ AreBlank gap) ∧ ∃ c ∈ later.head?, isWord c = false

/-! ## Statements -/

/-- Lines without the word `export`, or what stands before a line break or a comment. -/
def IsCode (text following : List Char) : Prop :=
  ¬exportWord.OccursIn text ∧
    ((∃ c ∈ text.getLast?, Declaration.isIndent c = false ∧ isWord c = false) ∨ following = [])

/-- What stands for the keywords of the default export. -/
def entryText : List Char :=
  Script.assignmentText Script.entrySlot

/-- Lines of a source: code, a list, everything under one name, a default export, a declaration, or
a list or name that the white space before does not set at the start of a line, since it belongs to
the list before. -/
inductive Statement
  | code (text : List Char)
  | list (listing : Listing)
  | bundle (indent blanks gap clause : List Char)
  | default (indent gap gap' expression : List Char)
  | declaration (indent gap declared : List Char)
  | stray (tail : List Char)

namespace Statement

def text : Statement → List Char
  | code text => text
  | list listing => listing.text
  | bundle indent blanks gap clause =>
      indent ++ ("export".toList ++ (blanks ++ '*' :: (gap ++ clause)))
  | default indent gap gap' expression =>
      indent ++ ("export".toList ++ (gap ++ ("default".toList ++ (gap' ++ expression))))
  | declaration indent gap declared => indent ++ ("export".toList ++ (gap ++ declared))
  | stray tail => "export".toList ++ tail

section

variable (indent blanks gap gap' clause expression declared tail : List Char)

theorem text_bundle : (bundle indent blanks gap clause).text =
    indent ++ ("export".toList ++ (blanks ++ '*' :: (gap ++ clause))) :=
  rfl

theorem text_default : (default indent gap gap' expression).text =
    indent ++ ("export".toList ++ (gap ++ ("default".toList ++ (gap' ++ expression)))) :=
  rfl

theorem text_declaration : (declaration indent gap declared).text =
    indent ++ ("export".toList ++ (gap ++ declared)) :=
  rfl

theorem text_stray : (stray tail).text = "export".toList ++ tail :=
  rfl

end

/-- What is to become of a statement. -/
def expected : Statement → List Char
  | code text => text
  | list _ | bundle .. | stray _ => []
  | default indent _ _ expression => indent ++ (entryText ++ expression)
  | declaration indent _ declared => indent ++ declared

/-- What the assignment of the default export leaves of a statement. -/
def assigned : Statement → List Char
  | default indent _ (_ :: _) expression => indent ++ (entryText ++ expression)
  | statement => statement.text

/-- What the erasure of lists leaves of it. -/
def listed : Statement → List Char
  | list _ => []
  | bundle _ _ _ clause => clause
  | statement => statement.assigned

/-- What the erasure of keywords leaves of it. -/
def left : Statement → List Char
  | declaration indent _ declared => indent ++ declared
  | statement => statement.listed

/-- The statements of which the wrong text is left. -/
def Slips : Statement → Prop
  | bundle .. | stray _ => True
  | default _ _ gap' _ => gap' = []
  | _ => False

/-- A list, or everything under one name, without the keyword. -/
def IsTail (tail : List Char) : Prop :=
  (∃ listing : Listing, listing.WellFormed ∧ IsLineEnd listing.close ∧ tail = listing.tail) ∨
    ∃ blanks gap clause, tail = blanks ++ '*' :: (gap ++ clause) ∧ AreBlank blanks ∧
      AreBlank gap ∧ Renames clause

/-- Whether a statement may stand between a character and other statements. -/
def Fits (previous : Option Char) (following : List Char) : Statement → Prop
  | code text => IsCode text following
  | list listing =>
      (previous = none ∨ previous = some '\n') ∧ listing.WellFormed ∧ listing.Ends following
  | bundle indent blanks gap clause =>
      (previous = none ∨ previous = some '\n') ∧ IsIndent indent ∧ AreBlank blanks ∧
        AreBlank gap ∧ Renames clause ∧ IsCode clause following
  | default indent gap gap' expression =>
      IsIndent indent ∧ (gap ≠ [] ∧ AreBlank gap) ∧ AreBlank gap' ∧
        (∃ c ∈ expression.head?, isBlank c = false ∧ (gap' = [] → c ∈ ['(', '[', '\x7b'])) ∧
        IsCode expression following
  | declaration indent gap declared =>
      IsIndent indent ∧ (gap ≠ [] ∧ AreBlank gap) ∧ Declares declared ∧ IsCode declared following
  | stray tail =>
      (∃ c ∈ previous, Declaration.isIndent c = true) ∧ IsTail tail ∧ IsCode tail following

/-- Statements, as they are written, in an order in which they may stand. -/
def WellPlaced (write : Statement → List Char) : Option Char → List Statement → Prop
  | _, [] => True
  | previous, statement :: rest =>
      statement.Fits previous (rest.flatMap write) ∧
        WellPlaced write statement.text.getLast? rest

end Statement

/-! ## Where the patterns begin -/

variable {here there : Cursor} {found : Match} {text word rest : List Char}

/-- No word ends here. -/
def Edge (here : Cursor) : Prop :=
  ∀ c ∈ here.before, isWord c = false

/-- The word `export` stands here, and something follows. -/
def Opens (here : Cursor) : Prop :=
  ∃ c rest, here.rest = "export".toList ++ c :: rest ∧ isWord c = false ∧ Edge here

theorem isBlank_of_isIndent {c : Char} (h : Declaration.isIndent c = true) : isBlank c = true := by
  simp only [Declaration.isIndent, Bool.or_eq_true, beq_iff_eq] at h
  rcases h with rfl | rfl <;> decide

theorem IsIndent.areBlank {indent : List Char} (h : IsIndent indent) : AreBlank indent :=
  fun c mem => isBlank_of_isIndent (h c mem)

theorem AreBlank.not_mem {blanks : List Char} (h : AreBlank blanks) {c : Char}
    (shown : isBlank c = false) : c ∉ blanks := by
  intro mem
  rw [h c mem] at shown
  cases shown

/-- Before a word that begins here, no word ends. -/
theorem edge_of_wordEdge {first last : Progress} (edge : last ∈ wordEdge.ends first) {word : String}
    {initial : Char} {others rest : List Char} (spelled : word.toList = initial :: others)
    (shown : isWord initial = true) (rest_eq : first.here.rest = word.toList ++ rest) :
    Edge first.here := by
  obtain ⟨apart, -⟩ := mem_ends_wordEdge.1 edge
  have precedes : first.here.precedes isWord = true := by
    rw [Cursor.precedes, rest_eq, spelled]
    exact shown
  rw [precedes] at apart
  exact follows_eq_false.1 (Bool.eq_false_iff.2 apart)

theorem text_of_default (h : exportDefault.at? here = some found) :
    Edge here ∧ ∃ gap gap', found.text = "export".toList ++ (gap ++ ("default".toList ++ gap')) ∧
      (gap ≠ [] ∧ AreBlank gap) ∧ gap' ≠ [] ∧ AreBlank gap' := by
  have whole := reads_of_at? h
  obtain ⟨last, ends, rfl⟩ := exists_end_of_at? h
  have parts : exportDefault =
      wordEdge ++ (lit "export" ++ (gap ++ (lit "default" ++ gap))) := rfl
  rw [parts] at ends
  obtain ⟨first, edge, ends⟩ := mem_ends_append.1 ends
  obtain rfl := (mem_ends_wordEdge.1 edge).2
  obtain ⟨_, keyword, ends⟩ := mem_ends_append.1 ends
  obtain ⟨_, gaps, ends⟩ := mem_ends_append.1 ends
  obtain ⟨_, keyword', gaps'⟩ := mem_ends_append.1 ends
  obtain ⟨there, reads, rfl⟩ := mem_ends_lit.1 keyword
  obtain ⟨gap, there', some, areBlank, reads', -, rfl⟩ := Component.mem_ends_gap.1 gaps
  obtain ⟨there'', reads'', rfl⟩ := mem_ends_lit.1 keyword'
  obtain ⟨gap', stop, some', areBlank', reads₃, -, rfl⟩ := Component.mem_ends_gap.1 gaps'
  have reads_all := reads.trans (reads'.trans (reads''.trans reads₃))
  exact ⟨edge_of_wordEdge edge rfl (by decide) reads.rest_eq, gap, gap',
    whole.word_unique reads_all, ⟨some, areBlank⟩, some', areBlank'⟩

theorem opens_of_gap {gap : List Char} (some : gap ≠ []) (areBlank : AreBlank gap)
    (edge : Edge here)
    (rest_eq : here.rest = "export".toList ++ (gap ++ rest)) : Opens here := by
  obtain ⟨c, gap, rfl⟩ := List.exists_cons_of_ne_nil some
  exact ⟨c, gap ++ rest, rest_eq, isWord_of_isBlank (areBlank c List.mem_cons_self), edge⟩

theorem opens_of_default (h : exportDefault.at? here = some found) : Opens here := by
  obtain ⟨edge, gap, gap', eq, ⟨some, areBlank⟩, -⟩ := text_of_default h
  have whole := (reads_of_at? h).rest_eq
  rw [eq] at whole
  simp only [List.append_assoc] at whole
  exact opens_of_gap some areBlank edge whole

theorem text_of_keyword (h : exportKeyword.at? here = some found) :
    Edge here ∧ ∃ gap, found.text = "export".toList ++ gap ∧ gap ≠ [] ∧ AreBlank gap := by
  have whole := reads_of_at? h
  obtain ⟨last, ends, rfl⟩ := exists_end_of_at? h
  rw [Pass.export_parts] at ends
  obtain ⟨first, edge, ends⟩ := mem_ends_append.1 ends
  obtain rfl := (mem_ends_wordEdge.1 edge).2
  obtain ⟨_, keyword, ends⟩ := mem_ends_append.1 ends
  obtain ⟨_, gaps, declares⟩ := mem_ends_append.1 ends
  obtain ⟨-, rfl⟩ := mem_ends_ahead.1 declares
  obtain ⟨there, reads, rfl⟩ := mem_ends_lit.1 keyword
  obtain ⟨gap, there', some, areBlank, reads', -, rfl⟩ := Component.mem_ends_gap.1 gaps
  exact ⟨edge_of_wordEdge edge rfl (by decide) reads.rest_eq, gap,
    whole.word_unique (reads.trans reads'), some, areBlank⟩

theorem opens_of_keyword (h : exportKeyword.at? here = some found) : Opens here := by
  obtain ⟨edge, gap, eq, some, areBlank⟩ := text_of_keyword h
  have whole := (reads_of_at? h).rest_eq
  rw [eq, List.append_assoc] at whole
  exact opens_of_gap some areBlank edge whole

theorem list_parts : exportList = lineStart ++ (indent ++ (lit "export" ++ (spacing ++
    (either (lit "*") (lit "\x7b" ++ (every (· != '\x7d') ++ lit "\x7d")) ++ (spacing ++
    (optional (lit "from" ++ (spacing ++ quoted)) ++ lineRest)))))) :=
  rfl

/-- A list is found at the start of a line. -/
theorem start_of_list (h : exportList.at? here = some found) :
    (here.before = none ∨ here.before = some '\n') ∧ ∃ indent blanks mark rest,
      here.rest = indent ++ ("export".toList ++ (blanks ++ mark :: rest)) ∧
      IsIndent indent ∧ AreBlank blanks ∧ (mark = '*' ∨ mark = '\x7b') := by
  obtain ⟨last, ends, rfl⟩ := exists_end_of_at? h
  rw [list_parts] at ends
  obtain ⟨first, starts, ends⟩ := mem_ends_append.1 ends
  obtain ⟨start, rfl⟩ := mem_ends_lineStart.1 starts
  obtain ⟨_, indents, ends⟩ := mem_ends_append.1 ends
  obtain ⟨_, keyword, ends⟩ := mem_ends_append.1 ends
  obtain ⟨_, spaces, ends⟩ := mem_ends_append.1 ends
  obtain ⟨_, bodies, -⟩ := mem_ends_append.1 ends
  obtain ⟨indent, there, reads, isIndent, rfl⟩ := mem_ends_many.1 indents
  obtain ⟨there', reads', rfl⟩ := mem_ends_lit.1 keyword
  obtain ⟨blanks, there'', reads'', areBlank, -, rfl⟩ := mem_ends_every.1 spaces
  have whole := (reads.trans (reads'.trans reads'')).rest_eq
  simp only [List.append_assoc] at whole
  refine ⟨start, indent, blanks, ?_⟩
  rcases mem_ends_either.1 bodies with all | braces
  · have eq : there''.rest = ['*'] ++ _ := (reads_of_lit all).rest_eq
    exact ⟨'*', _, by rw [whole, eq]; rfl, isIndent, areBlank, .inl rfl⟩
  · obtain ⟨_, opens, -⟩ := mem_ends_append.1 braces
    have eq : there''.rest = ['\x7b'] ++ _ := (reads_of_lit opens).rest_eq
    exact ⟨'\x7b', _, by rw [whole, eq]; rfl, isIndent, areBlank, .inr rfl⟩

theorem isWord_of_mem_export {c : Char} (mem : c ∈ "export".toList) : isWord c = true := by
  have letters : "export".toList.all isWord = true := by decide
  exact List.all_eq_true.1 letters c mem

/-- A pattern looks for the word `export`, perhaps with an indent before it. -/
def Seeks (pattern : Pattern) : Prop :=
  ∀ here found, pattern.at? here = some found →
    ∃ indent there, here.Reads indent there ∧ IsIndent indent ∧ Opens there

theorem seeks_default : Seeks exportDefault :=
  fun here _ h => ⟨[], here, .refl _, nofun, opens_of_default h⟩

theorem seeks_keyword : Seeks exportKeyword :=
  fun here _ h => ⟨[], here, .refl _, nofun, opens_of_keyword h⟩

theorem seeks_list : Seeks exportList := by
  intro here found h
  obtain ⟨start, indent, blanks, mark, rest, rest_eq, isIndent, areBlank, isMark⟩ := start_of_list h
  obtain ⟨there, reads, eq⟩ := exists_reads indent rest_eq
  have other : isWord mark = false := by rcases isMark with rfl | rfl <;> decide
  refine ⟨indent, there, reads, isIndent, ?_⟩
  have edge : Edge there := by
    rw [Edge, reads.before_eq]
    rcases List.eq_nil_or_concat indent with rfl | ⟨front, d, rfl⟩
    · rcases start with none | line
      · simp [none]
      · simp only [line, List.getLast?_nil, Option.none_or, Option.mem_def, Option.some.injEq]
        rintro c rfl
        decide
    · simpa using isWord_of_isBlank (isBlank_of_isIndent (isIndent d (by simp)))
  cases blanks with
  | nil => exact ⟨mark, rest, eq, other, edge⟩
  | cons c blanks =>
      exact ⟨c, blanks ++ mark :: rest, eq, isWord_of_isBlank (areBlank c List.mem_cons_self), edge⟩

/-- No match starts in code. -/
theorem passes_of_isCode {pattern : Pattern} (seeks : Seeks pattern) (isCode : IsCode text rest)
    (rest_eq : here.rest = text ++ rest) : pattern.Passes here text := by
  obtain ⟨free, ended⟩ := isCode
  intro lead middle reads shorter
  cases found_at : pattern.at? middle with
  | none => rfl
  | some found =>
      obtain ⟨indent, place, reads', isIndent, c, later, spelled, other, edge⟩ :=
        seeks middle found found_at
      have whole := (reads.trans reads').rest_eq
      rw [rest_eq, spelled] at whole
      obtain ⟨line, rfl⟩ : lead <+: text := by
        have eq := reads.rest_eq
        rw [rest_eq] at eq
        exact List.prefix_of_prefix_length_le ⟨_, eq.symm⟩ (List.prefix_append _ _)
          (Nat.le_of_lt shorter)
      obtain ⟨front, d, rfl⟩ := (List.eq_nil_or_concat line).resolve_left fun none => by
        simp [none] at shorter
      have eq : (front ++ [d]) ++ rest = (indent ++ "export".toList) ++ c :: later := by
        simpa [List.append_assoc] using whole
      -- The word lies within the code, since the code does not end within an indent or a word.
      obtain ⟨others, eq', eq''⟩ : ∃ others, front ++ [d] = (indent ++ "export".toList) ++ others ∧
          c :: later = others ++ rest := by
        rcases List.append_eq_append_iff.1 eq with ⟨_ | ⟨e, more⟩, split, eq'⟩ | ⟨more, eq', eq''⟩
        · exact ⟨[], by simpa using split.symm, eq'.symm⟩
        · obtain ⟨_, last, notIndent, notWord⟩ := ended.resolve_right fun none => by
            simp [none] at eq'
          obtain rfl : d = _ := by simpa using last
          have mem : d ∈ indent ++ "export".toList := by
            rw [split]
            simp
          rcases List.mem_append.1 mem with mem | mem
          · rw [isIndent d mem] at notIndent
            cases notIndent
          · rw [isWord_of_mem_export mem] at notWord
            cases notWord
        · exact ⟨more, eq', eq''⟩
      refine absurd ⟨lead ++ indent, "export".toList, others, ?_, ?_, rfl, ?_⟩ free
      · rw [List.concat_eq_append, eq']
        simp only [List.append_assoc]
      · intro d last
        refine edge d ?_
        rw [(reads.trans reads').before_eq, last]
        rfl
      · intro d head
        obtain ⟨others, rfl⟩ := List.head?_eq_some_iff.1 head
        obtain rfl : c = d := (List.cons.inj eq'').1
        exact other

/-! ## What statements end with -/

/-- A text does not end with a word. -/
def EndsQuietly (text : List Char) : Prop :=
  ∀ c ∈ text.getLast?, isWord c = false

theorem endsQuietly_of_forall (h : ∀ c ∈ text, isWord c = false) : EndsQuietly text :=
  fun c last => h c (List.mem_of_getLast? last)

theorem EndsQuietly.append {text' : List Char} (h' : EndsQuietly text')
    (h : text' = [] → EndsQuietly text) : EndsQuietly (text ++ text') := by
  intro c last
  rw [List.getLast?_append] at last
  cases ended : text'.getLast? with
  | none =>
      rw [ended, Option.none_or] at last
      exact h (List.getLast?_eq_none_iff.1 ended) c last
  | some d =>
      rw [ended] at last
      obtain rfl : d = c := Option.some.inj last
      exact h' d ended

theorem Edge.of_reads (edge : Edge here) (quiet : EndsQuietly text)
    (reads : here.Reads text there) : Edge there := by
  intro c before
  rw [reads.before_eq] at before
  cases ended : text.getLast? with
  | none =>
      rw [ended, Option.none_or] at before
      exact edge c before
  | some d =>
      rw [ended] at before
      exact quiet c (ended.trans before)

theorem AreBlank.endsQuietly {blanks : List Char} (h : AreBlank blanks) : EndsQuietly blanks :=
  endsQuietly_of_forall fun c mem => isWord_of_isBlank (h c mem)

theorem IsCode.endsQuietly {following : List Char} (isCode : IsCode text following)
    (more : following ≠ []) : EndsQuietly text := by
  obtain ⟨c, ended, -, other⟩ := isCode.2.resolve_right more
  intro d last
  obtain rfl := Option.some.inj (ended.symm.trans last)
  exact other

theorem IsCode.of_imp {following following' : List Char} (isCode : IsCode text following)
    (last : following = [] → following' = []) : IsCode text following' :=
  ⟨isCode.1, isCode.2.imp_right last⟩

theorem endsQuietly_entry (indent : List Char) : EndsQuietly (indent ++ entryText) :=
  EndsQuietly.append (fun c last => by
    have ended : entryText.getLast? = some ' ' := by decide
    obtain rfl := Option.some.inj (ended.symm.trans last)
    decide) fun none => absurd none (by decide)

theorem mem_of_isLineEnd {close : List Char} (h : IsLineEnd close) :
    ∀ c ∈ close, Declaration.isIndent c = true ∨ c = ';' ∨ c = '\n' := by
  obtain ⟨blanks, semicolon, blanks', stop, rfl, isIndent, isIndent', semicolons, stops⟩ := h
  intro c mem
  simp only [List.mem_append] at mem
  rcases mem with mem | mem | mem | mem
  · exact .inl (isIndent c mem)
  · rcases semicolons with rfl | rfl
    · cases mem
    · exact .inr (.inl (List.mem_singleton.1 mem))
  · exact .inl (isIndent' c mem)
  · rcases stops with rfl | rfl
    · cases mem
    · exact .inr (.inr (List.mem_singleton.1 mem))

namespace Listing

variable {listing : Listing} {following : List Char}

theorem Ends.isWord_close (ends : listing.Ends following) :
    ∀ c ∈ listing.close, isWord c = false := by
  intro c mem
  rcases mem_of_isLineEnd ends.lineEnd c mem with indent | rfl | rfl
  · exact isWord_of_isBlank (isBlank_of_isIndent indent)
  · decide
  · decide

theorem Ends.not_mem_close (ends : listing.Ends following) : 'e' ∉ listing.close :=
  fun mem => absurd (ends.isWord_close _ mem) (by decide)

theorem exists_mark (listing : Listing) :
    ∃ mark rest, listing.body = mark :: rest ∧ (mark = '*' ∨ mark = '\x7b') := by
  rw [body]
  cases listing.names with
  | none => exact ⟨'*', [], rfl, .inl rfl⟩
  | some names => exact ⟨'\x7b', _, rfl, .inr rfl⟩

theorem endsQuietly (wellFormed : listing.WellFormed) (ends : listing.Ends following) :
    EndsQuietly listing.text := by
  have sources : EndsQuietly listing.source := by
    rw [source]
    cases given : listing.origin with
    | none => simp [EndsQuietly]
    | some origin =>
        have closed := ImportForm.isWord_of_isQuoteMark (wellFormed.origin origin given).mark
        simp only [Origin.text_eq]
        exact (endsQuietly_of_forall (by simpa using closed)).append (fun none => by cases none)
  have bodies : EndsQuietly listing.body := by
    rw [body]
    cases listing.names with
    | none => simp [EndsQuietly]; decide
    | some names =>
        have split : '\x7b' :: (names ++ ['\x7d']) = ('\x7b' :: names) ++ ['\x7d'] := by simp
        simp only
        rw [split]
        have closed : isWord '\x7d' = false := by decide
        exact (endsQuietly_of_forall (by simpa using closed)).append (fun none => by cases none)
  have closes : EndsQuietly listing.close := endsQuietly_of_forall ends.isWord_close
  have tails := (closes.append fun _ => sources).append fun _ => wellFormed.gap.endsQuietly
  have split : listing.text = (listing.indent ++ ("export".toList ++ listing.blanks)) ++
      (listing.body ++ (listing.gap ++ (listing.source ++ listing.close))) := by
    simp only [text, tail, List.append_assoc]
  obtain ⟨mark, rest, eq, -⟩ := listing.exists_mark
  rw [split]
  exact (tails.append fun _ => bodies).append fun none => by simp [eq] at none

end Listing

/-! ## Texts without the word `export` -/

/-- The word lies across no place that a word does not reach from both sides. -/
theorem occursIn_of_append {text' : List Char}
    (apart : EndsQuietly text ∨ ∀ c ∈ text'.head?, isWord c = false)
    (h : exportWord.OccursIn (text ++ text')) :
    exportWord.OccursIn text ∨ exportWord.OccursIn text' := by
  obtain ⟨front, word, right, eq, follows, rfl, precedes⟩ := h
  rcases List.append_eq_append_iff.1 eq with ⟨front', rfl, eq'⟩ | ⟨others, rfl, eq'⟩
  · refine .inr ⟨front', _, right, eq', fun c last => follows c ?_, rfl, precedes⟩
    rw [List.getLast?_append, last]
    rfl
  · rcases List.append_eq_append_iff.1 eq' with ⟨right', rfl, rfl⟩ | ⟨word', split, rfl⟩
    · refine .inl ⟨front, _, right', rfl, follows, rfl, fun c head => precedes c ?_⟩
      rw [List.head?_append, head]
      rfl
    · rcases List.eq_nil_or_concat others with rfl | ⟨others, c, rfl⟩
      · exact .inr ⟨[], word', right, rfl, nofun, split.symm, precedes⟩
      · rcases word' with _ | ⟨d, word'⟩
        · rw [List.append_nil] at split
          exact .inl ⟨front, _, [], by rw [split, List.append_nil], follows, rfl, nofun⟩
        · rcases apart with quiet | quiet
          · have other := quiet c (by simp)
            rw [isWord_of_mem_export (by rw [split]; simp)] at other
            cases other
          · have other := quiet d (by simp)
            rw [isWord_of_mem_export (by rw [split]; simp)] at other
            cases other

theorem not_occursIn_of_not_mem (absent : 'x' ∉ text) : ¬exportWord.OccursIn text := by
  rintro ⟨front, word, right, rfl, -, rfl, -⟩
  have mem : 'x' ∈ "export".toList := by decide
  exact absent (List.mem_append_right _ (List.mem_append_left _ mem))

theorem IsIndent.not_occursIn {indent : List Char} (h : IsIndent indent) :
    ¬exportWord.OccursIn indent :=
  not_occursIn_of_not_mem (h.areBlank.not_mem (by decide))

/-- Code behind the start of an assignment is code. -/
theorem IsCode.assigned {indent expression following : List Char} (isIndent : IsIndent indent)
    (isCode : IsCode expression following) :
    IsCode (indent ++ (entryText ++ expression)) following := by
  obtain ⟨free, ended⟩ := isCode
  refine ⟨fun occurs => ?_, ended.imp_left fun last => ?_⟩
  · rw [← List.append_assoc] at occurs
    rcases occursIn_of_append (.inl (endsQuietly_entry indent)) occurs with occurs | occurs
    · refine not_occursIn_of_not_mem ?_ occurs
      rw [List.mem_append, not_or]
      exact ⟨isIndent.areBlank.not_mem (by decide), by decide⟩
    · exact free occurs
  · obtain ⟨c, ended, quiet⟩ := last
    exact ⟨c, by rw [List.getLast?_append, List.getLast?_append, ended]; rfl, quiet⟩

/-- Code behind the keyword `default` is code. -/
theorem IsCode.default {expression following : List Char} (isCode : IsCode expression following)
    (apart : ∀ c ∈ expression.head?, isWord c = false) :
    IsCode ("default".toList ++ expression) following := by
  obtain ⟨free, ended⟩ := isCode
  refine ⟨fun occurs => ?_, ended.imp_left fun last => ?_⟩
  · exact (occursIn_of_append (.inr apart) occurs).elim (not_occursIn_of_not_mem (by decide)) free
  · obtain ⟨c, ended, quiet⟩ := last
    exact ⟨c, by rw [List.getLast?_append, ended]; rfl, quiet⟩

/-! ## What statements begin with -/

theorem head_of_declares (h : Declares text) :
    ∃ c rest, text = c :: rest ∧ c ∈ ['c', 'l', 'v', 'f', 'a'] := by
  rcases h with ⟨keyword, mem, later, rfl, -⟩ | ⟨gap, later, rfl, -⟩
  · simp only [List.mem_cons, List.not_mem_nil, or_false] at mem
    rcases mem with rfl | rfl | rfl | rfl | rfl <;> exact ⟨_, _, rfl, by decide⟩
  · exact ⟨'a', _, rfl, by decide⟩

/-- What begins a declaration begins neither a list nor a default export. -/
theorem shown_of_initial {c : Char} (initial : c ∈ ['c', 'l', 'v', 'f', 'a']) :
    isBlank c = false ∧ c ≠ 'd' ∧ c ≠ 'e' ∧ c ≠ '*' ∧ c ≠ '\x7b' := by
  simp only [List.mem_cons, List.not_mem_nil, or_false] at initial
  rcases initial with rfl | rfl | rfl | rfl | rfl <;> decide

theorem isWord_of_mem_openings {c : Char} (mem : c ∈ ['(', '[', '\x7b']) : isWord c = false := by
  simp only [List.mem_cons, List.not_mem_nil, or_false] at mem
  rcases mem with rfl | rfl | rfl <;> decide

theorem Statement.IsTail.exists_mark {tail : List Char} (h : IsTail tail) :
    ∃ blanks mark rest, tail = blanks ++ mark :: rest ∧ AreBlank blanks ∧
      (mark = '*' ∨ mark = '\x7b') := by
  rcases h with ⟨listing, wellFormed, -, rfl⟩ | ⟨blanks, gap, clause, rfl, areBlank, -⟩
  · obtain ⟨mark, rest, eq, isMark⟩ := listing.exists_mark
    refine ⟨listing.blanks, mark, rest ++ (listing.gap ++ (listing.source ++ listing.close)), ?_,
      wellFormed.blanks, isMark⟩
    rw [Listing.tail, eq, List.cons_append]
  · exact ⟨blanks, '*', gap ++ clause, rfl, areBlank, .inl rfl⟩

theorem rewrites_code {pattern : Pattern} {edit : Match → List Char} (seeks : Seeks pattern)
    (isCode : IsCode text there.rest) (reads : here.Reads text there) :
    pattern.Rewrites edit here text there :=
  .of_passes reads (passes_of_isCode seeks isCode reads.rest_eq)

namespace Statement

variable {statement : Statement} {previous : Option Char} {following : List Char}

theorem ne_nil_of_renames {clause : List Char} (h : Renames clause) : clause ≠ [] := by
  obtain ⟨gap, name, gap', origin, close, rfl, -⟩ := h
  exact nofun

theorem endsQuietly (fits : statement.Fits previous following) (more : following ≠ []) :
    EndsQuietly statement.text := by
  have behind {front text : List Char} (quiet : EndsQuietly text) (some : text ≠ []) :
      EndsQuietly (front ++ text) := quiet.append fun none => absurd none some
  cases statement with
  | code text => exact IsCode.endsQuietly fits more
  | list listing => exact listing.endsQuietly fits.2.1 fits.2.2
  | bundle indent blanks gap clause =>
      obtain ⟨-, -, -, -, renames, isCode⟩ := fits
      have split : (bundle indent blanks gap clause).text =
          (indent ++ ("export".toList ++ (blanks ++ '*' :: gap))) ++ clause := by
        simp only [text_bundle, List.append_assoc, List.cons_append]
      rw [split]
      exact behind (isCode.endsQuietly more) (ne_nil_of_renames renames)
  | default indent gap gap' expression =>
      obtain ⟨-, -, -, ⟨c, head, -⟩, isCode⟩ := fits
      have split : (default indent gap gap' expression).text =
          (indent ++ ("export".toList ++ (gap ++ ("default".toList ++ gap')))) ++ expression := by
        simp only [text_default, List.append_assoc]
      rw [split]
      exact behind (isCode.endsQuietly more) fun none => by simp [none] at head
  | declaration indent gap declared =>
      obtain ⟨-, -, declares, isCode⟩ := fits
      obtain ⟨c, rest, rfl, -⟩ := head_of_declares declares
      have split : (declaration indent gap (c :: rest)).text =
          (indent ++ ("export".toList ++ gap)) ++ c :: rest := by
        simp only [text_declaration, List.append_assoc]
      rw [split]
      exact behind (isCode.endsQuietly more) (List.cons_ne_nil _ _)
  | stray tail =>
      obtain ⟨-, isTail, isCode⟩ := fits
      obtain ⟨blanks, mark, rest, rfl, -⟩ := isTail.exists_mark
      exact behind (isCode.endsQuietly more) (by simp)

end Statement

end Modules

end ComponentPreview
