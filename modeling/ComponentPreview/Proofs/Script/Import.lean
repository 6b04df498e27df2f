import ComponentPreview.Proofs.Script.Primitive
import ComponentPreview.Proofs.Script.Residue
import ComponentPreview.Proofs.Text.Preference
import ComponentPreview.Proofs.Text.Rewrite

/-!
# Erasing imports

What the two patterns of imports find, told by the parts of a statement. Erasing changes a text just
if an import stands in it at the start of a line (`eraseImports_eq_self_iff`). A text in front of a
line break keeps to itself just if no keyword at the start of one of its lines goes on behind it as
that of an import (`eraseImports_append_iff`).
-/

namespace ComponentPreview

namespace Modules

open Pattern Edit

inductive ImportForm
  | sourced
  | bare
  deriving DecidableEq, Repr

/-- What may stand between the keyword and the module. -/
def ImportForm.Leads : ImportForm → List Char → Prop
  | sourced, lead => ∃ clause blanks, lead = clause ++ ("from".toList ++ blanks) ∧
      (∀ c ∈ clause, isQuoteMark c = false) ∧ (∀ c ∈ blanks, isBlank c = true) ∧
      (∃ c ∈ clause.head?, isWord c = false) ∧ ∃ c ∈ clause.getLast?, isWord c = false
  | bare, lead => ∀ c ∈ lead, isBlank c = true

/-- An import as far as the quote mark that ends the module. -/
def ImportForm.Spells (form : ImportForm) (word : List Char) : Prop :=
  ∃ indent lead mark module mark',
    word = indent ++ ("import".toList ++ (lead ++ mark :: (module ++ [mark']))) ∧
    (∀ c ∈ indent, Declaration.isIndent c = true) ∧ form.Leads lead ∧ isQuoteMark mark = true ∧
    (∀ c ∈ module, isQuoteMark c = false) ∧ isQuoteMark mark' = true

/-- An import at the start of a line. -/
def ImportForm.token (form : ImportForm) : Token where
  follows previous := previous = none ∨ previous = some '\n'
  reads := form.Spells
  precedes _ := True

theorem eq_of_isQuoteMark {c : Char} (mark : isQuoteMark c = true) : c = '\'' ∨ c = '"' := by
  simpa [isQuoteMark] using mark

theorem isQuoteMark_of_isBlank {c : Char} (blank : isBlank c = true) : isQuoteMark c = false := by
  refine Bool.eq_false_iff.2 fun mark => ?_
  rcases eq_of_isQuoteMark mark with rfl | rfl <;> exact absurd blank (by decide)

/-! ## What the patterns find -/

namespace ImportForm

def pattern : ImportForm → Pattern
  | sourced => importFrom
  | bare => importBare

/-- The part of a pattern between the keyword and the module. -/
def link : ImportForm → Pattern
  | sourced => wordEdge ++ (few (!isQuoteMark ·) (begins (· == 'f')) ++
      (wordEdge ++ (lit "from" ++ spacing)))
  | bare => spacing

theorem pattern_eq (form : ImportForm) : form.pattern =
    lineStart ++ (indent ++ (lit "import" ++ (form.link ++ (quoted ++ lineRest)))) := by
  cases form <;> rfl

variable {form : ImportForm} {first last : Progress} {word lead rest : List Char}

theorem isWord_of_isQuoteMark {c : Char} (mark : isQuoteMark c = true) : isWord c = false := by
  rcases eq_of_isQuoteMark mark with rfl | rfl <;> decide

theorem not_isQuoteMark_of_leads (leads : form.Leads lead) :
    ∀ c ∈ lead, isQuoteMark c = false := by
  cases form with
  | bare => exact fun c mem => isQuoteMark_of_isBlank (leads c mem)
  | sourced =>
      obtain ⟨clause, blanks, rfl, clean, areBlank, -⟩ := leads
      have word : "from".toList.all (!isQuoteMark ·) = true := by decide
      simp only [List.mem_append]
      rintro c (mem | mem | mem)
      · exact clean c mem
      · simpa using List.all_eq_true.1 word c mem
      · exact isQuoteMark_of_isBlank (areBlank c mem)

theorem mem_ends_quoted :
    last ∈ quoted.ends first ↔ ∃ mark module mark' there, isQuoteMark mark = true ∧
      (∀ c ∈ module, isQuoteMark c = false) ∧ isQuoteMark mark' = true ∧
      first.here.Reads (mark :: (module ++ [mark'])) there ∧ last = first.moveTo there := by
  have parts : quoted = one isQuoteMark ++ (every (!isQuoteMark ·) ++ one isQuoteMark) := rfl
  rw [parts, mem_ends_append]
  constructor
  · rintro ⟨opened, opens, ends⟩
    obtain ⟨inner, names, closes⟩ := mem_ends_append.1 ends
    obtain ⟨mark, there, isMark, reads, rfl⟩ := mem_ends_one.1 opens
    obtain ⟨module, there', reads', clean, -, rfl⟩ := mem_ends_every.1 names
    obtain ⟨mark', there'', isMark', reads'', rfl⟩ := mem_ends_one.1 closes
    exact ⟨mark, module, mark', there'', isMark, by simpa using clean, isMark',
      reads.trans (reads'.trans reads''), rfl⟩
  · rintro ⟨mark, module, mark', there, isMark, clean, isMark', reads, rfl⟩
    have rest_eq : first.here.rest = [mark] ++ (module ++ ([mark'] ++ there.rest)) := by
      rw [reads.rest_eq]
      simp
    obtain ⟨opened, reads₁, eq₁⟩ := exists_reads [mark] rest_eq
    obtain ⟨inner, reads₂, eq₂⟩ := exists_reads module eq₁
    obtain ⟨closed, reads₃, -⟩ := exists_reads [mark'] eq₂
    obtain rfl := (reads₁.trans (reads₂.trans reads₃)).unique reads
    refine ⟨_, mem_ends_one.2 ⟨mark, opened, isMark, reads₁, rfl⟩, mem_ends_append.2
      ⟨_, mem_ends_every.2 ⟨module, inner, reads₂, by simpa using clean, ?_, rfl⟩,
        mem_ends_one.2 ⟨mark', closed, isMark', reads₃, rfl⟩⟩⟩
    simp [eq₂, begins, isMark']

/-- What follows the module may always be nothing. -/
theorem mem_ends_lineRest (first : Progress) : first ∈ lineRest.ends first := by
  have none : first ∈ indent.ends first :=
    mem_ends_many.2 ⟨[], first.here, .refl _, by simp, rfl⟩
  have parts : lineRest = indent ++ (optional (lit ";") ++ (indent ++ optional (lit "\n"))) := rfl
  rw [parts]
  exact mem_ends_append.2 ⟨first, none, mem_ends_append.2 ⟨first, mem_ends_optional.2 (.inr rfl),
    mem_ends_append.2 ⟨first, none, mem_ends_optional.2 (.inr rfl)⟩⟩⟩

theorem reads_of_mem_link (keyword : first.here.before = some 't')
    (h : last ∈ form.link.ends first) :
    ∃ lead, form.Leads lead ∧ first.here.Reads lead last.here := by
  cases form with
  | bare =>
      obtain ⟨blanks, there, reads, areBlank, -, rfl⟩ := mem_ends_every.1 h
      exact ⟨blanks, areBlank, reads⟩
  | sourced =>
      obtain ⟨opened, edge, h⟩ := mem_ends_append.1 h
      obtain ⟨apart, same⟩ := mem_ends_wordEdge.1 edge
      obtain rfl : first = opened := same.symm
      obtain ⟨middle, clauses, h⟩ := mem_ends_append.1 h
      obtain ⟨clause, there, reads, clean, -, rfl⟩ := mem_ends_few.1 clauses
      obtain ⟨closed, edge', h⟩ := mem_ends_append.1 h
      obtain ⟨apart', rfl⟩ := mem_ends_wordEdge.1 edge'
      obtain ⟨named, names, spaces⟩ := mem_ends_append.1 h
      obtain ⟨there', reads', rfl⟩ := mem_ends_lit.1 names
      obtain ⟨blanks, there'', reads'', areBlank, -, rfl⟩ := mem_ends_every.1 spaces
      have ends : first.here.follows isWord = true := by
        rw [Cursor.follows, keyword]
        rfl
      have starts : there.precedes isWord = true := by
        rw [Cursor.precedes, show there.rest = _ from reads'.rest_eq]
        rfl
      have quiet : there.follows isWord = false := by
        change there.follows isWord ≠ there.precedes isWord at apart'
        rw [starts] at apart'
        exact Bool.eq_false_iff.2 apart'
      have quiet' : first.here.precedes isWord = false := by
        rw [ends] at apart
        exact Bool.eq_false_iff.2 apart.symm
      have some : clause ≠ [] := by
        rintro rfl
        rw [Cursor.Reads.nil_iff.1 reads, ends] at quiet
        cases quiet
      refine ⟨_, ⟨clause, blanks, rfl, by simpa using clean, areBlank, ?_, ?_⟩,
        reads.trans (reads'.trans reads'')⟩
      · obtain ⟨c, others, rfl⟩ := List.exists_cons_of_ne_nil some
        rw [Cursor.precedes, reads.rest_eq] at quiet'
        exact ⟨c, rfl, quiet'⟩
      · obtain ⟨front, c, rfl⟩ := (List.eq_nil_or_concat clause).resolve_left some
        refine ⟨c, by simp, ?_⟩
        rw [Cursor.follows, reads.before_eq] at quiet
        simpa using quiet

theorem mem_link_of_reads (keyword : first.here.before = some 't') (leads : form.Leads lead)
    {there : Cursor} (reads : first.here.Reads lead there)
    (stop : begins isBlank there.rest = false) : first.moveTo there ∈ form.link.ends first := by
  cases form with
  | bare => exact mem_ends_every.2 ⟨lead, there, reads, leads, stop, rfl⟩
  | sourced =>
      obtain ⟨clause, blanks, rfl, clean, areBlank, ⟨c, initial, other⟩, d, final, other'⟩ := leads
      have rest_eq := reads.rest_eq
      simp only [List.append_assoc] at rest_eq
      obtain ⟨middle, reads₁, eq₁⟩ := exists_reads clause rest_eq
      obtain ⟨named, reads₂, eq₂⟩ := exists_reads "from".toList eq₁
      obtain ⟨stop', reads₃, -⟩ := exists_reads blanks eq₂
      obtain rfl := (reads₁.trans (reads₂.trans reads₃)).unique reads
      have edge : first.here.follows isWord ≠ first.here.precedes isWord := by
        obtain ⟨others, rfl⟩ := List.head?_eq_some_iff.1 initial
        rw [Cursor.follows, keyword, Cursor.precedes, reads₁.rest_eq]
        simp [other, show isWord 't' = true by decide]
      have edge' : middle.follows isWord ≠ middle.precedes isWord := by
        rw [Cursor.follows, reads₁.before_eq, final, Cursor.precedes, eq₁]
        simp [other', show isWord 'f' = true by decide]
      exact mem_ends_append.2 ⟨first, mem_ends_wordEdge.2 ⟨edge, rfl⟩, mem_ends_append.2
        ⟨_, mem_ends_few.2 ⟨clause, middle, reads₁, by simpa using clean, by rw [eq₁]; rfl, rfl⟩,
        mem_ends_append.2 ⟨_, mem_ends_wordEdge.2 ⟨edge', rfl⟩, mem_ends_append.2
        ⟨_, mem_ends_lit.2 ⟨named, reads₂, rfl⟩,
        mem_ends_every.2 ⟨blanks, stop', reads₃, areBlank, stop, rfl⟩⟩⟩⟩⟩

theorem exists_ends_pattern (form : ImportForm) (here : Cursor) :
    (∃ last, last ∈ form.pattern.ends ⟨here, []⟩) ↔
      ∃ word rest, here.rest = word ++ rest ∧ form.token.follows here.before ∧
        form.token.reads word ∧ form.token.precedes rest.head? := by
  rw [pattern_eq]
  constructor
  · rintro ⟨last, ends⟩
    obtain ⟨_, starts, ends⟩ := mem_ends_append.1 ends
    obtain ⟨_, indents, ends⟩ := mem_ends_append.1 ends
    obtain ⟨_, keywords, ends⟩ := mem_ends_append.1 ends
    obtain ⟨linked, links, ends⟩ := mem_ends_append.1 ends
    obtain ⟨_, modules, -⟩ := mem_ends_append.1 ends
    obtain ⟨follows, rfl⟩ := mem_ends_lineStart.1 starts
    obtain ⟨indent, there, reads, isIndent, rfl⟩ := mem_ends_many.1 indents
    obtain ⟨there', reads', rfl⟩ := mem_ends_lit.1 keywords
    have keyword : there'.before = some 't' := by
      rw [reads'.before_eq]
      rfl
    obtain ⟨lead, leads, reads''⟩ := reads_of_mem_link keyword links
    obtain ⟨mark, module, mark', stop, isMark, clean, isMark', reads₃, rfl⟩ :=
      mem_ends_quoted.1 modules
    have whole := reads.trans (reads'.trans (reads''.trans reads₃))
    exact ⟨_, stop.rest, whole.rest_eq, follows,
      ⟨indent, lead, mark, module, mark', rfl, isIndent, leads, isMark, clean, isMark'⟩, trivial⟩
  · rintro ⟨_, rest, rest_eq, follows, ⟨indent, lead, mark, module, mark', rfl, isIndent, leads,
      isMark, clean, isMark'⟩, -⟩
    simp only [List.append_assoc, List.cons_append, List.nil_append] at rest_eq
    obtain ⟨there, reads, eq⟩ := exists_reads indent rest_eq
    obtain ⟨there', reads', eq'⟩ := exists_reads "import".toList eq
    obtain ⟨there'', reads'', eq''⟩ := exists_reads lead eq'
    have eq₃ : there''.rest = (mark :: (module ++ [mark'])) ++ rest := by
      rw [eq'']
      simp
    obtain ⟨stop, reads₃, -⟩ := exists_reads _ eq₃
    have unspaced : begins isBlank there''.rest = false := by
      rw [eq'', begins]
      exact Bool.eq_false_iff.2 fun blank =>
        absurd (isQuoteMark_of_isBlank blank) (by rw [isMark]; decide)
    have keyword : there'.before = some 't' := by
      rw [reads'.before_eq]
      rfl
    exact ⟨_, mem_ends_append.2 ⟨_, mem_ends_lineStart.2 ⟨follows, rfl⟩, mem_ends_append.2
      ⟨_, mem_ends_many.2 ⟨indent, there, reads, isIndent, rfl⟩, mem_ends_append.2
      ⟨_, mem_ends_lit.2 ⟨there', reads', rfl⟩, mem_ends_append.2
      ⟨_, mem_link_of_reads keyword leads reads'' unspaced, mem_ends_append.2
      ⟨_, mem_ends_quoted.2 ⟨mark, module, mark', stop, isMark, clean, isMark', reads₃, rfl⟩,
      mem_ends_lineRest _⟩⟩⟩⟩⟩⟩

theorem occursIn_pattern_iff (form : ImportForm) (text : List Char) :
    form.pattern.occursIn text = true ↔ form.token.OccursIn text :=
  occursIn_iff_of_ends form.exists_ends_pattern text

theorem size_of_at? (form : ImportForm) (here : Cursor) (found : Match)
    (found_at : form.pattern.at? here = some found) : found.whole.size ≠ 0 := by
  have spelled : form.pattern.spells "import".toList = true := by cases form <;> decide
  have inside := (infix_of_at? _ spelled found_at).length_le
  have long : "import".toList.length = 6 := rfl
  rw [Pattern.size_of_at? found_at]
  omega

theorem ne_nil_of_spells (spells : form.Spells word) : word ≠ [] := by
  obtain ⟨indent, lead, mark, module, mark', rfl, -⟩ := spells
  simp

end ImportForm

/-! ## What is left -/

theorem eraseImports_eq_self_iff {text : List Char} :
    eraseImports text = text ↔ ∀ form : ImportForm, ¬form.token.OccursIn text := by
  have erased (form : ImportForm) (text : List Char) :
      (form.pattern.erase text).length + (form.pattern.findAll text).length ≤ text.length := by
    refine length_replace_add_le _ fun found mem => ?_
    obtain ⟨lead, here, reads, found_at⟩ := at?_of_mem_findAll mem
    rw [← Pattern.size_of_at? found_at]
    exact Nat.pos_of_ne_zero (form.size_of_at? here found found_at)
  have missing (form : ImportForm) (text : List Char) :
      form.pattern.findAll text = [] ↔ ¬form.token.OccursIn text := by
    rw [findAll_eq_nil_iff form.size_of_at?, ← form.occursIn_pattern_iff, Bool.not_eq_true]
  have kept (form : ImportForm) (absent : ¬form.token.OccursIn text) :
      form.pattern.erase text = text := by
    refine replace_of_absent ?_ _
    rwa [← form.occursIn_pattern_iff, Bool.not_eq_true] at absent
  constructor
  · intro same
    have first := erased .sourced text
    have second := erased .bare (ImportForm.sourced.pattern.erase text)
    have whole : (ImportForm.bare.pattern.erase (ImportForm.sourced.pattern.erase text)).length =
        text.length := congrArg List.length same
    have none : ¬ImportForm.sourced.token.OccursIn text :=
      (missing .sourced text).1 (List.length_eq_zero_iff.1 (by omega))
    rw [kept .sourced none] at second whole
    have none' : ¬ImportForm.bare.token.OccursIn text :=
      (missing .bare text).1 (List.length_eq_zero_iff.1 (by omega))
    rintro (_ | _)
    · exact none
    · exact none'
  · intro none
    change ImportForm.bare.pattern.erase (ImportForm.sourced.pattern.erase text) = text
    rw [kept .sourced (none .sourced), kept .bare (none .bare)]

def sourcedEdit (text : List Char) : List Change :=
  importFrom.edit Pass.dropMatch text

def bareEdit (text : List Char) : List Change :=
  importBare.edit Pass.dropMatch (importFrom.erase text)

theorem after_sourcedEdit (text : List Char) : after (sourcedEdit text) = importFrom.erase text :=
  after_edit (fun _ => rfl) text

theorem before_bareEdit (text : List Char) : before (bareEdit text) = importFrom.erase text :=
  before_edit (Pass.covers_dropMatch _) _

theorem after_bareEdit (text : List Char) : after (bareEdit text) = eraseImports text :=
  after_edit (fun _ => rfl) _

/-- The erasure leaves an import just if one of its two passes brings it: where a statement was
taken away, an import begins or is put together. What the first pass brings must outlast the
second. Otherwise the erasure has nothing more to do. -/
theorem import_left_iff_joins (text : List Char) :
    ((∃ form : ImportForm, form.token.OccursIn (eraseImports text)) ↔
      (∃ form : ImportForm, Joins (bareEdit text) form.token) ∨
        Joins (sourcedEdit text) ImportForm.sourced.token ∧
          ImportForm.sourced.token.OccursIn (eraseImports text)) ∧
    (eraseImports (eraseImports text) = eraseImports text ↔
      ¬∃ form : ImportForm, form.token.OccursIn (eraseImports text)) := by
  have some (form : ImportForm) (word : List Char) (reads : form.token.reads word) : word ≠ [] :=
    ImportForm.ne_nil_of_spells reads
  have free (form : ImportForm) (next : Option Char) : form.token.precedes next := trivial
  refine ⟨⟨?_, ?_⟩, ?_⟩
  · rintro ⟨form, occurs⟩
    have last := occurs
    rw [← after_bareEdit] at last
    cases form with
    | bare => exact .inl ⟨.bare, joins_of_occursIn (ImportForm.exists_ends_pattern .bare)
        (some .bare) (free .bare) (ImportForm.size_of_at? .bare) last⟩
    | sourced =>
        refine (joins_or_occursIn (some .sourced) (free .sourced) last).imp
          (fun joins => ⟨.sourced, joins⟩) fun earlier => ⟨?_, occurs⟩
        rw [before_bareEdit, ← after_sourcedEdit] at earlier
        exact joins_of_occursIn (ImportForm.exists_ends_pattern .sourced)
          (some .sourced) (free .sourced) (ImportForm.size_of_at? .sourced) earlier
  · rintro (⟨form, joins⟩ | ⟨-, occurs⟩)
    · exact ⟨form, after_bareEdit text ▸ joins.occursIn⟩
    · exact ⟨.sourced, occurs⟩
  · rw [eraseImports_eq_self_iff, not_exists]

/-- What stands behind an import on its line is itself on the start of a line, once that import is
gone. -/
theorem import_left_behind_import :
    ImportForm.sourced.token.OccursIn
      (eraseImports "import a from 'x'; import b from 'y';\n".toList) :=
  (ImportForm.occursIn_pattern_iff .sourced _).1 (by decide +kernel)

/-! ## What stands in front of a line break -/

/-- Whether a keyword that `rest` stands behind is settled not to be that of an import, whatever
follows: as far as the first quote mark, `rest` leads to no module. -/
def Settles (rest : List Char) : Prop :=
  ∃ clause mark later, rest = clause ++ mark :: later ∧ isQuoteMark mark = true ∧
    (∀ c ∈ clause, isQuoteMark c = false) ∧ ∀ form : ImportForm, ¬form.Leads clause

variable {text word rest others lead indent : List Char} {form : ImportForm}

theorem exists_first_mark (text : List Char) :
    (∀ c ∈ text, isQuoteMark c = false) ∨
      ∃ front mark later, text = front ++ mark :: later ∧ isQuoteMark mark = true ∧
        ∀ c ∈ front, isQuoteMark c = false := by
  induction text with
  | nil => exact .inl (by simp)
  | cons c text ih =>
      by_cases isMark : isQuoteMark c = true
      · exact .inr ⟨[], c, text, rfl, isMark, by simp⟩
      · rw [Bool.not_eq_true] at isMark
        refine ih.imp (fun none => List.forall_mem_cons.2 ⟨isMark, none⟩) ?_
        rintro ⟨front, mark, later, rfl, isMark', clean⟩
        exact ⟨c :: front, mark, later, rfl, isMark', List.forall_mem_cons.2 ⟨isMark, clean⟩⟩

theorem exists_before_break {tail : List Char} (h : text ++ '\n' :: others = word ++ tail)
    (unbroken : '\n' ∉ word) : ∃ more, text = word ++ more ∧ tail = more ++ '\n' :: others := by
  rcases List.append_eq_append_iff.1 h with ⟨more, rfl, eq⟩ | ⟨more, rfl, eq⟩
  · cases more with
    | nil => exact ⟨[], by simp, eq.symm⟩
    | cons c more =>
        obtain ⟨rfl, -⟩ := List.cons.inj eq
        exact absurd (by simp) unbroken
  · exact ⟨more, rfl, eq⟩

theorem isWord_head_of_leads {mark : Char} {later : List Char} (leads : form.Leads lead)
    (isMark : isQuoteMark mark = true) :
    ∀ c ∈ (lead ++ mark :: later).head?, isWord c = false := by
  cases form with
  | bare =>
      cases lead with
      | nil => simpa using ImportForm.isWord_of_isQuoteMark isMark
      | cons c lead => simpa using isWord_of_isBlank (leads c List.mem_cons_self)
  | sourced =>
      obtain ⟨clause, blanks, rfl, -, -, ⟨c, initial, other⟩, -⟩ := leads
      obtain ⟨clause, rfl⟩ := List.head?_eq_some_iff.1 initial
      simpa using other

/-- A text up to a line break in which every keyword of an import is settled. -/
def Keeps (text : List Char) : Prop :=
  ∀ lead indent rest, text = lead ++ (indent ++ ("import".toList ++ rest)) →
    (lead.getLast? = none ∨ lead.getLast? = some '\n') →
    (∀ c ∈ indent, Declaration.isIndent c = true) → (∀ c ∈ rest.head?, isWord c = false) →
    Settles rest

theorem passes_of_keeps (form : ImportForm) (keeps : Keeps text) (others : List Char) :
    form.pattern.Passes (.start (text ++ '\n' :: others)) (text ++ ['\n']) := by
  intro lead middle reads shorter
  rw [← Option.not_isSome_iff_eq_none, isSome_at?, ImportForm.exists_ends_pattern]
  rintro ⟨word, rest, rest_eq, follows, ⟨indent, clause, mark, module, mark', rfl, isIndent, leads,
    isMark, -⟩, -⟩
  have whole : text ++ '\n' :: others = lead ++ middle.rest := reads.rest_eq
  obtain ⟨line, rfl⟩ : lead <+: text := by
    refine List.prefix_of_prefix_length_le ⟨_, whole.symm⟩ (List.prefix_append _ _) ?_
    rw [List.length_append, List.length_singleton] at shorter
    exact Nat.le_of_lt_succ shorter
  rw [List.append_assoc, List.append_cancel_left_eq, rest_eq] at whole
  have unbroken : '\n' ∉ indent ++ "import".toList := by
    rw [List.mem_append, not_or]
    exact ⟨fun mem => absurd (isIndent _ mem) (by decide), by decide⟩
  have parts : line ++ '\n' :: others =
      (indent ++ "import".toList) ++ (clause ++ mark :: (module ++ [mark'] ++ rest)) := by
    rw [whole]
    simp
  obtain ⟨more, rfl, eq⟩ := exists_before_break parts unbroken
  have previous : middle.before = lead.getLast? := reads.before_eq.trans Option.or_none
  obtain ⟨clause', mark'', later, rfl, isMark', clean, none⟩ :=
    keeps lead indent more (by simp) (previous ▸ follows) isIndent fun c head => by
      have edge : c ∈ (clause ++ mark :: (module ++ [mark'] ++ rest)).head? → isWord c = false :=
        isWord_head_of_leads leads isMark c
      rw [eq, List.head?_append, head] at edge
      exact edge rfl
  rw [List.append_assoc clause', List.cons_append] at eq
  have clean' := ImportForm.not_isQuoteMark_of_leads leads
  obtain ⟨rfl, -⟩ := Text.first_unique isQuoteMark eq clean' isMark clean isMark'
  exact none form leads

/-- A text and a line break stand apart from whatever follows, just if every keyword of an import
at the start of one of its lines is settled before the break. -/
theorem eraseImports_append_iff (text : List Char) :
    (∀ others, eraseImports (text ++ '\n' :: others) = text ++ '\n' :: eraseImports others) ↔
      Keeps text := by
  constructor
  · intro apart lead indent rest eq start isIndent edge
    have absent (form : ImportForm) (others : List Char) (quiet : eraseImports others = others) :
        ¬form.token.OccursIn (text ++ '\n' :: others) := by
      have same := apart others
      rw [quiet] at same
      exact eraseImports_eq_self_iff.1 same form
    have spelled (form : ImportForm) (others clause module later : List Char) (mark mark' : Char)
        (quiet : eraseImports others = others) (leads : form.Leads clause)
        (isMark : isQuoteMark mark = true) (clean : ∀ c ∈ module, isQuoteMark c = false)
        (isMark' : isQuoteMark mark' = true) :
        rest ++ '\n' :: others ≠ clause ++ mark :: (module ++ mark' :: later) := by
      intro parts
      refine absent form others quiet ⟨lead, _, later, ?_, start,
        ⟨indent, clause, mark, module, mark', rfl, isIndent, leads, isMark, clean, isMark'⟩,
        trivial⟩
      rw [eq]
      simp only [List.append_assoc, parts, List.cons_append, List.nil_append]
    rcases exists_first_mark rest with clean | ⟨clause, mark, later, rfl, isMark, clean⟩
    · have leads : ImportForm.sourced.Leads (rest ++ "\nfrom ".toList) := by
        have areBlank : ∀ c ∈ [' '], isBlank c = true := List.all_eq_true.1 (by decide)
        refine ⟨rest ++ ['\n'], [' '], by simp, ?_, areBlank, ?_, '\n', by simp, by decide⟩
        · simpa [or_imp, forall_and] using ⟨clean, by decide⟩
        · cases rest with
          | nil => exact ⟨'\n', rfl, by decide⟩
          | cons c rest => exact ⟨c, rfl, edge c rfl⟩
      refine absurd ?_ (spelled .sourced "from ''".toList _ [] [] '\'' '\'' (by decide +kernel)
        leads (by decide) (by simp) (by decide))
      simp
    · refine ⟨clause, mark, later, rfl, isMark, clean, fun form leads => ?_⟩
      have closed := (exists_first_mark (later ++ ['\n', '\''])).resolve_left fun none =>
        absurd (none '\'' (by simp)) (by decide)
      obtain ⟨module, mark', more, parts, isMark', clean'⟩ := closed
      refine spelled form ['\''] clause module more mark mark' (by decide +kernel) leads isMark
        clean' isMark' ?_
      rw [← parts]
      simp
  · intro keeps others
    have erased (form : ImportForm) (others : List Char) :
        form.pattern.erase (text ++ '\n' :: others) = text ++ '\n' :: form.pattern.erase others :=
      replace_append (by cases form <;> decide) (fun _ => rfl) others
        (passes_of_keeps form keeps others)
    change ImportForm.bare.pattern.erase (ImportForm.sourced.pattern.erase _) = _
    rw [erased .sourced, erased .bare]
    rfl

/-- A dynamic import without a quote mark is taken for the keyword of the import below it. -/
theorem dynamic_import_erased :
    eraseImports ("import(path);".toList ++ '\n' :: "import x from 'y';\n".toList) ≠
      "import(path);".toList ++ '\n' :: eraseImports "import x from 'y';\n".toList := by
  decide +kernel

end Modules

end ComponentPreview
