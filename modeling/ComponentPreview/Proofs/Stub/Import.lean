import ComponentPreview.Proofs.Source.Import
import ComponentPreview.Proofs.Stub.Coverage
import ComponentPreview.Proofs.Text.Apart

/-!
# Imports that a script loses

An import of one name from a module that is neither of the runtime nor a library is erased from the
script however it is spaced (`eraseImports_append`). The scan for imports is stricter, since it
wants white space before and behind `from`. So the name gets a stub in every source that does not
declare it exactly if there is such space, or the module reads like a tag of the name; and a module
that reads like a declaration of the name takes the stub away (`erased_import_stubbed_iff`).
-/

namespace ComponentPreview

open Pattern

/-- How the name of an import is set off. -/
inductive Setting
  | plain
  | braced
  | tight
  deriving DecidableEq

namespace Setting

def opening : Setting → List Char
  | plain => [' ']
  | braced => [' ', '\x7b']
  | tight => [' ', '\x7b', ' ']

/-- What stands between the name and `from`. -/
def closing : Setting → List Char
  | plain => [' ']
  | braced => ['\x7d', ' ']
  | tight => [' ', '\x7d']

end Setting

/-- An import of one capitalised name, which the runtime does not bind, from a module that is
neither of the runtime nor a library with stand-ins. -/
structure NamedImport where
  setting : Setting
  name : Identifier
  blanks : List Char
  module : Import.Quote
  capital : ∀ c ∈ name.text.head?, c.isUpper = true
  free : String.ofList name.text ∉ Sandbox.runtimeBindings
  areBlank : ∀ c ∈ blanks, isBlank c = true
  nonempty : module.word ≠ []
  foreign : String.ofList module.word ∉ Sandbox.runtimeModules
  unknown : Sandbox.libraryExports? (String.ofList module.word) = none

namespace NamedImport

variable (statement : NamedImport)

/-- What stands between the keyword and the module. -/
def lead : List Char :=
  statement.setting.opening ++ (statement.name.text ++ (statement.setting.closing ++
    ("from".toList ++ statement.blanks)))

def code : List Char :=
  ("import".toList ++ statement.lead) ++ statement.module.text

/-- The statement on a line of its own. -/
def text : List Char :=
  statement.code ++ ";\n".toList

/-- There is white space before and behind `from`. -/
def IsSpaced : Prop :=
  statement.setting ≠ .tight ∧ statement.blanks ≠ []

theorem text_append (rest : List Char) : statement.text ++ rest =
    ("import".toList ++ statement.lead) ++ statement.module.mark :: (statement.module.word ++
      statement.module.mark :: (";\n".toList ++ rest)) := by
  change ((("import".toList ++ statement.lead) ++ (statement.module.mark ::
    (statement.module.word ++ [statement.module.mark]))) ++ ";\n".toList) ++ rest = _
  simp only [List.append_assoc, List.cons_append, List.nil_append]

theorem exists_capital : ∃ c others, statement.name.text = c :: others ∧ c.isUpper = true := by
  obtain ⟨c, others, eq, -⟩ := statement.name.exists_head
  exact ⟨c, others, eq, statement.capital c (by simp [eq])⟩

theorem not_isQuoteMark_of_identifier {c : Char} (id : Identifier) (mem : c ∈ id.text) :
    isQuoteMark c = false := by
  refine Bool.eq_false_iff.2 fun mark => ?_
  have named := id.isNameChar_of_mem mem
  rcases Modules.eq_of_isQuoteMark mark with rfl | rfl <;> exact absurd named (by decide)

theorem not_isQuoteMark_head : ∀ c ∈ "import".toList ++ statement.lead, isQuoteMark c = false := by
  have opening : ∀ c ∈ statement.setting.opening, isQuoteMark c = false := by
    cases statement.setting <;> simp [Setting.opening, isQuoteMark]
  have closing : ∀ c ∈ statement.setting.closing, isQuoteMark c = false := by
    cases statement.setting <;> simp [Setting.closing, isQuoteMark]
  refine List.forall_mem_append.2 ⟨Import.not_isQuoteMark_import, List.forall_mem_append.2
    ⟨opening, List.forall_mem_append.2 ⟨fun c => not_isQuoteMark_of_identifier _,
      List.forall_mem_append.2 ⟨closing, List.forall_mem_append.2
        ⟨Import.not_isQuoteMark_from, fun c mem => ?_⟩⟩⟩⟩⟩
  exact Modules.isQuoteMark_of_isBlank (statement.areBlank c mem)

theorem not_isQuoteMark_module : ∀ c ∈ statement.module.word, isQuoteMark c = false :=
  fun c mem => (statement.module.clean c mem).1

/-! ## What the script loses -/

variable {statement} {here there : Cursor} {first last : Progress} {rest : List Char}

/-- The pattern for imports as far as the quote mark that ends the module. -/
def opener : Pattern :=
  lineStart ++ (Modules.indent ++ (lit "import" ++ (Modules.ImportForm.sourced.link ++ quoted)))

theorem spells_of_opener (h : last ∈ opener.ends first) : last.groups = first.groups ∧
    ∃ word, Modules.ImportForm.sourced.Spells word ∧ first.here.Reads word last.here := by
  obtain ⟨_, starts, ends⟩ := mem_ends_append.1 h
  obtain ⟨_, indents, ends⟩ := mem_ends_append.1 ends
  obtain ⟨_, keywords, ends⟩ := mem_ends_append.1 ends
  obtain ⟨linked, links, modules⟩ := mem_ends_append.1 ends
  obtain ⟨-, rfl⟩ := mem_ends_lineStart.1 starts
  obtain ⟨indent, place, reads, isIndent, rfl⟩ := mem_ends_many.1 indents
  obtain ⟨place', reads', rfl⟩ := mem_ends_lit.1 keywords
  have keyword : place'.before = some 't' := by
    rw [reads'.before_eq]
    rfl
  have same := groups_of_isPlain (by decide) links
  obtain ⟨lead, leads, reads''⟩ := Modules.ImportForm.reads_of_mem_link keyword links
  obtain ⟨mark, module, mark', stop, isMark, clean, isMark', reads₃, rfl⟩ :=
    Modules.ImportForm.mem_ends_quoted.1 modules
  refine ⟨same, _, ⟨indent, lead, mark, module, mark', rfl, isIndent, leads, isMark, clean,
    isMark'⟩, reads.trans (reads'.trans (reads''.trans reads₃))⟩

theorem leads : Modules.ImportForm.sourced.Leads statement.lead := by
  have space : isWord ' ' = false ∧ isWord '\x7d' = false := by decide
  refine ⟨statement.setting.opening ++ (statement.name.text ++ statement.setting.closing),
    statement.blanks, by simp [lead], ?_, statement.areBlank, ?_, ?_⟩
  · have head := statement.not_isQuoteMark_head
    simp only [lead, List.mem_append, or_imp, forall_and] at head ⊢
    exact ⟨head.2.1, head.2.2.1, head.2.2.2.1⟩
  · refine ⟨' ', ?_, space.1⟩
    cases statement.setting <;> rfl
  · cases statement.setting with
    | plain | braced =>
        exact ⟨' ', by simp [Setting.closing, List.getLast?_append], space.1⟩
    | tight => exact ⟨'\x7d', by simp [Setting.closing, List.getLast?_append], space.2⟩

theorem spells_code : Modules.ImportForm.sourced.Spells statement.code :=
  ⟨[], statement.lead, statement.module.mark, statement.module.word, statement.module.mark,
    List.append_assoc _ _ _, List.forall_mem_nil _, leads, statement.module.isMark,
    statement.not_isQuoteMark_module, statement.module.isMark⟩

/-- At the start of the statement the quote marks tell how far an import goes. -/
theorem eq_code_of_spells {word later : List Char} (spells : Modules.ImportForm.sourced.Spells word)
    (same : word ++ later = statement.text ++ rest) : word = statement.code := by
  obtain ⟨indent, lead, mark, module, mark', rfl, isIndent, leads, isMark, clean, isMark'⟩ := spells
  have within : ∀ c ∈ indent ++ ("import".toList ++ lead), isQuoteMark c = false := by
    refine List.forall_mem_append.2 ⟨fun c mem => ?_, List.forall_mem_append.2
      ⟨Import.not_isQuoteMark_import, Modules.ImportForm.not_isQuoteMark_of_leads leads⟩⟩
    have blank := isIndent c mem
    simp only [Declaration.isIndent, Bool.or_eq_true, beq_iff_eq] at blank
    rcases blank with rfl | rfl <;> decide
  have parts : (indent ++ ("import".toList ++ lead)) ++ mark :: (module ++ mark' :: later) =
      statement.text ++ rest := by
    rw [← same]
    simp
  rw [text_append] at parts
  obtain ⟨front_eq, rfl, behind⟩ := Text.first_unique isQuoteMark parts within isMark
    statement.not_isQuoteMark_head statement.module.isMark
  obtain ⟨rfl, rfl, -⟩ := Text.first_unique isQuoteMark behind clean isMark'
    statement.not_isQuoteMark_module statement.module.isMark
  change _ = ("import".toList ++ statement.lead) ++ statement.module.text
  rw [← front_eq]
  simp [Import.Quote.text]

theorem prefers_opener (statement : NamedImport) (rest : List Char) : ∃ there,
    opener.Prefers (.start (statement.text ++ rest)) there ∧
      (Cursor.start (statement.text ++ rest)).Reads statement.code there ∧
      there.rest = ";\n".toList ++ rest := by
  have whole : statement.text ++ rest = statement.code ++ (";\n".toList ++ rest) :=
    List.append_assoc _ _ _
  obtain ⟨place, reads, place_eq⟩ := exists_reads statement.code
    (show (Cursor.start (statement.text ++ rest)).rest = _ from whole)
  have unique (last : Progress) (ends : last ∈ opener.ends ⟨.start (statement.text ++ rest), []⟩) :
      last = ⟨place, []⟩ := by
    obtain ⟨groups, word, spells, reads'⟩ := spells_of_opener ends
    obtain rfl := eq_code_of_spells spells reads'.rest_eq.symm
    obtain ⟨here, _⟩ := last
    obtain rfl : here = place := reads'.unique reads
    exact congrArg (Progress.mk here) groups
  obtain ⟨last, ends⟩ := (Modules.ImportForm.exists_ends_pattern .sourced
    (.start (statement.text ++ rest))).2
      ⟨statement.code, _, whole, .inl rfl, spells_code, trivial⟩
  rw [show Modules.ImportForm.sourced.pattern = opener ++ Modules.lineRest from rfl] at ends
  obtain ⟨middle, ends, -⟩ := mem_ends_append.1 ends
  exact ⟨place, .of_unique (unique middle ends ▸ ends) unique, reads, place_eq⟩

/-- The pattern for imports prefers all of the line. -/
theorem prefers_statement (statement : NamedImport) (rest : List Char) : ∃ there,
    Modules.importFrom.Prefers (.start (statement.text ++ rest)) there ∧
      (Cursor.start (statement.text ++ rest)).Reads statement.text there ∧ there.rest = rest := by
  obtain ⟨place, opens, reads, place_eq⟩ := statement.prefers_opener rest
  obtain ⟨closed, reads₁, eq₁⟩ := exists_reads ";".toList
    (show place.rest = ";".toList ++ ("\n".toList ++ rest) from place_eq)
  obtain ⟨there, reads₂, eq₂⟩ := exists_reads "\n".toList eq₁
  have unindented : Modules.indent.Prefers place place :=
    .many (.refl _) (List.forall_mem_nil _) (by rw [place_eq]; rfl)
  have unindented' : Modules.indent.Prefers closed closed :=
    .many (.refl _) (List.forall_mem_nil _) (by rw [eq₁]; rfl)
  have parts : Modules.importFrom = opener ++ (Modules.indent ++ (optional (lit ";") ++
      (Modules.indent ++ optional (lit "\n")))) := rfl
  exact ⟨there, parts ▸ opens.append (unindented.append ((Prefers.lit reads₁).of_left.append
    (unindented'.append (Prefers.lit reads₂).of_left))), reads.trans (reads₁.trans reads₂), eq₂⟩

/-- The statement is erased, whatever stands below it. -/
theorem eraseImports_append (statement : NamedImport) (rest : List Char) :
    Modules.eraseImports (statement.text ++ rest) = Modules.eraseImports rest := by
  obtain ⟨there, prefers, reads, rest_eq⟩ := statement.prefers_statement rest
  have whole : statement.text ++ rest = (statement.code ++ [';']) ++ '\n' :: rest := by
    simp [text]
  have front : statement.code ++ [';'] ++ ['\n'] = statement.text := by simp [text]
  have place : (Cursor.start rest).shift '\n' ((statement.code ++ [';']).length + 1) = there := by
    have back := Cursor.reads_shift (statement.code ++ [';']) '\n' rest
    rw [front, ← whole] at back
    exact back.unique reads
  have erased : Modules.importFrom.erase (statement.text ++ rest) =
      Modules.importFrom.erase rest := by
    have rewrites : Modules.importFrom.Rewrites (fun _ => [])
        (.start (statement.text ++ rest)) [] there :=
      .of_prefers prefers reads (by simp [text]) fun _ => rfl
    rw [whole, ← place] at rewrites
    rw [whole]
    exact replace_append_of_rewrites (by decide) (fun _ => rfl) rewrites
  rw [Modules.eraseImports, erased]
  rfl

/-! ## What it declares -/

/-- Whether a character is none of those that end the line. -/
def isInner (c : Char) : Bool :=
  c != ';' && c != '\n'

/-- A pattern that takes quote marks for the end of the text, and of which no match starts in the
end of the line. -/
structure Parts (pattern : Pattern) : Prop where
  stops : ∀ mark, isQuoteMark mark = true → pattern.StopsAt mark
  ignores : ∀ mark, isQuoteMark mark = true ∨ mark = '\n' → pattern.ignores mark = true
  heads : ∀ here found, pattern.at? here = some found → begins isInner here.rest = true

/-- What such a pattern captures stands before the module, in it or below the statement. -/
theorem groupTexts_text {pattern : Pattern} (parts : Parts pattern) (statement : NamedImport)
    (rest : List Char) : pattern.groupTexts (statement.text ++ rest) =
      pattern.groupTexts ("import".toList ++ statement.lead) ++
        (pattern.groupTexts statement.module.word ++ pattern.groupTexts rest) := by
  have stops := parts.stops _ statement.module.isMark
  have ignores := parts.ignores _ (.inl statement.module.isMark)
  have below : pattern.groupTexts ([';'] ++ '\n' :: rest) = pattern.groupTexts rest :=
    groupTexts_append (parts.ignores _ (.inr rfl))
      (.of_heads parts.heads (Cursor.reads_shift _ _ _) (by simp [isInner]))
  rw [text_append, groupTexts_apart stops ignores, groupTexts_apart stops ignores]
  exact congrArg (fun texts => _ ++ (_ ++ texts)) below

theorem parts_declaration : Parts Source.declaration where
  stops mark isMark := by
    have each (mark : Char) (word : isWord mark = false) (blank : isBlank mark = false)
        (start : isNameStart mark = false) (named : isNameChar mark = false)
        (absent : ∀ keyword ∈ Source.keywords, mark ∉ keyword.toList) :
        Source.declaration.StopsAt mark := by
      simp only [Source.keywords, List.forall_mem_cons] at absent
      obtain ⟨h₁, h₂, h₃, h₄, h₅, h₆, -⟩ := absent
      exact ⟨word, ⟨h₁, h₂, h₃, h₄, h₅, h₆⟩, blank, stopsAt_every blank, start, stopsAt_every named⟩
    rcases Modules.eq_of_isQuoteMark isMark with rfl | rfl
    · exact each _ (by decide) (by decide) (by decide) (by decide) (by decide)
    · exact each _ (by decide) (by decide) (by decide) (by decide) (by decide)
  ignores mark isMark := by
    rcases isMark.imp_left Modules.eq_of_isQuoteMark with (rfl | rfl) | rfl <;> decide
  heads here found found_at := by
    obtain ⟨keyword, mem, blanks, right, text, rest_eq, -⟩ := Source.text_of_declaration found_at
    have letters : ∀ keyword ∈ Source.keywords, begins isInner keyword.toList = true := by decide
    have head := letters keyword mem
    rw [rest_eq, text]
    cases spelled : keyword.toList with
    | nil => simp [spelled, begins] at head
    | cons c others => simpa [spelled, begins] using head

theorem parts_markupTag : Parts Source.markupTag where
  stops mark isMark := by
    have each (mark : Char) (angle : mark ∉ "<".toList) (upper : mark.isUpper = false)
        (named : isNameChar mark = false) : Source.markupTag.StopsAt mark :=
      ⟨trivial, angle, upper, stopsAt_many named⟩
    rcases Modules.eq_of_isQuoteMark isMark with rfl | rfl
    · exact each _ (by decide) (by decide) (by decide)
    · exact each _ (by decide) (by decide) (by decide)
  ignores mark isMark := by
    rcases isMark.imp_left Modules.eq_of_isQuoteMark with (rfl | rfl) | rfl <;> decide
  heads here found found_at := by
    obtain ⟨right, rest_eq, -⟩ := Source.tag_of_at? found_at
    rw [rest_eq]
    rfl

theorem mem_captured {pattern : Pattern} {text name : List Char} :
    String.ofList name ∈ (pattern.findAll text).map (fun found => String.ofList (found.group 0)) ↔
      name ∈ pattern.groupTexts text := by
  simp [groupTexts, String.ofList_inj]

theorem mem_declaredNames {text name : List Char} :
    String.ofList name ∈ Source.declaredNames text ↔ name ∈ Source.declaration.groupTexts text := by
  rw [Source.declaredNames, Text.mem_distinct, mem_captured]

theorem mem_markupNames {text name : List Char} :
    String.ofList name ∈ Source.markupNames text ↔ name ∈ Source.markupTag.groupTexts text := by
  rw [Source.markupNames, Text.mem_distinct, mem_captured]

theorem not_isUpper_of_isBlank {c : Char} (blank : isBlank c = true) : c.isUpper = false := by
  refine Bool.eq_false_iff.2 fun upper => ?_
  have named := isNameChar_of_isNameStart c (Source.isNameStart_of_isUpper upper)
  rw [not_isNameChar_of_isBlank blank] at named
  cases named

theorem not_isUpper_before (statement : NamedImport) :
    ∀ c ∈ "import".toList ++ statement.setting.opening, c.isUpper = false := by
  have plain (setting : Setting) :
      ("import".toList ++ setting.opening).all (fun c => !c.isUpper) = true := by
    cases setting <;> decide
  simpa only [Bool.not_eq_true'] using List.all_eq_true.1 (plain statement.setting)

theorem not_isUpper_behind (statement : NamedImport) :
    ∀ c ∈ statement.setting.closing ++ ("from".toList ++ statement.blanks),
      c.isUpper = false := by
  have plain (setting : Setting) :
      (setting.closing ++ "from".toList).all (fun c => !c.isUpper) = true := by
    cases setting <;> decide
  rw [← List.append_assoc]
  refine List.forall_mem_append.2 ⟨?_, fun c mem => ?_⟩
  · simpa only [Bool.not_eq_true'] using List.all_eq_true.1 (plain statement.setting)
  · exact not_isUpper_of_isBlank (statement.areBlank c mem)

/-- No keyword of a declaration stands right before the name. -/
theorem not_keyword_before (setting : Setting) {lead blanks : List Char} {keyword : String}
    (mem : keyword ∈ Source.keywords) (areBlank : ∀ c ∈ blanks, isBlank c = true) :
    "import".toList ++ setting.opening ≠ lead ++ (keyword.toList ++ blanks) := by
  have shown : Source.keywords.all (fun keyword =>
      begins (!isBlank ·) keyword.toList.reverse) = true := by decide
  have light : begins isBlank (lead ++ keyword.toList).reverse = false := by
    have head := List.all_eq_true.1 shown keyword mem
    rw [List.reverse_append]
    cases reversed : keyword.toList.reverse with
    | nil => simp [reversed, begins] at head
    | cons c others => simpa [reversed, begins] using head
  have each (front spaces : List Char) (areSpaces : ∀ c ∈ spaces, isBlank c = true)
      (shown : begins isBlank front.reverse = false)
      (apart : Source.keywords.all (fun keyword => !keyword.toList.isSuffixOf front) = true) :
      front ++ spaces ≠ lead ++ (keyword.toList ++ blanks) := by
    intro eq
    rw [← List.append_assoc] at eq
    have known := List.all_eq_true.1 apart keyword mem
    have suffix : keyword.toList <:+ front :=
      ⟨lead, (Source.front_unique areSpaces areBlank shown light eq).symm⟩
    rw [List.isSuffixOf_iff_suffix.2 suffix] at known
    cases known
  cases setting with
  | plain => exact each "import".toList [' '] Import.isBlank_space (by decide) (by decide)
  | braced => exact each "import \x7b".toList [] (List.forall_mem_nil _) (by decide) (by decide)
  | tight => exact each "import \x7b".toList [' '] Import.isBlank_space (by decide) (by decide)

theorem not_declared_before (statement : NamedImport) :
    statement.name.text ∉ Source.declaration.groupTexts ("import".toList ++ statement.lead) := by
  intro declared
  obtain ⟨found, mem, named⟩ := List.mem_map.1 declared
  obtain ⟨lead, here, reads, found_at⟩ := at?_of_mem_findAll mem
  obtain ⟨keyword, listed, blanks, right, text, rest_eq, ⟨some, areBlank⟩, -⟩ :=
    Source.text_of_declaration found_at
  obtain ⟨c, others, name_eq, upper⟩ := statement.exists_capital
  rw [named] at text
  have same : (lead ++ (keyword.toList ++ blanks)) ++ (statement.name.text ++ right) =
      ("import".toList ++ statement.setting.opening) ++ c :: (others ++
        (statement.setting.closing ++ ("from".toList ++ statement.blanks))) := by
    have whole : "import".toList ++ statement.lead = lead ++ here.rest := reads.rest_eq
    rw [rest_eq, text, NamedImport.lead, name_eq] at whole
    simpa [name_eq] using whole.symm
  rcases Text.append_eq_append_cons same with ⟨more, eq, eq'⟩ | ⟨more, eq, eq'⟩
  · -- The name is the one that is imported, and nothing before it is a keyword.
    cases more with
    | nil =>
        rw [List.append_nil] at eq
        exact not_keyword_before statement.setting listed areBlank eq
    | cons d more =>
        rw [name_eq] at eq'
        obtain ⟨rfl, -⟩ := List.cons.inj eq'
        have lower := statement.not_isUpper_before c (eq ▸ by simp)
        rw [upper] at lower
        cases lower
  · -- The name stands behind the one that is imported, where no capital is.
    obtain ⟨blanks, d, rfl⟩ := (List.eq_nil_or_concat blanks).resolve_left some
    have blank := areBlank d (by simp)
    obtain ⟨more, rfl⟩ : ∃ front, more = front ++ [d] := by
      have last := congrArg List.getLast? eq
      rw [List.concat_eq_append, ← List.append_assoc, ← List.append_assoc, List.getLast?_concat,
        List.getLast?_append] at last
      rcases List.eq_nil_or_concat more with rfl | ⟨front, e, rfl⟩
      · obtain rfl : d = c := Option.some.inj last
        rw [not_isUpper_of_isBlank blank] at upper
        cases upper
      · rw [List.concat_eq_append, ← List.cons_append, List.getLast?_concat] at last
        exact ⟨front, by rw [List.concat_eq_append, Option.some.inj last]⟩
    rw [List.append_assoc, List.singleton_append, name_eq] at eq'
    rcases Text.append_eq_append_cons eq' with ⟨front, -, eq''⟩ | ⟨front, eq'', -⟩
    · have lower := statement.not_isUpper_behind c (eq'' ▸ by simp)
      rw [upper] at lower
      cases lower
    · have inner := statement.name.isNameChar_of_mem (c := d) (by simp [name_eq, eq''])
      rw [not_isNameChar_of_isBlank blank] at inner
      cases inner

/-- A source declares the name just if the module reads like that or what stands below does. -/
theorem declares_iff (statement : NamedImport) (rest : List Char) :
    String.ofList statement.name.text ∈ Source.declaredNames (statement.text ++ rest) ↔
      String.ofList statement.name.text ∈ Source.declaredNames statement.module.word ∨
        String.ofList statement.name.text ∈ Source.declaredNames rest := by
  simp only [mem_declaredNames]
  rw [groupTexts_text parts_declaration, List.mem_append, List.mem_append]
  exact or_iff_right statement.not_declared_before

theorem not_tagged_before (statement : NamedImport) (name : List Char) :
    name ∉ Source.markupTag.groupTexts ("import".toList ++ statement.lead) := by
  intro tagged
  obtain ⟨found, mem, -⟩ := List.mem_map.1 tagged
  obtain ⟨front, here, reads, found_at⟩ := at?_of_mem_findAll mem
  obtain ⟨right, rest_eq, -⟩ := Source.tag_of_at? found_at
  have whole : "import".toList ++ statement.lead = front ++ here.rest := reads.rest_eq
  have angle : '<' ∈ "import".toList ++ statement.lead := by
    rw [whole, rest_eq]
    simp
  have opening : '<' ∉ "import".toList ++ statement.setting.opening := by
    cases statement.setting <;> decide
  have closing : '<' ∉ statement.setting.closing ++ "from".toList := by
    cases statement.setting <;> decide
  simp only [lead, List.mem_append, not_or] at angle opening closing
  rcases angle with word | before | named | behind | word | blank
  · exact opening.1 word
  · exact opening.2 before
  · exact absurd (statement.name.isNameChar_of_mem named) (by decide)
  · exact closing.1 behind
  · exact closing.2 word
  · exact absurd (statement.areBlank _ blank) (by decide)

/-- The tags of a source are those that the module reads like and those below. -/
theorem tags_iff (statement : NamedImport) (name rest : List Char) :
    String.ofList name ∈ Source.markupNames (statement.text ++ rest) ↔
      String.ofList name ∈ Source.markupNames statement.module.word ∨
        String.ofList name ∈ Source.markupNames rest := by
  simp only [mem_markupNames]
  rw [groupTexts_text parts_markupTag, List.mem_append, List.mem_append]
  exact or_iff_right (statement.not_tagged_before name)

/-! ## What the scans for imports see -/

/-- The clause of an import that is set in canonical spacing. -/
def clause (statement : NamedImport) : Import.Clause :=
  match statement.setting with
  | .plain => .single statement.name
  | .braced | .tight => .items none ⟨[], List.forall_mem_nil _⟩ [⟨false, statement.name, none⟩]

theorem name_mem_read (statement : NamedImport) :
    String.ofList statement.name.text ∈ statement.clause.read.map String.ofList := by
  refine List.mem_map_of_mem ?_
  unfold clause
  cases statement.setting <;>
    simp [Import.Clause.read, Import.Clause.bound, Import.Specifier.read,
      Import.Specifier.IsMisread, Import.Specifier.bound]

theorem lead_eq_of_isSpaced (spaced : statement.IsSpaced) :
    statement.lead = ' ' :: (statement.clause.text ++ (" from".toList ++ statement.blanks)) := by
  have loose := spaced.1
  rw [lead, clause]
  cases setting : statement.setting with
  | plain => simp [Setting.opening, Setting.closing, Import.Clause.text]
  | braced =>
      simp [Setting.opening, Setting.closing, Import.Clause.text, Import.Clause.leading,
        Import.Specifier.text, Import.Specifier.bare, Import.Specifier.aliased, Text.join]
  | tight => exact absurd setting loose

/-- With white space on both sides of `from`, the statement is the first import of a source. -/
theorem exists_all_eq (spaced : statement.IsSpaced) (rest : List Char) :
    ∃ others, Import.all (statement.text ++ rest) =
      ⟨statement.clause.read.map String.ofList, String.ofList statement.module.word⟩ :: others := by
  have links : Import.Links statement.lead statement.clause.text :=
    lead_eq_of_isSpaced spaced ▸ Import.links_clause _ spaced.2 statement.areBlank
  have whole := statement.text_append rest
  have fits : (Import.statement.at? (.start (statement.text ++ rest))).isSome = true :=
    Import.isSome_statement nofun links statement.module.isMark
      ⟨statement.nonempty, statement.not_isQuoteMark_module⟩ statement.module.isMark
      (whole.trans (List.append_assoc _ _ _))
  obtain ⟨found, found_at⟩ := Option.isSome_iff_exists.1 fits
  obtain ⟨lead, mark, mark', reads, links', isMark, isMark', ⟨-, clean⟩, -⟩ :=
    Import.statement_at? found_at
  have within : ∀ c ∈ "import".toList ++ lead, isQuoteMark c = false :=
    List.forall_mem_append.2 ⟨Import.not_isQuoteMark_import, links'.not_isQuoteMark⟩
  have same : ("import".toList ++ lead) ++ mark :: (found.group 1 ++ mark' :: found.stop.rest) =
      statement.text ++ rest := by
    rw [show statement.text ++ rest = _ from reads.rest_eq]
    simp
  rw [whole] at same
  obtain ⟨lead_eq, -, behind⟩ := Text.first_unique isQuoteMark same within isMark
    statement.not_isQuoteMark_head statement.module.isMark
  obtain ⟨module_eq, -⟩ := Text.first_unique isQuoteMark behind clean isMark'
    statement.not_isQuoteMark_module statement.module.isMark
  obtain rfl := List.append_cancel_left lead_eq
  rw [lead_eq_of_isSpaced spaced] at links'
  obtain ⟨others, eq⟩ := Import.exists_all_eq found_at
  refine ⟨others, ?_⟩
  rw [eq, Import.ofMatch, links'.specifier_eq statement.areBlank, module_eq,
    Import.Clause.boundNames_text]

theorem startsUpperCase_name (statement : NamedImport) :
    Source.startsUpperCase (String.ofList statement.name.text) = true := by
  obtain ⟨c, others, name_eq, upper⟩ := statement.exists_capital
  have small : c.toNat < 128 := by
    have range : decide ('A'.val ≤ c.val ∧ c.val ≤ 'Z'.val) = true := upper
    simp only [decide_eq_true_eq, UInt32.le_iff_toNat_le] at range
    have last : ('Z'.val).toNat = 90 := rfl
    rw [Char.toNat]
    omega
  rw [Source.startsUpperCase, String.toList_ofList, name_eq]
  simp [isUpperCase, small, upper]

theorem name_mem_importedNames (spaced : statement.IsSpaced) (rest : List Char) :
    String.ofList statement.name.text ∈ Source.importedNames (statement.text ++ rest) := by
  obtain ⟨others, eq⟩ := exists_all_eq spaced rest
  have foreign : Sandbox.runtimeModules.contains (String.ofList statement.module.word) = false := by
    simpa using statement.foreign
  rw [Source.importedNames, Text.mem_distinct, List.mem_filter, List.mem_flatMap]
  refine ⟨⟨_, List.mem_filter.2 ⟨eq ▸ List.mem_cons_self, ?_⟩, statement.name_mem_read⟩,
    statement.startsUpperCase_name⟩
  rw [foreign]
  rfl

/-- The module is the only text between quote marks. -/
theorem eq_of_marks {front word behind : List Char} {mark mark' : Char}
    (whole : statement.text = front ++ mark :: (word ++ mark' :: behind))
    (isMark : isQuoteMark mark = true) (clean : ∀ c ∈ word, isQuoteMark c = false)
    (isMark' : isQuoteMark mark' = true) :
    front = "import".toList ++ statement.lead ∧ word = statement.module.word := by
  have parts := statement.text_append []
  rw [List.append_nil, List.append_nil] at parts
  have none {word : List Char} (clean : ∀ c ∈ word, isQuoteMark c = false) :
      word.countP isQuoteMark = 0 :=
    List.countP_eq_zero.2 fun c mem => by simp [clean c mem]
  have two : statement.text.countP isQuoteMark = 2 := by
    have ending : ∀ c ∈ ";\n".toList, isQuoteMark c = false := by simp [isQuoteMark]
    rw [parts, List.countP_append, none statement.not_isQuoteMark_head, List.countP_cons,
      List.countP_append, none statement.not_isQuoteMark_module, List.countP_cons, none ending,
      statement.module.isMark, if_pos rfl]
  rw [whole, List.countP_append, List.countP_cons, List.countP_append, List.countP_cons,
    none clean, isMark, isMark', if_pos rfl] at two
  have before : ∀ c ∈ front, isQuoteMark c = false := by
    simpa using List.countP_eq_zero.1 (by omega : front.countP isQuoteMark = 0)
  obtain ⟨front_eq, -, later⟩ := Text.first_unique isQuoteMark (whole.symm.trans parts) before
    isMark statement.not_isQuoteMark_head statement.module.isMark
  exact ⟨front_eq, (Text.first_unique isQuoteMark later clean isMark'
    statement.not_isQuoteMark_module statement.module.isMark).1⟩

/-- The scan for imports sees the statement only with white space on both sides of `from`. -/
theorem isSpaced_of_mem_all {imported : Import} (mem : imported ∈ Import.all statement.text) :
    statement.IsSpaced := by
  obtain ⟨found, mem, -⟩ := List.mem_map.1 mem
  obtain ⟨front, here, reads, found_at⟩ := at?_of_mem_findAll mem
  obtain ⟨lead, mark, mark', reads', links, isMark, isMark', ⟨-, clean⟩, -⟩ :=
    Import.statement_at? found_at
  have whole : statement.text = (front ++ ("import".toList ++ lead)) ++ mark ::
      (found.group 1 ++ mark' :: found.stop.rest) := by
    rw [show statement.text = front ++ here.rest from reads.rest_eq, reads'.rest_eq]
    simp
  obtain ⟨eq, -⟩ := eq_of_marks whole isMark clean isMark'
  obtain ⟨blanks, blanks', blanks'', rfl, ⟨-, some', some''⟩, ⟨-, areBlank', areBlank''⟩, -⟩ :=
    links
  set before := front ++ ("import".toList ++ (blanks ++ (found.group 0 ++ blanks'))) with before_eq
  set before' := "import".toList ++ (statement.setting.opening ++ (statement.name.text ++
    statement.setting.closing)) with before'_eq
  have same : (before ++ "from".toList) ++ blanks'' =
      (before' ++ "from".toList) ++ statement.blanks := by
    simpa [before_eq, before'_eq, lead] using eq
  have shown (word : List Char) : begins isBlank (word ++ "from".toList).reverse = false := by
    rw [List.reverse_append]
    rfl
  have front_eq := Source.front_unique areBlank'' statement.areBlank (shown _) (shown _) same
  rw [front_eq, List.append_cancel_left_eq] at same
  refine ⟨fun tight => ?_, same ▸ some''⟩
  obtain ⟨spaces, c, rfl⟩ := (List.eq_nil_or_concat blanks').resolve_left some'
  have last := congrArg List.getLast? (List.append_cancel_right front_eq)
  have ended : before.getLast? = some c := by
    rw [before_eq, List.concat_eq_append]
    simp only [← List.append_assoc, List.getLast?_concat]
  have ended' : before'.getLast? = some '\x7d' := by
    rw [before'_eq, tight, show Setting.closing .tight = [' '] ++ ['\x7d'] from rfl]
    simp only [← List.append_assoc, List.getLast?_concat]
  rw [ended, ended', Option.some.injEq] at last
  have blank := areBlank' c (by simp)
  rw [last] at blank
  cases blank

theorem isSpaced_of_mem_importedNames {name : String}
    (mem : name ∈ Source.importedNames statement.text) : statement.IsSpaced := by
  have bound := (List.mem_filter.1 (Text.mem_distinct.1 mem)).1
  obtain ⟨imported, listed, -⟩ := List.mem_flatMap.1 bound
  exact isSpaced_of_mem_all (List.mem_filter.1 listed).1

/-- What a scan for imports of libraries takes for the module of the statement is its module. -/
theorem group_eq_word {lead body link : Pattern} {found : Match}
    (plain : lead.isPlain = true ∧ body.isPlain = true ∧ link.isPlain = true)
    (mem : found ∈ ((lead ++ (capture body ++ link)) ++ quotedText).findAll statement.text) :
    found.group 1 = statement.module.word := by
  obtain ⟨front, here, reads, found_at⟩ := at?_of_mem_findAll mem
  obtain ⟨last, ends, rfl⟩ := exists_end_of_at? found_at
  obtain ⟨linked, fore, quoted⟩ := mem_ends_append.1 ends
  obtain ⟨mark, module, mark', place, inner, there, isMark, ⟨-, clean⟩, isMark', reads₁, reads₂,
    reads₃, rfl⟩ := Import.mem_ends_quotedText.1 quoted
  obtain ⟨word, reads'⟩ := reads_of_mem_ends fore
  have whole : statement.text = (front ++ word) ++ mark :: (module ++ mark' :: there.rest) := by
    have behind := (reads.trans reads').trans (reads₁.trans (reads₂.trans reads₃))
    rw [show statement.text = _ from behind.rest_eq]
    simp
  obtain ⟨opened, leads, ends⟩ := mem_ends_append.1 fore
  obtain ⟨closed, captured, links⟩ := mem_ends_append.1 ends
  obtain ⟨named, names, rfl⟩ := mem_ends_capture.1 captured
  have groups : linked.groups = [Span.between opened.here named.here] := by
    rw [groups_of_isPlain plain.2.2 links, groups_of_isPlain plain.2.1 names,
      groups_of_isPlain plain.1 leads]
    rfl
  have module_eq : (Span.between place inner).text = module := reads₂.text_between
  rw [← (eq_of_marks whole isMark clean isMark').2, ← module_eq, Match.group]
  simp [Progress.toMatch, groups]

theorem not_importsFrom {module : String} {export? : Option String} {name : String} :
    ¬Source.ImportsFrom statement.text module export? name := by
  rintro (⟨mem, imported, known, -⟩ | ⟨mem, imported, known, -⟩)
  · have parts : Source.namedImport = ((lit "import" ++ (gap ++ (optional (Pattern.name ++
        (spacing ++ (lit "," ++ spacing))) ++ lit "\x7b"))) ++ (capture (every (· != '\x7d')) ++
          (lit "\x7d" ++ (spacing ++ (lit "from" ++ spacing))))) ++ quotedText := rfl
    rw [← imported, group_eq_word (by decide) (parts ▸ mem), statement.unknown] at known
    cases known
  · have parts : Source.namespaceImport = ((lit "import" ++ (gap ++ (lit "*" ++ (gap ++ (lit "as" ++
        gap))))) ++ (capture Pattern.name ++ (gap ++ (lit "from" ++ spacing)))) ++ quotedText := rfl
    rw [← imported, group_eq_word (by decide) (parts ▸ mem), statement.unknown] at known
    cases known

theorem not_mem_libraryStubs (statement : NamedImport) (name : String) :
    name ∉ (Source.libraryStubs statement.text).map Stub.name := fun mem => by
  obtain ⟨module, export?, imports⟩ := Source.name_mem_libraryStubs_iff.1 mem
  exact not_importsFrom imports

/-- An import that is erased from the script has its name stubbed, in every source that does not
declare the name, just if there is white space on both sides of `from` or the module reads like a
tag of the name, and the module does not read like a declaration of the name. -/
theorem erased_import_stubbed_iff (statement : NamedImport) :
    (∀ rest, Modules.eraseImports (statement.text ++ rest) = Modules.eraseImports rest) ∧
      ((∀ rest seeded registry, String.ofList statement.name.text ∉ Source.declaredNames rest →
          String.ofList statement.name.text ∈
            (Synthesis.ofText (statement.text ++ rest) seeded registry).stubs.map Stub.name) ↔
        String.ofList statement.name.text ∉ Source.declaredNames statement.module.word ∧
          (statement.IsSpaced ∨
            String.ofList statement.name.text ∈ Source.markupNames statement.module.word)) := by
  have identifier : Stub.isIdentifier (String.ofList statement.name.text) = true :=
    Stub.isIdentifier_of_spelled (by rw [String.toList_ofList]; exact statement.name.spelled)
  have stubbed_iff := Synthesis.name_mem_stubs_iff identifier statement.free
  refine ⟨statement.eraseImports_append, fun covered => ?_, ?_⟩
  · -- The statement alone, with nothing that is asked for, decides.
    have nothing : Source.declaredNames [] = [] ∧ Source.markupNames [] = [] := by decide
    have stubbed := covered [] [] .empty (by simp [nothing.1])
    rw [stubbed_iff, declares_iff, tags_iff, List.append_nil, nothing.1, nothing.2] at stubbed
    obtain ⟨undeclared, library | seeded | imported | tag⟩ := stubbed
    · exact absurd library (statement.not_mem_libraryStubs _)
    · exact absurd seeded List.not_mem_nil
    · exact ⟨mt .inl undeclared, .inl (isSpaced_of_mem_importedNames imported)⟩
    · exact ⟨mt .inl undeclared, .inr (tag.resolve_right List.not_mem_nil)⟩
  · rintro ⟨undeclared, brought⟩ rest seeded registry fresh
    refine (stubbed_iff _ seeded registry).2 ⟨?_, .inr (.inr ?_)⟩
    · rw [declares_iff]
      exact not_or.2 ⟨undeclared, fresh⟩
    · rcases brought with spaced | tag
      · exact .inl (name_mem_importedNames spaced rest)
      · exact .inr ((statement.tags_iff _ rest).2 (.inl tag))

/-- An import with no white space behind `from` is lost: it is erased, and nothing is stubbed. -/
theorem exists_erased_unstubbed : ∃ statement : NamedImport,
    statement.text = "import Foo from'./foo';\n".toList ∧
      Modules.eraseImports statement.text = [] ∧
      (Synthesis.ofText statement.text [] .empty).stubs = [] := by
  let crowded : NamedImport :=
    { setting := .plain
      name := .of 'F' "oo".toList (by decide) (by decide)
      blanks := []
      module := ⟨'\'', "./foo".toList, by decide, by simp [isQuoteMark]⟩
      capital := fun c mem => Option.some.inj mem ▸ rfl
      free := by decide
      areBlank := List.forall_mem_nil _
      nonempty := by decide
      foreign := by decide
      unknown := by decide }
  exact ⟨crowded, by decide +kernel⟩

end NamedImport

end ComponentPreview
