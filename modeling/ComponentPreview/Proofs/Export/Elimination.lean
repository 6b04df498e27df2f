import ComponentPreview.Proofs.Export.Listing

/-!
# Eliminating exports

The keyword before a declaration is erased with the white space behind it. Of a source of code and
export statements the three passes leave what each statement leaves, which is what is to become of
it just if no statement slips through (`exports_eliminated_iff`).
-/

namespace ComponentPreview

namespace Modules

open Pattern

variable {here there : Cursor} {found : Match} {text rest : List Char}

/-! ## The keyword of a declaration -/

theorem head_of_keyword (here : Cursor) (found : Match) (h : exportKeyword.at? here = some found) :
    here.rest.head? = some 'e' :=
  (Pass.start_of_export h).1

/-- Between `export` and the first other character there is only white space, and it begins a
declaration. -/
theorem keyword_at?_eq_none {blanks : List Char} {mark : Char}
    (rest_eq : here.rest = "export".toList ++ (blanks ++ mark :: rest))
    (areBlank : AreBlank blanks) (shown : isBlank mark = false)
    (other : mark ∉ ['a', 'c', 'l', 'v', 'f']) : exportKeyword.at? here = none := by
  cases found_at : exportKeyword.at? here with
  | none => rfl
  | some found =>
      obtain ⟨-, gap, eq, -, areBlank'⟩ := text_of_keyword found_at
      obtain ⟨c, initial, head⟩ := Pass.stop_of_export found_at
      obtain ⟨later, stop_eq⟩ := List.head?_eq_some_iff.1 head
      have whole := (reads_of_at? found_at).rest_eq
      rw [rest_eq, eq, stop_eq, List.append_assoc, List.append_cancel_left_eq] at whole
      have shown' : ['a', 'c', 'l', 'v', 'f'].all (!isBlank ·) = true := by decide
      obtain ⟨-, same, -⟩ := Text.first_unique (!isBlank ·) whole
        (by simpa [AreBlank] using areBlank) (by simpa using shown)
        (by simpa [AreBlank] using areBlank') (List.all_eq_true.1 shown' c initial)
      exact absurd (same ▸ initial) other

theorem exists_ends_declared {first : Progress} {text more : List Char} (declares : Declares text)
    (rest_eq : first.here.rest = text ++ more) :
    ∃ last, last ∈ (optional (lit "async" ++ gap) ++
      anyOf ["const", "let", "var", "function", "class"] ++ wordEdge).ends first := by
  have named {first : Progress} {keyword : String} {later : List Char} (mark : Char)
      (mem : keyword ∈ ["const", "let", "var", "function", "class"])
      (ended : keyword.toList.getLast? = some mark) (shown : isWord mark = true)
      (rest_eq : first.here.rest = keyword.toList ++ (later ++ more))
      (edge : ∃ c ∈ later.head?, isWord c = false) :
      ∃ last, last ∈
        (anyOf ["const", "let", "var", "function", "class"] ++ wordEdge).ends first := by
    obtain ⟨c, head, other⟩ := edge
    obtain ⟨later, rfl⟩ := List.head?_eq_some_iff.1 head
    obtain ⟨last, ends⟩ := (Component.exists_ends_keyword mark ended shown).2
      ⟨_, rest_eq, by rintro c ⟨⟩; exact other⟩
    obtain ⟨middle, spelled, edge⟩ := mem_ends_append.1 ends
    exact ⟨last, mem_ends_append.2 ⟨middle, mem_ends_anyOf.2 ⟨_, mem, spelled⟩, edge⟩⟩
  have parts : optional (lit "async" ++ gap) ++
      anyOf ["const", "let", "var", "function", "class"] ++ wordEdge =
      optional (lit "async" ++ gap) ++
        (anyOf ["const", "let", "var", "function", "class"] ++ wordEdge) := rfl
  rw [parts]
  rcases declares with
    ⟨keyword, mem, later, rfl, edge⟩ | ⟨blanks, later, rfl, ⟨some, areBlank⟩, edge⟩
  · rw [List.append_assoc] at rest_eq
    obtain ⟨mark, ended, shown⟩ : ∃ mark, keyword.toList.getLast? = some mark ∧
        isWord mark = true := by
      simp only [List.mem_cons, List.not_mem_nil, or_false] at mem
      rcases mem with rfl | rfl | rfl | rfl | rfl <;> exact ⟨_, rfl, by decide⟩
    obtain ⟨last, ends⟩ := named mark mem ended shown rest_eq edge
    exact ⟨last, mem_ends_append.2 ⟨first, mem_ends_optional.2 (.inr rfl), ends⟩⟩
  · simp only [List.append_assoc] at rest_eq
    obtain ⟨place₁, reads₁, eq₁⟩ := exists_reads "async".toList rest_eq
    obtain ⟨place₂, reads₂, eq₂⟩ := exists_reads blanks eq₁
    have stop : begins isBlank place₂.rest = false := by
      rw [eq₂]
      rfl
    have moved : (first.moveTo place₂).here.rest = "function".toList ++ (later ++ more) := eq₂
    obtain ⟨last, ends⟩ := named 'n' (by decide) rfl (by decide) moved edge
    exact ⟨last, mem_ends_append.2 ⟨_, mem_ends_optional.2 (.inl (mem_ends_append.2
      ⟨_, mem_ends_lit.2 ⟨place₁, reads₁, rfl⟩, Component.mem_ends_gap.2
        ⟨blanks, place₂, some, areBlank, reads₂, stop, rfl⟩⟩)), ends⟩⟩

theorem rewrites_keyword_away {gap more : List Char}
    (reads : here.Reads ("export".toList ++ gap) there) (edge : Edge here) (some : gap ≠ [])
    (areBlank : AreBlank gap) (declares : Declares text) (rest_eq : there.rest = text ++ more) :
    exportKeyword.Rewrites (fun _ => []) here [] there := by
  obtain ⟨middle, keyword, gaps⟩ := reads.exists_middle
  have start : here.rest.head? = .some 'e' := by
    rw [keyword.rest_eq]
    rfl
  have stop : begins isBlank there.rest = false := by
    obtain ⟨c, others, rfl, initial⟩ := head_of_declares declares
    rw [rest_eq]
    exact (shown_of_initial initial).1
  have prefers : exportKeyword.Prefers here there := by
    rw [Pass.export_parts]
    exact (prefers_wordEdge edge start (by decide)).append
      (.append (.lit keyword) (.append (.gap gaps some areBlank stop)
        (.ahead (exists_ends_declared declares rest_eq))))
  exact .of_prefers prefers reads (by simp) fun _ => rfl

namespace Statement

variable {statement : Statement} {source : List Statement} {previous : Option Char}
  {following : List Char}

/-- A declaration loses its keyword with the white space behind it. -/
theorem rewrites_declaration {indent gap declared : List Char}
    (fits : (declaration indent gap declared).Fits previous following)
    (last : following = [] → there.rest = []) (edge : here.rest ≠ [] → Edge here)
    (reads : here.Reads (declaration indent gap declared).text there) :
    exportKeyword.Rewrites (fun _ => []) here (indent ++ declared) there := by
  obtain ⟨isIndent, ⟨some, areBlank⟩, declares, isCode⟩ := fits
  have split : (declaration indent gap declared).text =
      indent ++ (("export".toList ++ gap) ++ declared) := by
    simp [text_declaration]
  rw [split] at reads
  obtain ⟨place, indents, reads⟩ := reads.exists_middle
  obtain ⟨place', keywords, declareds⟩ := reads.exists_middle
  have edge' : Edge place := by
    refine (edge ?_).of_reads isIndent.areBlank.endsQuietly indents
    rw [indents.rest_eq, keywords.rest_eq]
    simp
  have indented : exportKeyword.Rewrites (fun _ => []) here indent place :=
    .of_absent head_of_keyword indents (isIndent.areBlank.not_mem (by decide))
  exact indented.append ((rewrites_keyword_away keywords edge' some areBlank declares
    declareds.rest_eq).append (rewrites_code seeks_keyword (isCode.of_imp last) declareds))

/-- The erasure of keywords treats a statement before others as it is to. -/
theorem rewrites_left (fits : statement.Fits previous following)
    (last : following = [] → there.rest = []) (edge : here.rest ≠ [] → Edge here)
    (reads : here.Reads statement.listed there) :
    exportKeyword.Rewrites (fun _ => []) here statement.left there := by
  cases statement with
  | code text => exact rewrites_code seeks_keyword (IsCode.of_imp fits last) reads
  | list listing =>
      rw [Cursor.Reads.nil_iff.1 reads]
      exact .refl here
  | bundle indent blanks gap clause =>
      obtain ⟨-, -, -, -, -, isCode⟩ := fits
      exact rewrites_code seeks_keyword (isCode.of_imp last) reads
  | default indent gap gap' expression =>
      obtain ⟨isIndent, ⟨-, areBlank⟩, -, ⟨c, head, -, opens⟩, isCode⟩ := fits
      have isCode := isCode.of_imp last
      cases gap' with
      | nil =>
          have isCode' : IsCode ("default".toList ++ expression) there.rest := by
            refine isCode.default fun d first => ?_
            obtain rfl : c = d := Option.some.inj (head.symm.trans first)
            exact isWord_of_mem_openings (opens rfl)
          exact rewrites_kept head_of_keyword seeks_keyword isIndent
            (fun place spelled => keyword_at?_eq_none spelled areBlank (by decide) (by decide))
            (areBlank.not_mem (by decide)) isCode' reads
      | cons d gap' => exact rewrites_code seeks_keyword (isCode.assigned isIndent) reads
  | declaration indent gap declared => exact rewrites_declaration fits last edge reads
  | stray tail =>
      obtain ⟨-, isTail, isCode⟩ := fits
      obtain ⟨blanks, mark, rest, eq, areBlank, isMark⟩ := isTail.exists_mark
      have unindented : IsIndent [] := nofun
      refine rewrites_kept head_of_keyword seeks_keyword unindented (fun place spelled => ?_)
        List.not_mem_nil (isCode.of_imp last) reads
      rw [List.nil_append, eq, List.append_assoc, List.cons_append] at spelled
      rcases isMark with rfl | rfl <;>
        exact keyword_at?_eq_none spelled areBlank (by decide) (by decide)

theorem endsQuietly_listed (fits : statement.Fits previous following) (more : following ≠ []) :
    EndsQuietly statement.listed := by
  cases statement with
  | code | declaration | stray => exact endsQuietly fits more
  | list => exact nofun
  | bundle indent blanks gap clause =>
      obtain ⟨-, -, -, -, -, isCode⟩ := fits
      exact isCode.endsQuietly more
  | default indent gap gap' expression =>
      cases gap' with
      | nil => exact endsQuietly fits more
      | cons c gap' =>
          obtain ⟨isIndent, -, -, -, isCode⟩ := fits
          exact (isCode.assigned isIndent).endsQuietly more

theorem flatMap_eq_nil_of_imp {write write' : Statement → List Char}
    (imp : ∀ statement, write statement = [] → write' statement = [])
    (none : source.flatMap write = []) : source.flatMap write' = [] := by
  rw [List.flatMap_eq_nil_iff] at none ⊢
  exact fun statement mem => imp statement (none statement mem)

theorem listed_eq_nil (statement : Statement) (none : statement.assigned = []) :
    statement.listed = [] := by
  cases statement with
  | list => rfl
  | bundle => simp [assigned, text_bundle] at none
  | code | default | declaration | stray => exact none

theorem expected_eq_nil (statement : Statement) (none : statement.text = []) :
    statement.expected = [] := by
  cases statement with
  | code => exact none
  | list | bundle | stray => rfl
  | default | declaration => simp [text_default, text_declaration] at none

/-- The erasure of keywords treats the statements one by one. -/
theorem rewrites_flatMap_left (placed : WellPlaced assigned previous source)
    (rest_eq : here.rest = source.flatMap listed) (edge : here.rest ≠ [] → Edge here) :
    ∃ stop, exportKeyword.Rewrites (fun _ => []) here (source.flatMap left) stop ∧
      stop.rest = [] := by
  induction source generalizing here previous with
  | nil => exact ⟨here, .refl here, rest_eq⟩
  | cons statement rest ih =>
      obtain ⟨fits, placed⟩ := placed
      rw [List.flatMap_cons] at rest_eq
      obtain ⟨there, reads, eq⟩ := exists_reads statement.listed rest_eq
      have last : rest.flatMap assigned = [] → there.rest = [] := fun none => by
        rw [eq, flatMap_eq_nil_of_imp listed_eq_nil none]
      have edge' : there.rest ≠ [] → Edge there := by
        intro more
        refine (edge ?_).of_reads (endsQuietly_listed fits (mt last more)) reads
        rw [reads.rest_eq]
        exact List.append_ne_nil_of_right_ne_nil _ more
      obtain ⟨stop, rewrites, ended⟩ := ih placed eq edge'
      exact ⟨stop, (rewrites_left fits last edge reads).append rewrites, ended⟩

/-! ## What is to become of the statements -/

theorem not_occursIn_expected (fits : statement.Fits previous following) :
    ¬exportWord.OccursIn statement.expected ∧
      (following ≠ [] → EndsQuietly statement.expected) := by
  cases statement with
  | code text => exact ⟨fits.1, IsCode.endsQuietly fits⟩
  | list | bundle | stray => exact ⟨not_occursIn_of_not_mem List.not_mem_nil, fun _ => nofun⟩
  | default indent gap gap' expression =>
      obtain ⟨isIndent, -, -, -, isCode⟩ := fits
      exact ⟨(isCode.assigned isIndent).1, (isCode.assigned isIndent).endsQuietly⟩
  | declaration indent gap declared =>
      obtain ⟨isIndent, -, -, isCode⟩ := fits
      refine ⟨fun occurs => ?_, fun more => (isCode.endsQuietly more).append fun _ =>
        isIndent.areBlank.endsQuietly⟩
      exact (occursIn_of_append (.inl isIndent.areBlank.endsQuietly) occurs).elim
        isIndent.not_occursIn isCode.1

theorem not_occursIn_flatMap_expected (placed : WellPlaced Statement.text previous source) :
    ¬exportWord.OccursIn (source.flatMap expected) := by
  induction source generalizing previous with
  | nil => exact not_occursIn_of_not_mem List.not_mem_nil
  | cons statement rest ih =>
      obtain ⟨fits, placed⟩ := placed
      obtain ⟨free, quiet⟩ := not_occursIn_expected fits
      rw [List.flatMap_cons]
      by_cases last : rest.flatMap Statement.text = []
      · rwa [flatMap_eq_nil_of_imp expected_eq_nil last, List.append_nil]
      · exact fun occurs =>
          (occursIn_of_append (.inl (quiet last)) occurs).elim free (ih placed)

theorem left_eq_expected (regular : ¬statement.Slips) : statement.left = statement.expected := by
  cases statement with
  | code | list | declaration => rfl
  | bundle | stray => exact absurd trivial regular
  | default indent gap gap' expression =>
      obtain ⟨c, gap', rfl⟩ := List.exists_cons_of_ne_nil regular
      rfl

/-- A measure by which an export that is left weighs more than the assignment in its place. -/
def weight (text : List Char) : Nat :=
  text.length + 26 * text.count 'x'

theorem weight_append (text text' : List Char) :
    weight (text ++ text') = weight text + weight text' := by
  simp only [weight, List.length_append, List.count_append]
  omega

/-- What is wrongly left of a statement weighs more than what is to become of it. -/
theorem weight_lt (fits : statement.Fits previous following) (slips : statement.Slips) :
    weight statement.expected < weight statement.left := by
  cases statement with
  | code | list | declaration => exact slips.elim
  | bundle indent blanks gap clause =>
      obtain ⟨-, -, -, -, renames, -⟩ := fits
      have some := List.length_pos_iff.2 (ne_nil_of_renames renames)
      change 0 < clause.length + 26 * clause.count 'x'
      omega
  | stray tail =>
      have spelled : weight "export".toList = 32 := by decide
      change 0 < weight ("export".toList ++ tail)
      rw [weight_append, spelled]
      omega
  | default indent gap gap' expression =>
      obtain rfl : gap' = [] := slips
      have entry : weight entryText = 26 := by decide
      have spelled : weight "export".toList = 32 := by decide
      change weight (indent ++ (entryText ++ expression)) <
        weight (indent ++ ("export".toList ++ (gap ++ ("default".toList ++ ([] ++ expression)))))
      simp only [weight_append, entry, spelled]
      omega

theorem flatMap_left_eq_iff (placed : WellPlaced Statement.text previous source) :
    source.flatMap left = source.flatMap expected ↔ ∀ statement ∈ source, ¬statement.Slips := by
  constructor
  · suffices measured : weight (source.flatMap expected) ≤ weight (source.flatMap left) ∧
        (weight (source.flatMap left) = weight (source.flatMap expected) →
          ∀ statement ∈ source, ¬statement.Slips) from
      fun same => measured.2 (congrArg weight same)
    induction source generalizing previous with
    | nil => exact ⟨Nat.le_refl _, fun _ => nofun⟩
    | cons statement rest ih =>
        obtain ⟨fits, placed⟩ := placed
        obtain ⟨more, none⟩ := ih placed
        simp only [List.flatMap_cons, weight_append, List.forall_mem_cons]
        by_cases slips : statement.Slips
        · have heavier := weight_lt fits slips
          exact ⟨by omega, fun same => absurd same (by omega)⟩
        · rw [left_eq_expected slips]
          exact ⟨by omega, fun same => ⟨slips, none (by omega)⟩⟩
  · intro regular
    rw [List.flatMap_def, List.flatMap_def, List.map_congr_left fun statement mem =>
      left_eq_expected (regular statement mem)]

end Statement

/-- Of a source of code and export statements the three passes leave what each statement leaves.
Lists are taken away, the default export becomes an assignment to the entry slot and declarations
lose their keyword, just if no statement slips through: everything under one name, a default export
without white space, or a list whose indent belongs to the list before. What is to become of the
source is free of the word `export`. -/
theorem exports_eliminated_iff {source : List Statement}
    (placed : Statement.WellPlaced Statement.text none source) :
    eraseExports (assignDefaultExport Script.entryAssignment (source.flatMap Statement.text)) =
        source.flatMap Statement.left ∧
      (source.flatMap Statement.left = source.flatMap Statement.expected ↔
        ∀ statement ∈ source, ¬statement.Slips) ∧
      ¬exportWord.OccursIn (source.flatMap Statement.expected) := by
  have edge {text : List Char} : Edge (.start text) := nofun
  have start (text : List Char) : (Cursor.start text).rest = text := rfl
  obtain ⟨source', stop, placed', same, rewrites, ended⟩ :=
    Statement.exists_assigned placed (start _) fun _ => edge
  obtain ⟨stop', rewrites', ended'⟩ :=
    Statement.rewrites_listed placed' (start _) fun _ => rfl
  obtain ⟨stop'', rewrites'', ended''⟩ :=
    Statement.rewrites_flatMap_left placed' (start _) fun _ => edge
  refine ⟨?_, Statement.flatMap_left_eq_iff placed, Statement.not_occursIn_flatMap_expected placed⟩
  change exportKeyword.replace _ (exportList.replace _ (exportDefault.replace assign _)) = _
  rw [rewrites.replace_eq ended, rewrites'.replace_eq ended', rewrites''.replace_eq ended'',
    List.flatMap_def, same, List.flatMap_def]

theorem Origin.wellFormed_plain : Origin.WellFormed ⟨[' '], '\'', ['m']⟩ := by
  have plain : ['m'].all (!Origin.isSpecial ·) = true := by decide
  exact ⟨by decide, by decide, by simpa using plain⟩

/-- A default export, a constant and a list. -/
theorem exports_eliminated_lines :
    ∃ source, Statement.WellPlaced Statement.text none source ∧
      source.flatMap Statement.text =
        "export default\na;\nexport const b = 1;\nexport \x7b a \x7d from 'm';\n".toList ∧
      eraseExports (assignDefaultExport Script.entryAssignment (source.flatMap Statement.text)) =
        "window.__previewEntry__ = a;\nconst b = 1;\n".toList := by
  let listing : Listing :=
    ⟨[], [' '], some " a ".toList, [' '], some ⟨[' '], '\'', ['m']⟩, ";\n".toList⟩
  have wellFormed : listing.WellFormed := by
    refine ⟨nofun, by decide, ?_, by decide, ?_⟩
    · rintro _ ⟨⟩
      decide
    · rintro _ ⟨⟩
      exact Origin.wellFormed_plain
  have lineEnd : IsLineEnd ";\n".toList :=
    ⟨[], [';'], [], ['\n'], rfl, nofun, nofun, .inr rfl, .inr rfl⟩
  have code {text following : List Char} (absent : 'x' ∉ text)
      (broken : text.getLast? = some '\n') : IsCode text following :=
    ⟨not_occursIn_of_not_mem absent, .inl ⟨'\n', broken, by decide, by decide⟩⟩
  have placed : Statement.WellPlaced Statement.text none
      [.default [] [' '] ['\n'] "a;\n".toList, .declaration [] [' '] "const b = 1;\n".toList,
        .list listing] :=
    ⟨⟨nofun, by decide, by decide, ⟨'a', rfl, by decide⟩, code (by decide) rfl⟩,
      ⟨nofun, by decide, .inl ⟨"const", by decide, " b = 1;\n".toList, rfl, ' ', rfl, by decide⟩,
        code (by decide) rfl⟩,
      ⟨.inr rfl, wellFormed, lineEnd, nofun, nofun, nofun⟩, trivial⟩
  exact ⟨_, placed, rfl, (exports_eliminated_iff placed).1⟩

/-- Of everything under one name, only the keyword and the star are taken away. -/
theorem renamed_export_half_erased :
    ∃ source, Statement.WellPlaced Statement.text none source ∧
      source.flatMap Statement.text = "export * as N from 'm';\n".toList ∧
      eraseExports (assignDefaultExport Script.entryAssignment (source.flatMap Statement.text)) ≠
        source.flatMap Statement.expected := by
  have lineEnd : IsLineEnd ";\n".toList :=
    ⟨[], [';'], [], ['\n'], rfl, nofun, nofun, .inr rfl, .inr rfl⟩
  have renames : Renames "as N from 'm';\n".toList :=
    ⟨[' '], ['N'], [' '], ⟨[' '], '\'', ['m']⟩, ";\n".toList, rfl, by decide,
      ⟨'N', [], rfl, by decide, nofun⟩, by decide, Origin.wellFormed_plain, lineEnd⟩
  have isCode : IsCode "as N from 'm';\n".toList [] :=
    ⟨not_occursIn_of_not_mem (by decide), .inr rfl⟩
  refine ⟨[.bundle [] [' '] [' '] "as N from 'm';\n".toList],
    ⟨⟨.inl rfl, nofun, by decide, by decide, renames, isCode⟩, trivial⟩, rfl, ?_⟩
  decide +kernel

end Modules

end ComponentPreview
