import ComponentPreview.Proofs.Export.Assignment

/-!
# Lists among statements

A list that starts a line is found with its module, its semicolon and its line break, and taken
away. Of an export of everything under one name only the part before the name is found. The other
statements stay as they are (`Statement.rewrites_listed`).
-/

namespace ComponentPreview

namespace Modules

open Pattern

variable {here middle there : Cursor} {found : Match} {text word rest : List Char}

theorem prefers_optional_of_absent {body : Pattern}
    (absent : ∀ last, last ∉ body.ends ⟨here, []⟩) : (optional body).Prefers here here :=
  .of_right absent (.nothing here)

theorem not_mem_ends_lit {text : String} {c : Char} {others : List Char}
    (spelled : text.toList = c :: others) (head : ∀ d ∈ here.rest.head?, d ≠ c)
    (last : Progress) : last ∉ (lit text).ends ⟨here, []⟩ := by
  intro ends
  obtain ⟨there, reads, -⟩ := mem_ends_lit.1 ends
  have rest_eq : here.rest = text.toList ++ there.rest := reads.rest_eq
  exact head c (by rw [rest_eq, spelled]; rfl) rfl

/-- The white space, the semicolon and the line break at the end of a line are found, as far as what
follows does not go on with them. -/
theorem prefers_lineRest {blanks semicolon blanks' stop : List Char}
    (reads : here.Reads (blanks ++ (semicolon ++ (blanks' ++ stop))) there)
    (isIndent : IsIndent blanks) (isIndent' : IsIndent blanks')
    (semicolons : semicolon = [';'] ∨ semicolon = [] ∧ blanks' = [])
    (stops : stop = ['\n'] ∨ stop = [] ∧ ∀ c ∈ there.rest.head?, c ≠ '\n' ∧
      Declaration.isIndent c = false ∧ (semicolon = [] → c ≠ ';')) :
    lineRest.Prefers here there := by
  obtain ⟨place₁, reads₁, reads⟩ := reads.exists_middle
  obtain ⟨place₂, reads₂, reads⟩ := reads.exists_middle
  obtain ⟨place₃, reads₃, reads₄⟩ := reads.exists_middle
  have parts : lineRest =
      indent ++ (optional (lit ";") ++ (indent ++ optional (lit "\n"))) := rfl
  have next : ∀ c ∈ place₃.rest.head?,
      Declaration.isIndent c = false ∧ (semicolon = [] → c ≠ ';') := by
    rw [reads₄.rest_eq]
    rcases stops with rfl | ⟨rfl, alone⟩
    · rintro c ⟨⟩
      exact ⟨by decide, fun _ => by decide⟩
    · exact fun c head => (alone c head).2
  have broken : (optional (lit "\n")).Prefers place₃ there := by
    rcases stops with rfl | ⟨rfl, alone⟩
    · exact .of_left (.lit reads₄)
    · obtain rfl := Cursor.Reads.nil_iff.1 reads₄
      exact prefers_optional_of_absent (not_mem_ends_lit rfl fun c head => (alone c head).1)
  have stop : begins Declaration.isIndent place₃.rest = false :=
    Component.begins_eq_false.2 fun c head => (next c head).1
  have indented : indent.Prefers place₂ place₃ := .many reads₃ isIndent' stop
  rw [parts]
  rcases semicolons with rfl | ⟨rfl, rfl⟩
  · have stop' : begins Declaration.isIndent place₁.rest = false := by
      rw [reads₂.rest_eq]
      rfl
    exact (Prefers.many reads₁ isIndent stop').append
      (.append (.of_left (.lit reads₂)) (indented.append broken))
  · obtain rfl := Cursor.Reads.nil_iff.1 reads₂
    obtain rfl := Cursor.Reads.nil_iff.1 reads₃
    exact (Prefers.many reads₁ isIndent stop).append (.append
      (prefers_optional_of_absent (not_mem_ends_lit rfl fun c head => (next c head).2 rfl))
      (indented.append broken))

theorem prefers_quoted {mark : Char} {module : List Char}
    (reads : here.Reads (mark :: (module ++ [mark])) there)
    (isMark : isQuoteMark mark = true) (clean : ∀ c ∈ module, Origin.isSpecial c = false) :
    quoted.Prefers here there := by
  rw [← List.singleton_append] at reads
  obtain ⟨place₁, opens, reads⟩ := reads.exists_middle
  obtain ⟨place₂, inner, closes⟩ := reads.exists_middle
  have stop : begins (!isQuoteMark ·) place₂.rest = false := by
    rw [closes.rest_eq]
    simpa [begins] using isMark
  have within : ∀ c ∈ module, (!isQuoteMark c) = true := fun c mem => by
    have other := clean c mem
    simp only [Origin.isSpecial, Bool.or_eq_false_iff] at other
    simp [other.1]
  have parts : quoted = one isQuoteMark ++ (every (!isQuoteMark ·) ++ one isQuoteMark) := rfl
  rw [parts]
  exact (Prefers.one isMark opens).append
    (.append (.every inner within stop) (.one isMark closes))

theorem prefers_spacing {blanks rest : List Char} {mark : Char}
    (reads : here.Reads blanks there) (areBlank : AreBlank blanks)
    (rest_eq : there.rest = mark :: rest) (shown : isBlank mark = false) :
    spacing.Prefers here there :=
  .every reads areBlank (by rwa [rest_eq, begins])

namespace Listing

variable {listing : Listing} {following : List Char}

/-- What goes on with a line end. -/
theorem isLineEnd_concat {blanks semicolon blanks' : List Char} {c : Char}
    (isIndent : IsIndent blanks) (isIndent' : IsIndent blanks')
    (semicolons : semicolon = [';'] ∨ semicolon = [] ∧ blanks' = [])
    (goes : c = '\n' ∨ Declaration.isIndent c = true ∨ semicolon = [] ∧ c = ';') :
    IsLineEnd (blanks ++ (semicolon ++ blanks') ++ [c]) := by
  have semicolons' : semicolon = [] ∨ semicolon = [';'] := semicolons.symm.imp_left And.left
  rcases goes with rfl | indent | ⟨rfl, rfl⟩
  · exact ⟨blanks, semicolon, blanks', ['\n'], by simp, isIndent, isIndent', semicolons', .inr rfl⟩
  · refine ⟨blanks, semicolon, blanks' ++ [c], [], by simp, isIndent, ?_, semicolons', .inl rfl⟩
    simpa [IsIndent, or_imp, forall_and, indent] using isIndent'
  · obtain ⟨-, rfl⟩ := semicolons.resolve_left nofun
    exact ⟨blanks, [';'], [], [], by simp, isIndent, nofun, .inr rfl, .inl rfl⟩

theorem Ends.prefers (ends : listing.Ends there.rest)
    (reads : here.Reads listing.close there) : lineRest.Prefers here there := by
  obtain ⟨blanks, semicolon, blanks', stop, eq, isIndent, isIndent', semicolons, stops⟩ : ∃ blanks
      semicolon blanks' stop, listing.close = blanks ++ (semicolon ++ (blanks' ++ stop)) ∧
      IsIndent blanks ∧ IsIndent blanks' ∧ (semicolon = [';'] ∨ semicolon = [] ∧ blanks' = []) ∧
      (stop = [] ∨ stop = ['\n']) := by
    obtain ⟨blanks, semicolon, blanks', stop, eq, isIndent, isIndent', rfl | rfl, stops⟩ :=
      ends.lineEnd
    · refine ⟨blanks ++ blanks', [], [], stop, by simp [eq], ?_, nofun, .inr ⟨rfl, rfl⟩, stops⟩
      simpa [IsIndent, or_imp, forall_and] using ⟨isIndent, isIndent'⟩
    · exact ⟨blanks, [';'], blanks', stop, eq, isIndent, isIndent', .inl rfl, stops⟩
  rw [eq] at reads
  refine prefers_lineRest reads isIndent isIndent' semicolons (stops.symm.imp_right ?_)
  rintro rfl
  refine ⟨rfl, fun c head => ?_⟩
  have complete := ends.complete c head
  rw [eq, List.append_nil] at complete
  have none := mt (isLineEnd_concat isIndent isIndent' semicolons) complete
  rw [not_or, not_or, not_and, Bool.not_eq_true] at none
  exact none

theorem Ends.isBlank_head (ends : listing.Ends following) :
    ∀ c ∈ (listing.source ++ (listing.close ++ following)).head?, isBlank c = false := by
  rw [source]
  cases given : listing.origin with
  | none => exact ends.spaced given
  | some origin =>
      rintro c ⟨⟩
      decide

theorem prefers_source {place : Cursor} (wellFormed : listing.WellFormed)
    (ends : listing.Ends there.rest) (reads : here.Reads listing.source place)
    (closes : place.Reads listing.close there) :
    (optional (lit "from" ++ (spacing ++ quoted))).Prefers here place := by
  cases given : listing.origin with
  | some origin =>
      obtain ⟨areBlank, isMark, clean⟩ := wellFormed.origin origin given
      rw [source, given] at reads
      obtain ⟨place₁, keyword, reads⟩ := reads.exists_middle
      obtain ⟨place₂, blanks, modules⟩ := reads.exists_middle
      have shown : isBlank origin.mark = false := Bool.eq_false_iff.2 fun blank => by
        rw [isQuoteMark_of_isBlank blank] at isMark
        cases isMark
      exact .of_left ((Prefers.lit keyword).append (.append
        (prefers_spacing blanks areBlank modules.rest_eq shown)
        (prefers_quoted modules isMark clean)))
  | none =>
      rw [source, given] at reads
      obtain rfl := Cursor.Reads.nil_iff.1 reads
      refine prefers_optional_of_absent fun last goes => ?_
      obtain ⟨_, keyword, goes⟩ := mem_ends_append.1 goes
      obtain ⟨_, spaces, modules⟩ := mem_ends_append.1 goes
      obtain ⟨place₁, reads₁, rfl⟩ := mem_ends_lit.1 keyword
      obtain ⟨blanks, place₂, reads₂, areBlank, -, rfl⟩ := mem_ends_every.1 spaces
      obtain ⟨mark, module, mark', place₃, isMark, -, -, reads₃, -⟩ :=
        ImportForm.mem_ends_quoted.1 modules
      have whole := (reads₁.trans (reads₂.trans reads₃)).rest_eq
      rw [closes.rest_eq] at whole
      refine ends.named given ⟨blanks, mark, module ++ mark' :: place₃.rest, ?_, areBlank, isMark⟩
      rw [whole]
      simp

theorem prefers_body (wellFormed : listing.WellFormed)
    (reads : here.Reads listing.body there) :
    (either (lit "*") (lit "\x7b" ++ (every (· != '\x7d') ++ lit "\x7d"))).Prefers here there := by
  cases all : listing.names with
  | none =>
      rw [body, all] at reads
      exact .of_left (.lit reads)
  | some names =>
      have split : listing.body = ['\x7b'] ++ (names ++ ['\x7d']) := by
        rw [body, all]
        rfl
      rw [split] at reads
      obtain ⟨place₁, opens, reads⟩ := reads.exists_middle
      obtain ⟨place₂, inner, closes⟩ := reads.exists_middle
      have stop : begins (· != '\x7d') place₂.rest = false := by
        rw [closes.rest_eq]
        rfl
      have clean : ∀ c ∈ names, (c != '\x7d') = true := fun c mem => by
        simpa using fun same : c = '\x7d' => wellFormed.names names all (same ▸ mem)
      refine .of_right (not_mem_ends_lit rfl ?_)
        ((Prefers.lit opens).append (.append (.every inner clean stop) (.lit closes)))
      rw [opens.rest_eq]
      rintro c ⟨⟩
      decide

/-- A list is taken away as a whole. -/
theorem rewrites_listed (start : here.before = none ∨ here.before = some '\n')
    (wellFormed : listing.WellFormed) (ends : listing.Ends there.rest)
    (reads : here.Reads listing.text there) : exportList.Rewrites (fun _ => []) here [] there := by
  obtain ⟨place₁, indents, others⟩ := reads.exists_middle
  obtain ⟨place₂, keyword, others⟩ := others.exists_middle
  obtain ⟨place₃, blanks, others⟩ := others.exists_middle
  obtain ⟨place₄, bodies, others⟩ := others.exists_middle
  obtain ⟨place₅, gaps, others⟩ := others.exists_middle
  obtain ⟨place₆, sources, closes⟩ := others.exists_middle
  obtain ⟨mark, rest, eq, isMark⟩ := listing.exists_mark
  have stop : begins Declaration.isIndent place₁.rest = false := by
    rw [keyword.rest_eq]
    rfl
  have shown : place₃.rest = mark :: (rest ++ place₄.rest) := by
    rw [bodies.rest_eq, eq, List.cons_append]
  have stop' : begins isBlank place₅.rest = false := by
    refine Component.begins_eq_false.2 ?_
    rw [sources.rest_eq, closes.rest_eq]
    exact ends.isBlank_head
  have isShown : isBlank mark = false := by rcases isMark with rfl | rfl <;> decide
  have prefers : exportList.Prefers here there := by
    rw [list_parts]
    exact (Prefers.lineStart start).append
      (.append (.many indents wellFormed.indent stop)
      (.append (.lit keyword)
      (.append (prefers_spacing blanks wellFormed.blanks shown isShown)
      (.append (prefers_body wellFormed bodies)
      (.append (.every gaps wellFormed.gap stop')
      (.append (prefers_source wellFormed ends sources closes) (ends.prefers closes)))))))
  exact .of_prefers prefers reads (by simp [text]) fun _ => rfl

end Listing

/-- What follows the keyword tells a list from an export of something else. -/
theorem not_list {spaces indent gap blanks later : List Char} {c mark : Char}
    (eq : spaces ++ ("export".toList ++ (gap ++ c :: rest)) =
      indent ++ ("export".toList ++ (blanks ++ mark :: later)))
    (spaced : AreBlank spaces) (indented : AreBlank indent) (areBlank : AreBlank gap)
    (areBlank' : AreBlank blanks) (shown : isBlank c = false)
    (other : c ≠ '*' ∧ c ≠ '\x7b') (isMark : mark = '*' ∨ mark = '\x7b') : False := by
  have nonblank {blanks : List Char} (areBlank : AreBlank blanks) :
      ∀ c ∈ blanks, (!isBlank c) = false := by simpa [AreBlank] using areBlank
  have keywords : spaces ++ 'e' :: ("xport".toList ++ (gap ++ c :: rest)) =
      indent ++ 'e' :: ("xport".toList ++ (blanks ++ mark :: later)) := eq
  obtain ⟨-, -, eq'⟩ := Text.first_unique (!isBlank ·) keywords (nonblank spaced) (by decide)
    (nonblank indented) (by decide)
  have shown' : isBlank mark = false := by rcases isMark with rfl | rfl <;> decide
  obtain ⟨-, same, -⟩ := Text.first_unique (!isBlank ·) (List.append_cancel_left eq')
    (nonblank areBlank) (by simpa using shown) (nonblank areBlank') (by simpa using shown')
  rcases isMark with rfl | rfl
  · exact other.1 same
  · exact other.2 same

/-- No list starts in an export of something else. -/
theorem passes_keyword {indent gap : List Char} {c : Char}
    (rest_eq : here.rest = (indent ++ ("export".toList ++ gap)) ++ c :: rest)
    (isIndent : IsIndent indent) (areBlank : AreBlank gap) (shown : isBlank c = false)
    (not_e : c ≠ 'e') (other : c ≠ '*' ∧ c ≠ '\x7b') :
    exportList.Passes here (indent ++ ("export".toList ++ gap)) := by
  have nonblank {blanks : List Char} (areBlank : AreBlank blanks) :
      ∀ c ∈ blanks, (!isBlank c) = false := by simpa [AreBlank] using areBlank
  intro lead middle reads shorter
  cases found_at : exportList.at? middle with
  | none => rfl
  | some found =>
      obtain ⟨start, indent', blanks, mark, later, rest_eq', isIndent', areBlank', isMark⟩ :=
        start_of_list found_at
      have whole := reads.rest_eq
      rw [rest_eq, rest_eq', List.append_assoc, List.append_assoc] at whole
      rcases List.append_eq_append_iff.1 whole with ⟨word, rfl, eq⟩ | ⟨spaces, rfl, eq⟩
      · rcases List.eq_nil_or_concat word with rfl | ⟨front, d, concat⟩
        · have unspaced : AreBlank [] := by simp [AreBlank]
          exact (not_list eq unspaced isIndent'.areBlank areBlank areBlank' shown other isMark).elim
        -- The match would start behind a line break in the gap.
        · rw [List.concat_eq_append] at concat
          have before : middle.before = .some d := by
            rw [reads.before_eq, concat]
            simp
          rw [before] at start
          obtain rfl : d = '\n' := by simpa using start
          have mem : '\n' ∈ word := by simp [concat]
          rcases List.append_eq_append_iff.1 eq with ⟨spaces, rfl, eq'⟩ | ⟨others, split, -⟩
          · obtain ⟨others, rfl⟩ : spaces <+: gap := by
              refine List.prefix_of_prefix_length_le ⟨_, eq'.symm⟩ (List.prefix_append _ _) ?_
              simp only [List.length_append] at shorter
              omega
            rw [← List.append_assoc] at eq'
            have keywords : (spaces ++ others) ++ c :: rest =
                (spaces ++ indent') ++ 'e' :: ("xport".toList ++ (blanks ++ mark :: later)) := eq'
            have spaced : AreBlank (spaces ++ indent') := fun c mem =>
              (List.mem_append.1 mem).elim (fun mem => areBlank c (List.mem_append_left _ mem))
                (isIndent'.areBlank c)
            obtain ⟨-, same, -⟩ := Text.first_unique (!isBlank ·) keywords (nonblank areBlank)
              (by simpa using shown) (nonblank spaced) (by decide)
            exact absurd same not_e
          · have mem' : '\n' ∈ "export".toList := by
              rw [split]
              exact List.mem_append_left _ mem
            exact absurd mem' (by decide)
      · have spaced : AreBlank spaces := fun c mem =>
          isBlank_of_isIndent (isIndent c (List.mem_append_right _ mem))
        exact (not_list eq.symm spaced isIndent'.areBlank areBlank areBlank' shown other
          isMark).elim

/-- No list starts where an indent does not start the line. -/
theorem passes_stray {d : Char} (before : here.before = some d)
    (isIndent : Declaration.isIndent d = true) (reads : here.Reads "export".toList there) :
    exportList.Passes here "export".toList := by
  intro lead middle reads' shorter
  cases found_at : exportList.at? middle with
  | none => rfl
  | some found =>
      have start := (start_of_list found_at).1
      obtain ⟨more, split⟩ : lead <+: "export".toList := by
        have eq := reads'.rest_eq
        rw [reads.rest_eq] at eq
        exact List.prefix_of_prefix_length_le ⟨_, eq.symm⟩ (List.prefix_append _ _)
          (Nat.le_of_lt shorter)
      rw [reads'.before_eq] at start
      rcases List.eq_nil_or_concat lead with rfl | ⟨front, c, rfl⟩
      · rw [before] at start
        obtain rfl : d = '\n' := by simpa using start
        exact absurd isIndent (by decide)
      · obtain rfl : c = '\n' := by simpa using start
        have mem : '\n' ∈ "export".toList := by simp [← split]
        exact absurd mem (by decide)

namespace Statement

variable {statement : Statement} {source : List Statement} {previous : Option Char}
  {following : List Char}

/-- The assignment leaves what stands before the statement that follows. -/
theorem getLast?_assigned (fits : statement.Fits previous following) :
    statement.assigned.getLast? = statement.text.getLast? := by
  cases statement with
  | code | list | bundle | declaration | stray => rfl
  | default indent gap gap' expression =>
      obtain ⟨-, -, -, ⟨c, head, -⟩, -⟩ := fits
      obtain ⟨later, rfl⟩ := List.head?_eq_some_iff.1 head
      cases gap' with
      | nil => rfl
      | cons d gap' => simp [assigned, text_default, List.getLast?_append, List.getLast?_cons]

theorem text_ne_nil (fits : statement.Fits previous following) (more : following ≠ []) :
    statement.text ≠ [] := by
  cases statement with
  | code text =>
      obtain ⟨c, last, -⟩ := fits.2.resolve_right more
      rintro none
      rw [show text = [] from none] at last
      cases last
  | list listing =>
      change listing.indent ++ ("export".toList ++ listing.tail) ≠ []
      simp
  | bundle | default | declaration | stray =>
      simp [text_bundle, text_default, text_declaration, text_stray]

/-- A list ends before the name under which everything is exported. -/
theorem ends_of_renames {listing : Listing} {clause : List Char} (h : Renames clause)
    (unclosed : listing.close = []) (rest : List Char) : listing.Ends (clause ++ rest) := by
  obtain ⟨gap, name, gap', origin, close, rfl, -⟩ := h
  refine ⟨⟨[], [], [], [], unclosed, nofun, nofun, .inl rfl, .inl rfl⟩, ?_, ?_, ?_⟩
  · rintro c ⟨⟩ lineEnd
    exact absurd (mem_of_isLineEnd lineEnd 'a' (List.mem_append_right _ (.head _))) (by decide)
  · rw [unclosed]
    rintro - c ⟨⟩
    decide
  · rw [unclosed]
    rintro - ⟨blanks, mark, later, eq, -⟩
    cases eq

/-- Of an export of everything under one name the list is taken away, and the name is left. -/
theorem rewrites_bundled {indent blanks gap clause : List Char}
    (fits : (bundle indent blanks gap clause).Fits previous there.rest)
    (before : here.rest ≠ [] → here.before = previous)
    (reads : here.Reads (bundle indent blanks gap clause).assigned there) :
    exportList.Rewrites (fun _ => []) here clause there := by
  obtain ⟨start, isIndent, areBlank, areBlank', renames, isCode⟩ := fits
  let listing : Listing := ⟨indent, blanks, none, gap, none, []⟩
  have split : (bundle indent blanks gap clause).assigned = listing.text ++ clause := by
    simp [assigned, text_bundle, listing, Listing.text, Listing.tail, Listing.body,
      Listing.source]
  rw [split] at reads
  obtain ⟨place, lists, clauses⟩ := reads.exists_middle
  have ends : listing.Ends place.rest := by
    rw [clauses.rest_eq]
    exact ends_of_renames renames rfl _
  have wellFormed : listing.WellFormed :=
    { indent := isIndent, blanks := areBlank, gap := areBlank'
      names := by simp [listing]
      origin := by simp [listing] }
  have start' : here.before = none ∨ here.before = some '\n' := by
    refine before ?_ ▸ start
    rw [lists.rest_eq, Listing.text]
    simp
  have taken := Listing.rewrites_listed start' wellFormed ends lists
  exact taken.append (rewrites_code seeks_list isCode clauses)

/-- An export of something else stays, keyword and all. -/
theorem rewrites_unlisted {indent gap kept : List Char} {c : Char} (isIndent : IsIndent indent)
    (areBlank : AreBlank gap) (head : kept.head? = some c) (shown : isBlank c = false)
    (not_e : c ≠ 'e') (other : c ≠ '*' ∧ c ≠ '\x7b') (isCode : IsCode kept there.rest)
    (reads : here.Reads (indent ++ ("export".toList ++ gap) ++ kept) there) :
    exportList.Rewrites (fun _ => []) here (indent ++ ("export".toList ++ gap) ++ kept) there := by
  obtain ⟨later, rfl⟩ := List.head?_eq_some_iff.1 head
  obtain ⟨place, keywords, keeps⟩ := reads.exists_middle
  have rest_eq := keywords.rest_eq
  rw [keeps.rest_eq, List.cons_append] at rest_eq
  exact (Rewrites.of_passes keywords
    (passes_keyword rest_eq isIndent areBlank shown not_e other)).append
      (rewrites_code seeks_list isCode keeps)

theorem rewrites_listing (fits : statement.Fits previous there.rest)
    (before : here.rest ≠ [] → here.before = previous)
    (reads : here.Reads statement.assigned there) :
    exportList.Rewrites (fun _ => []) here statement.listed there := by
  cases statement with
  | code text => exact rewrites_code seeks_list fits reads
  | list listing =>
      obtain ⟨start, wellFormed, ends⟩ := fits
      refine Listing.rewrites_listed (before ?_ ▸ start) wellFormed ends reads
      have whole : here.rest = listing.text ++ there.rest := reads.rest_eq
      rw [whole, Listing.text]
      simp
  | bundle indent blanks gap clause => exact rewrites_bundled fits before reads
  | default indent gap gap' expression =>
      obtain ⟨isIndent, ⟨some, areBlank⟩, areBlank', ⟨c, head, shown, opens⟩, isCode⟩ := fits
      cases gap' with
      | nil =>
          have apart : ∀ d ∈ expression.head?, isWord d = false := by
            rw [head]
            rintro d ⟨⟩
            exact isWord_of_mem_openings (opens rfl)
          have split : (default indent gap [] expression).assigned =
              indent ++ ("export".toList ++ gap) ++ ("default".toList ++ expression) := by
            simp [assigned, text_default]
          change exportList.Rewrites _ here (default indent gap [] expression).assigned there
          rw [split] at reads ⊢
          exact rewrites_unlisted isIndent areBlank rfl (by decide) (by decide) (by decide)
            (isCode.default apart) reads
      | cons d gap' => exact rewrites_code seeks_list (isCode.assigned isIndent) reads
  | declaration indent gap declared =>
      obtain ⟨isIndent, ⟨some, areBlank⟩, declares, isCode⟩ := fits
      obtain ⟨c, later, rfl, initial⟩ := head_of_declares declares
      obtain ⟨shown, -, not_e, other⟩ := shown_of_initial initial
      have split : (declaration indent gap (c :: later)).assigned =
          indent ++ ("export".toList ++ gap) ++ c :: later := by
        simp [assigned, text_declaration]
      change exportList.Rewrites _ here (declaration indent gap (c :: later)).assigned there
      rw [split] at reads ⊢
      exact rewrites_unlisted isIndent areBlank rfl shown not_e other isCode reads
  | stray tail =>
      obtain ⟨⟨c, place, isIndent⟩, -, isCode⟩ := fits
      obtain ⟨middle, keywords, tails⟩ := Cursor.Reads.exists_middle reads
      have before' : here.before = some c := by
        refine (before ?_).trans place
        rw [keywords.rest_eq]
        simp
      exact (Rewrites.of_passes keywords (passes_stray before' isIndent keywords)).append
        (rewrites_code seeks_list isCode tails)

/-- The erasure of lists treats the statements one by one. -/
theorem rewrites_listed (placed : WellPlaced assigned previous source)
    (rest_eq : here.rest = source.flatMap assigned)
    (before : here.rest ≠ [] → here.before = previous) :
    ∃ stop, exportList.Rewrites (fun _ => []) here (source.flatMap listed) stop ∧
      stop.rest = [] := by
  induction source generalizing here previous with
  | nil => exact ⟨here, .refl here, rest_eq⟩
  | cons statement rest ih =>
      obtain ⟨fits, placed⟩ := placed
      rw [List.flatMap_cons] at rest_eq
      obtain ⟨there, reads, eq⟩ := exists_reads statement.assigned rest_eq
      rw [← eq] at fits
      have before' : there.rest ≠ [] → there.before = statement.text.getLast? := by
        intro more
        rw [reads.before_eq, getLast?_assigned fits,
          List.getLast?_eq_some_getLast (text_ne_nil fits more)]
        rfl
      obtain ⟨stop, rewrites, ended⟩ := ih placed eq before'
      exact ⟨stop, (rewrites_listing fits before reads).append rewrites, ended⟩

end Statement

end Modules

end ComponentPreview
