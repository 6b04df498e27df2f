import ComponentPreview.Proofs.Source.Component
import ComponentPreview.Proofs.Stub.Outline
import ComponentPreview.Proofs.Text.Absence
import ComponentPreview.Proofs.Text.Rewrite

/-!
# Declared names

The names that a source declares are read off its text as it was submitted, by the keyword that
stands before each of them. An exported function is among them whatever stands before it
(`mem_declaredNames_of_exported`), and no declared name ever gets a stub.
-/

namespace ComponentPreview

theorem Text.mem_distinct {α : Type} [BEq α] [LawfulBEq α] {entries : List α} {entry : α} :
    entry ∈ Text.distinct entries ↔ entry ∈ entries := by
  have step : ∀ kept : List α, entry ∈ entries.foldl
      (fun kept entry => if kept.contains entry then kept else kept ++ [entry]) kept ↔
        entry ∈ kept ∨ entry ∈ entries := by
    induction entries with
    | nil => simp
    | cons first entries ih =>
        intro kept
        rw [List.foldl_cons, ih, List.mem_cons]
        split
        · next held =>
            rw [List.contains_iff_mem] at held
            constructor
            · exact Or.imp_right .inr
            · rintro (mem | rfl | mem)
              · exact .inl mem
              · exact .inl held
              · exact .inr mem
        · simp [or_assoc]
  exact (step []).trans (by simp)

open Pattern Component

namespace Stub

/-- An identifier with a line break behind it. -/
def HasBreak (name : String) : Prop :=
  ∃ word, IsIdentifier word ∧ name.toList = word ++ ['\n']

variable {name : String}

/-- An identifier may be stubbed, also with a line break behind it. -/
theorem isIdentifier_iff : isIdentifier name = true ↔ IsIdentifier name.toList ∨ HasBreak name := by
  rw [isIdentifier, opening?, isSome_at?]
  constructor
  · rintro ⟨last, ends⟩
    obtain ⟨middle, named, ended⟩ := mem_ends_append.1 ends
    obtain ⟨word, there, identifier, reads, -, rfl⟩ := mem_ends_name.1 named
    have name_eq : name.toList = word ++ there.rest := reads.rest_eq
    rcases (mem_ends_textEnd.1 ended).1 with rest | rest
    · left
      rwa [name_eq, show there.rest = [] from rest, List.append_nil]
    · exact .inr ⟨word, identifier, by rw [name_eq, show there.rest = ['\n'] from rest]⟩
  · intro spelled
    obtain ⟨word, right, identifier, name_eq, ended⟩ : ∃ word right, IsIdentifier word ∧
        name.toList = word ++ right ∧ (right = [] ∨ right = ['\n']) := by
      rcases spelled with identifier | ⟨word, identifier, name_eq⟩
      · exact ⟨_, [], identifier, (List.append_nil _).symm, .inl rfl⟩
      · exact ⟨word, _, identifier, name_eq, .inr rfl⟩
    obtain ⟨there, reads, rest_eq⟩ :=
      exists_reads word (show (Cursor.start name.toList).rest = _ from name_eq)
    have stop : begins isNameChar there.rest = false := by
      rw [rest_eq]
      rcases ended with rfl | rfl <;> decide
    exact ⟨⟨there, []⟩, mem_ends_append.2 ⟨_, mem_ends_name.2 ⟨word, there, identifier, reads,
      stop, rfl⟩, mem_ends_textEnd.2 ⟨rest_eq ▸ ended, rfl⟩⟩⟩

/-- What is spelled like an identifier may be stubbed. -/
theorem isIdentifier_of_spelled (h : IsIdentifier name.toList) : isIdentifier name = true :=
  isIdentifier_iff.2 (.inl h)

end Stub

namespace Source

/-- The keywords that stand before a declared name. -/
def keywords : List String :=
  ["function*", "function", "class", "const", "let", "var"]

theorem declaration_parts :
    declaration = wordEdge ++ (anyOf keywords ++ (gap ++ capture name)) :=
  rfl

variable {here : Cursor} {found : Match} {text left word right : List Char}

/-- A declaration reads as a keyword, white space and the name. -/
theorem text_of_declaration (h : declaration.at? here = some found) :
    ∃ keyword ∈ keywords, ∃ blanks right, found.text = keyword.toList ++ (blanks ++ found.group 0) ∧
      here.rest = found.text ++ right ∧ (blanks ≠ [] ∧ ∀ c ∈ blanks, isBlank c = true) ∧
      IsIdentifier (found.group 0) ∧ ∀ c ∈ right.head?, isNameChar c = false := by
  have whole := reads_of_at? h
  obtain ⟨last, ends, rfl⟩ := exists_end_of_at? h
  rw [declaration_parts] at ends
  obtain ⟨first, edge, ends⟩ := mem_ends_append.1 ends
  obtain ⟨-, rfl⟩ := mem_ends_wordEdge.1 edge
  obtain ⟨_, opens, ends⟩ := mem_ends_append.1 ends
  obtain ⟨keyword, mem, spelled⟩ := mem_ends_anyOf.1 opens
  obtain ⟨place, reads, rfl⟩ := mem_ends_lit.1 spelled
  obtain ⟨spaced, gaps, captured⟩ := mem_ends_append.1 ends
  obtain ⟨blanks, place', some, areBlank, reads', -, rfl⟩ := mem_ends_gap.1 gaps
  obtain ⟨named, names, rfl⟩ := mem_ends_capture.1 captured
  obtain ⟨name, stop, identifier, reads'', ended, rfl⟩ := mem_ends_name.1 names
  have group : Match.group (Progress.toMatch ⟨stop, [] ++ [Span.between place' stop]⟩ here) 0 =
      name :=
    reads''.text_between
  have text := whole.word_unique (reads.trans (reads'.trans reads''))
  refine ⟨keyword, mem, blanks, stop.rest, ?_, whole.rest_eq, ⟨some, areBlank⟩, ?_,
    begins_eq_false.1 ended⟩
  · exact text.trans (by rw [← group]; rfl)
  · exact group ▸ identifier

theorem keyword_of_prefix {keyword : String} {c : Char} (mem : keyword ∈ keywords)
    (blank : isBlank c = true) (h : keyword.toList <+: "function".toList ++ [c]) :
    keyword = "function" := by
  have others : keywords.all (fun keyword => keyword == "function" ||
      !keyword.toList.isPrefixOf "function".toList &&
        keyword.toList.getLast?.all (!isBlank ·)) = true := by decide
  have known := List.all_eq_true.1 others keyword mem
  simp only [Bool.or_eq_true, beq_iff_eq, Bool.and_eq_true, Bool.not_eq_true'] at known
  refine known.resolve_right fun ⟨apart, shown⟩ => ?_
  rcases List.prefix_concat_iff.1 h with eq | within
  · rw [eq, List.getLast?_concat, Option.all_some, blank] at shown
    cases shown
  · rw [List.isPrefixOf_iff_prefix.2 within] at apart
    cases apart

/-- The name of a function is declared at the place where its keyword stands. -/
theorem declares_function {lead : List Char}
    (h : Form.function.Declares here.before lead word right)
    (rest_eq : here.rest = lead ++ (word ++ right)) :
    ∃ found, declaration.at? here = some found ∧ found.group 0 = word := by
  obtain ⟨other, other_at⟩ := Form.exists_at?_of_declares rest_eq h
  obtain ⟨last, ends, -⟩ := exists_end_of_at? other_at
  have parts : Form.function.pattern = wordEdge ++ (lit "function" ++ (gap ++ capture name)) := rfl
  rw [parts] at ends
  obtain ⟨first, edge, ends⟩ := mem_ends_append.1 ends
  obtain ⟨spelled, keyword, ends⟩ := mem_ends_append.1 ends
  have mem : last ∈ declaration.ends ⟨here, []⟩ := by
    rw [declaration_parts]
    exact mem_ends_append.2 ⟨first, edge, mem_ends_append.2
      ⟨spelled, mem_ends_anyOf.2 ⟨"function", by decide, keyword⟩, ends⟩⟩
  obtain ⟨found, found_at⟩ := Option.isSome_iff_exists.1 (isSome_at?.2 ⟨last, mem⟩)
  refine ⟨found, found_at, ?_⟩
  obtain ⟨keyword, mem, blanks', right', text, rest_eq', spaced', identifier', whole'⟩ :=
    text_of_declaration found_at
  obtain ⟨blanks, _, rfl, some, areBlank, rfl⟩ := h.leads
  obtain ⟨c, others, rfl⟩ := List.exists_cons_of_ne_nil some
  have whole := rest_eq.symm.trans rest_eq'
  rw [text] at whole
  simp only [List.append_assoc, List.append_nil] at whole
  obtain rfl : keyword = "function" := by
    refine keyword_of_prefix mem (areBlank c List.mem_cons_self) ?_
    have short : keywords.all (fun keyword => decide (keyword.toList.length ≤ 9)) = true := by
      decide
    refine List.prefix_of_prefix_length_le ⟨_, whole.symm⟩ ?_ (by
      simpa using List.all_eq_true.1 short keyword mem)
    exact ⟨others ++ (word ++ right), by simp⟩
  have h' : Form.function.Declares here.before ("function".toList ++ blanks') (found.group 0)
      right' :=
    ⟨h.starts, ⟨blanks', [], by simp, spaced'.1, spaced'.2, rfl⟩, identifier', whole', trivial,
      trivial⟩
  refine h'.unique h ?_
  simpa using whole.symm

/-- What stands before white space at the end of a text. -/
theorem front_unique {front front' blanks blanks' : List Char}
    (areBlank : ∀ c ∈ blanks, isBlank c = true) (areBlank' : ∀ c ∈ blanks', isBlank c = true)
    (shown : begins isBlank front.reverse = false) (shown' : begins isBlank front'.reverse = false)
    (h : front ++ blanks = front' ++ blanks') : front = front' := by
  have same := congrArg (fun text => text.reverse.dropWhile isBlank) h
  simp only [List.reverse_append] at same
  rw [Form.drop_blanks (by simpa using areBlank) shown,
    Form.drop_blanks (by simpa using areBlank') shown'] at same
  exact List.reverse_injective same

/-- Up to its last white space a declaration reads as its keyword and the white space. -/
theorem split_at_blank {inner more blanks : List Char} {c : Char} {keyword : String}
    (letters : ∀ c ∈ keyword.toList, isBlank c = false) (areBlank : ∀ c ∈ blanks, isBlank c = true)
    (areName : ∀ c ∈ word, isNameChar c = true)
    (eq : inner ++ c :: more = keyword.toList ++ (blanks ++ word)) (some : inner ≠ [])
    (blank : ∀ d ∈ inner.getLast?, isBlank d = true) (shown : isBlank c = false) :
    inner = keyword.toList ++ blanks := by
  rcases List.append_eq_append_iff.1 eq with ⟨others, eq', -⟩ | ⟨others, rfl, rest_eq⟩
  · obtain ⟨inner, d, rfl⟩ := (List.eq_nil_or_concat inner).resolve_left some
    have dark := blank d (by simp)
    rw [letters d (by simp [eq'])] at dark
    cases dark
  · congr 1
    rcases List.append_eq_append_iff.1 rest_eq with ⟨others', rfl, named⟩ | ⟨others', rfl, named⟩
    · rcases List.eq_nil_or_concat others' with rfl | ⟨others', d, rfl⟩
      · exact List.append_nil _
      · have named := areName d (by simp [named])
        rw [not_isNameChar_of_isBlank (blank d (by simp [← List.append_assoc]))] at named
        cases named
    · cases others' with
      | nil => exact (List.append_nil _).symm
      | cons d others' =>
          obtain rfl := (List.cons.inj named).1
          rw [areBlank c (by simp)] at shown
          cases shown

/-- No declaration is cut in two behind the keywords of a default export. -/
theorem declaration_uncut {front gap : List Char} {middle : Cursor} {c : Char}
    (ended : "default".toList <:+ front) (spaced : gap ≠ [])
    (areBlank : ∀ c ∈ gap, isBlank c = true)
    (reads : (Cursor.start text).Reads (front ++ gap) middle) (head : middle.rest.head? = some c)
    (shown : isBlank c = false) : declaration.Uncut (.start text) middle := by
  refine .of_head head fun lead start found inner more reads' found_at reads'' eq => ?_
  obtain ⟨keyword, mem, blanks, rest, spelled, -, ⟨-, areBlank'⟩, identifier, -⟩ :=
    text_of_declaration found_at
  have plain : keywords.all (fun keyword => keyword.toList.all (!isBlank ·) &&
      !keyword.toList.isSuffixOf "default".toList &&
      !"default".toList.isSuffixOf keyword.toList) = true := by decide
  have known := List.all_eq_true.1 plain keyword mem
  simp only [Bool.and_eq_true, Bool.not_eq_true', List.all_eq_true] at known
  obtain ⟨⟨letters, apart⟩, apart'⟩ := known
  have whole : front ++ gap = lead ++ inner := reads.word_unique (reads'.trans reads'')
  -- What the declaration reads up to there ends with white space, and then something else follows.
  refine Classical.byContradiction fun some => ?_
  have blank : ∀ d ∈ inner.getLast?, isBlank d = true := by
    rw [← List.getLast?_append_of_ne_nil lead some, ← whole,
      List.getLast?_append_of_ne_nil front spaced]
    exact fun d last => areBlank d (List.mem_of_getLast? last)
  have parted := split_at_blank letters areBlank' (isNameChar_of_mem_identifier identifier)
    (eq.symm.trans spelled) some blank shown
  rw [parted, ← List.append_assoc] at whole
  have front_eq : lead ++ keyword.toList = front := by
    refine front_unique areBlank' areBlank ?_ ?_ whole.symm
    · rcases List.eq_nil_or_concat keyword.toList with none | ⟨word, d, eq''⟩
      · rw [none] at apart
        cases apart
      · have light := letters d (by simp [eq''])
        simpa [eq'', begins] using light
    · obtain ⟨others, rfl⟩ := ended
      rw [List.reverse_append]
      rfl
  rcases List.suffix_or_suffix_of_suffix ⟨lead, front_eq⟩ ended with within | within
  · rw [List.isSuffixOf_iff_suffix.2 within] at apart
    cases apart
  · rw [List.isSuffixOf_iff_suffix.2 within] at apart'
    cases apart'

theorem keyword_of_function (stands : Form.function.StandsAt text left word) :
    ∃ n < text.length, left = text.take n ∧ "function".toList <+: text.drop n := by
  obtain ⟨_, right, rfl, declares⟩ := stands
  obtain ⟨blanks, others, rfl, -⟩ := declares.leads
  exact ⟨left.length, by simp, by simp, blanks ++ (others ++ (word ++ right)), by simp⟩

/-- A function that is exported as default stands behind the keywords of the export. -/
theorem function_of_exported (stands : Form.exportedFunction.StandsAt text left word) :
    ∃ gap gap', (gap ≠ [] ∧ ∀ c ∈ gap, isBlank c = true) ∧
      (gap' ≠ [] ∧ ∀ c ∈ gap', isBlank c = true) ∧ Form.function.StandsAt text
        (left ++ ("export".toList ++ (gap ++ ("default".toList ++ gap')))) word := by
  obtain ⟨lead, right, text_eq, declares⟩ := stands
  obtain ⟨gap, _, rfl, some, areBlank, gap', lead, rfl, some', areBlank', leads⟩ := declares.leads
  refine ⟨gap, gap', ⟨some, areBlank⟩, ⟨some', areBlank'⟩, lead, right, by simp [text_eq], ?_⟩
  refine ⟨.inr fun c last => ?_, leads, declares.identifier, declares.whole, trivial, trivial⟩
  simp only [← List.append_assoc] at last
  rw [List.getLast?_append_of_ne_nil _ some'] at last
  exact isWord_of_isBlank (areBlank' c (List.mem_of_getLast? last))

/-- A function is declared by the keywords of a default export before it, whatever stands before
those. -/
theorem mem_declaredNames_of_exported (stands : Form.exportedFunction.StandsAt text left word) :
    String.ofList word ∈ declaredNames text := by
  obtain ⟨gap, gap', -, ⟨spaced, areBlank⟩, lead, right, text_eq, declares⟩ :=
    function_of_exported stands
  set front := left ++ ("export".toList ++ (gap ++ "default".toList)) with front_eq
  have front_gap : left ++ ("export".toList ++ (gap ++ ("default".toList ++ gap'))) =
      front ++ gap' := by
    simp [front_eq]
  rw [front_gap] at text_eq declares
  have within : "default".toList <:+ front := ⟨left ++ ("export".toList ++ gap), by simp [front_eq]⟩
  obtain ⟨place, reads, rest_eq⟩ := exists_reads (front ++ gap')
    (show (Cursor.start text).rest = _ from text_eq)
  have before : (front ++ gap').getLast? = place.before := by
    rw [reads.before_eq]
    exact Option.or_none.symm
  obtain ⟨found, found_at, named⟩ := declares_function (before ▸ declares) rest_eq
  have size : found.text ≠ [] := by
    obtain ⟨keyword, -, blanks, -, spelled, -, -, ⟨c, others, group, -⟩, -⟩ :=
      text_of_declaration found_at
    simp [spelled, group]
  obtain ⟨stop, dissects, ended⟩ := declaration.dissects text
  have head : place.rest.head? = some 'f' := by
    obtain ⟨blanks, _, rfl, -⟩ := declares.leads
    rw [rest_eq]
    rfl
  obtain ⟨first, last, pieces_eq, -⟩ := dissects.exists_piece ended reads
    (declaration_uncut within spaced areBlank reads head (by decide)) found_at size
  have mem : found ∈ declaration.findAll text := by
    rw [mem_findAll, pieces_eq]
    simp
  rw [declaredNames, Text.mem_distinct, ← named]
  exact List.mem_map_of_mem mem

end Source

namespace Outline

variable {declared bound names : List String} {outline : Outline}

/-- Names that are bound beforehand are not taken up. -/
theorem not_mem_of_mem_foldl (within : ∀ name ∈ declared, name ∈ bound)
    (clean : ∀ entry ∈ outline.entries, entry.1 ∉ declared) :
    ∀ entry ∈ (names.foldl (take bound) outline).entries, entry.1 ∉ declared := by
  induction names generalizing outline with
  | nil => exact clean
  | cons name names ih =>
      refine ih ?_
      unfold take
      split
      · exact clean
      · next free =>
          simp only [Bool.or_eq_true, not_or, List.contains_iff_mem] at free
          split
          · exact clean
          split
          · exact clean
          · intro entry mem
            rcases List.mem_append.1 mem with mem | mem
            · exact clean entry mem
            · rw [List.mem_singleton.1 mem]
              exact fun mem => free.1 (within _ mem)

theorem undeclared_of_mem_ofText (text : List Char) (seeded : List String) :
    ∀ entry ∈ (ofText text seeded).entries, entry.1 ∉ Source.declaredNames text := by
  refine not_mem_of_mem_foldl (fun name mem => List.mem_append_left _ mem) ?_
  intro entry mem
  obtain ⟨stub, provided, rfl⟩ := List.mem_map.1 mem
  simpa using (List.mem_filter.1 provided).2

end Outline

/-- No declared name has a stub, whatever previews filled the registry. -/
theorem Synthesis.name_not_mem_declaredNames {registry : Registry}
    (holds : registry.HoldsPlaceholders) (text : List Char) (seeded : List String) :
    ∀ stub ∈ (ofText text seeded registry).stubs, stub.name ∉ Source.declaredNames text := by
  intro stub mem
  have entries := Outline.undeclared_of_mem_ofText text seeded
  rw [← (outline_ofText text seeded holds).1] at entries
  exact entries _ (List.mem_map_of_mem mem)

end ComponentPreview
