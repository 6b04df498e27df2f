import ComponentPreview.Proofs.Script.Primitive

/-!
# Seams

Where the keyword of an export or the types of a hook are taken away, the text before and the text
after meet. No primitive lies across such a seam, apart from the call of a timer, whose name a hook
may end with.
-/

namespace ComponentPreview

open Edit Pattern Annotation

namespace Edit

theorem put_unique {old new old' new' : List Char} {first last : List Change}
    (word rest : List Char)
    (h : keepAll word ++ .put old new :: keepAll rest = first ++ .put old' new' :: last) :
    first = keepAll word ∧ old' = old ∧ new' = new ∧ last = keepAll rest := by
  induction word generalizing first with
  | nil =>
      cases first with
      | nil =>
          cases h
          exact ⟨rfl, rfl, rfl, rfl⟩
      | cons change first =>
          have mem : Change.put old' new' ∈ keepAll rest := by simp [(List.cons.inj h).2]
          obtain ⟨c, -, keep⟩ := List.mem_map.1 mem
          cases keep
  | cons c word ih =>
      cases first with
      | nil => cases h
      | cons change first =>
          obtain ⟨rfl, others⟩ := List.cons.inj h
          obtain ⟨rfl, same⟩ := ih others
          exact ⟨rfl, same⟩

end Edit

namespace DynamicCode

variable {primitive : DynamicCode} {edit : List Change}

/-- A primitive comes from the text before an edit that only takes away, if none lies across a
place where it does. -/
theorem occursIn_before_of_erasing (erases : ∀ old new, .put old new ∈ edit → new = [])
    (apart : ∀ first old last left word₁ word₂ right, edit = first ++ .put old [] :: last →
      after first = left ++ word₁ → after last = word₂ ++ right → word₂ ≠ [] →
      ¬primitive.token.FitsAt left (word₁ ++ word₂) right)
    (h : primitive.token.OccursIn (after edit)) : primitive.token.OccursIn (before edit) := by
  have free : ∀ next, primitive.token.precedes next := fun _ => by cases primitive <;> trivial
  refine occursIn_before free h ?_ ?_
  · rintro left word right eq fits ⟨first, old, new, last, rfl, low, high⟩
    obtain rfl := erases old new (by simp)
    rw [after_append, after_cons, Change.after] at eq
    rcases crossing_cases eq low high with ⟨word₁, word₂, some, -, lead, rfl, rest⟩ |
      ⟨new₁, new₂, -, some, none, -⟩
    · exact apart first old last left word₁ word₂ right rfl lead rest some fits
    · exact some (List.append_eq_nil_iff.1 none.symm).2
  · intro first old new last word right eq rest spelled follows
    obtain rfl := erases old new (by simp [eq])
    obtain ⟨c, others, rfl, -⟩ := head_of_reads spelled
    rw [after_append, after_cons, Change.after, after_nil, List.append_nil, List.append_nil]
      at follows
    exact absurd ⟨follows, spelled, free _⟩ (apart first old last (after first) [] (c :: others)
      right eq (List.append_nil _).symm rest (List.cons_ne_nil _ _))

end DynamicCode

namespace Pattern

variable {pattern : Pattern} {changes : Match → List Change} {here there : Cursor}
  {pieces front : List Piece}

/-- What a text begins with stays if no match begins with it. -/
theorem Dissects.head_after {c : Char} (dissects : pattern.Dissects here pieces there)
    (ended : there.rest = []) (head : here.rest.head? = some c)
    (apart : ∀ found, pattern.at? here ≠ some found) :
    (after (editPieces changes pieces)).head? = some c := by
  cases dissects with
  | nil =>
      rw [ended] at head
      cases head
  | kept none others => exact head
  | found found_at size others => exact absurd found_at (apart _)

theorem Dissects.eq_of_nil (dissects : pattern.Dissects here [] there) : there = here := by
  cases dissects
  rfl

theorem Dissects.before_eq {c : Char}
    (dissects : pattern.Dissects here (front ++ [.kept c]) there) :
    there.before = some c := by
  obtain ⟨middle, -, final⟩ := dissects.exists_middle
  cases final with
  | kept none others =>
      rw [others.eq_of_nil]
      rfl

theorem Dissects.exists_at? {found : Match}
    (dissects : pattern.Dissects here (front ++ [.found found]) there) :
    ∃ middle, pattern.at? middle = some found ∧ there = found.stop := by
  obtain ⟨middle, -, final⟩ := dissects.exists_middle
  cases final with
  | found found_at size others => exact ⟨middle, found_at, others.eq_of_nil⟩

theorem head_of_anyOf {texts : List String} {first last : Progress} {initials : List Char}
    (h : last ∈ (anyOf texts).ends first)
    (all : ∀ text ∈ texts, ∃ c ∈ initials, ∃ rest, text.toList = c :: rest) :
    ∃ c ∈ initials, ∃ rest, first.here.rest = c :: rest := by
  obtain ⟨text, mem, spelled⟩ := mem_ends_anyOf.1 h
  obtain ⟨c, initial, rest, eq⟩ := all text mem
  have whole := (reads_of_lit spelled).rest_eq
  rw [eq] at whole
  exact ⟨c, initial, _, whole⟩

end Pattern

namespace Pass

variable {text : List Char} {here : Cursor} {found : Match} {first last : List Change}
  {old new : List Char} {primitive : DynamicCode}

/-! ## Keywords of exports -/

theorem export_parts : Modules.exportKeyword = wordEdge ++ (lit "export" ++ (gap ++
    ahead (optional (lit "async" ++ gap) ++
      anyOf ["const", "let", "var", "function", "class"] ++ wordEdge))) :=
  rfl

/-- The keyword of an export stands at the beginning of a word. -/
theorem start_of_export (h : Modules.exportKeyword.at? here = some found) :
    here.rest.head? = some 'e' ∧ ∀ c ∈ here.before, isWord c = false := by
  rw [export_parts] at h
  obtain ⟨last, ends, rfl⟩ := exists_end_of_at? h
  obtain ⟨first, edge, ends⟩ := mem_ends_append.1 ends
  obtain ⟨apart, rfl⟩ := mem_ends_wordEdge.1 edge
  obtain ⟨keyword, ends, -⟩ := mem_ends_append.1 ends
  have whole : here.rest = "export".toList ++ keyword.here.rest := (reads_of_lit ends).rest_eq
  have precedes : here.precedes isWord = true := by
    rw [Cursor.precedes, whole]
    rfl
  rw [precedes] at apart
  exact ⟨by rw [whole]; rfl, follows_eq_false.1 (Bool.eq_false_iff.2 apart)⟩

/-- What is exported begins with one of a few letters. -/
theorem stop_of_export (h : Modules.exportKeyword.at? here = some found) :
    ∃ c ∈ ['a', 'c', 'l', 'v', 'f'], found.stop.rest.head? = some c := by
  rw [export_parts] at h
  obtain ⟨last, ends, rfl⟩ := exists_end_of_at? h
  obtain ⟨first, -, ends⟩ := mem_ends_append.1 ends
  obtain ⟨keyword, -, ends⟩ := mem_ends_append.1 ends
  obtain ⟨spaced, -, follows⟩ := mem_ends_append.1 ends
  obtain ⟨⟨later, declares⟩, rfl⟩ := mem_ends_ahead.1 follows
  obtain ⟨named, declares, -⟩ := mem_ends_append.1 declares
  obtain ⟨opened, opens, keywords⟩ := mem_ends_append.1 declares
  have heads : ∀ text ∈ ["const", "let", "var", "function", "class"],
      ∃ c ∈ ['a', 'c', 'l', 'v', 'f'], ∃ rest, text.toList = c :: rest := by simp
  rcases mem_ends_optional.1 opens with asynchronous | rfl
  · obtain ⟨marked, marks, -⟩ := mem_ends_append.1 asynchronous
    refine ⟨'a', by simp, ?_⟩
    change last.here.rest.head? = some 'a'
    rw [(reads_of_lit marks).rest_eq]
    rfl
  · obtain ⟨c, initial, rest, eq⟩ := head_of_anyOf keywords heads
    refine ⟨c, initial, ?_⟩
    change opened.here.rest.head? = some c
    rw [eq]
    rfl

/-- Before the keyword of an export no word ends, and what follows it begins a word. -/
theorem seam_of_exports
    (eq : Modules.exportKeyword.edit dropMatch text = first ++ .put old new :: last) :
    new = [] ∧ (∀ c ∈ (after first).getLast?, isWord c = false) ∧
      ∃ c ∈ ['a', 'c', 'l', 'v', 'f'], (after last).head? = some c := by
  have others : ∀ c ∈ ['a', 'c', 'l', 'v', 'f'], c ≠ 'e' := by simp
  obtain ⟨stop, dissects, ended⟩ := Modules.exportKeyword.dissects text
  obtain ⟨front, found, back, start, head, tail, lead, found_at, trail, parts, rfl, rfl⟩ :=
    dissects.exists_found eq
  obtain ⟨rfl, rfl, rfl, rfl⟩ := put_unique [] [] parts
  obtain ⟨begins, edge⟩ := start_of_export found_at
  refine ⟨rfl, ?_, ?_⟩
  · rcases List.eq_nil_or_concat front with rfl | ⟨front, piece, rfl⟩
    · exact fun c mem => nomatch mem
    · rw [List.concat_eq_append] at lead
      cases piece with
      | kept c =>
          rw [lead.before_eq] at edge
          intro d mem
          have last :
              (after (editPieces dropMatch (front.concat (.kept c)) ++ keepAll [])).getLast? =
                some c := by
            simp [editPieces, editPiece, Change.after]
          rw [last] at mem
          exact edge d mem
      | found other =>
          obtain ⟨middle, other_at, rfl⟩ := lead.exists_at?
          obtain ⟨c, initial, eq⟩ := stop_of_export other_at
          rw [begins] at eq
          cases eq
          exact absurd rfl (others _ initial)
  · obtain ⟨c, initial, eq⟩ := stop_of_export found_at
    refine ⟨c, initial, trail.head_after ended eq fun other other_at => ?_⟩
    rw [(start_of_export other_at).1] at eq
    cases eq
    exact others _ initial rfl

theorem occursIn_before_exports
    (h : primitive.token.OccursIn (after (Modules.exportKeyword.edit dropMatch text))) :
    primitive.token.OccursIn (before (Modules.exportKeyword.edit dropMatch text)) := by
  refine DynamicCode.occursIn_before_of_erasing ?_ ?_ h
  · intro old new mem
    obtain ⟨first, last, eq⟩ := List.append_of_mem mem
    exact (seam_of_exports eq).1
  · intro first old last left word₁ word₂ right eq lead rest some fits
    obtain ⟨-, edge, c, initial, begins⟩ := seam_of_exports eq
    obtain ⟨d, word₂, rfl⟩ := List.exists_cons_of_ne_nil some
    rw [rest] at begins
    cases begins
    have words : ['a', 'c', 'l', 'v', 'f'].all isWord = true := by decide
    have isWord := List.all_eq_true.1 words _ initial
    have others : ∀ c ∈ ['e', 'F', 's'], c ∉ ['a', 'c', 'l', 'v', 'f'] := by simp
    rcases List.eq_nil_or_concat word₁ with rfl | ⟨word₁, c, rfl⟩
    · obtain ⟨c, rest, eq, initial'⟩ := DynamicCode.head_of_reads fits.reads
      cases eq
      exact others _ initial' initial
    · have before := DynamicCode.isWord_of_reads fits.reads isWord c (by simp)
      rw [edge c (by simp [lead])] at before
      cases before

/-! ## Types of hooks -/

theorem group_of_hook (h : hookGeneric.at? here = some found) :
    's' ∈ found.group 0 ∧ ∀ c ∈ found.group 0, isNameChar c = true := by
  have parts : hookGeneric = wordEdge ++ (capture (lit "use" ++ one Char.isUpper ++
      every isNameChar) ++ (spacing ++ lit "<" ++ every isGenericChar ++
      optional (lit "<" ++ every isGenericChar ++ lit ">") ++
      every isGenericChar ++ lit ">" ++ spacing ++ lit "(")) := rfl
  rw [parts] at h
  obtain ⟨first, inner, last, -, named, group, -, -⟩ := reads_group rfl rfl h
  obtain ⟨capital, named, others⟩ := mem_ends_append.1 named
  obtain ⟨start, starts, capitals⟩ := mem_ends_append.1 named
  obtain ⟨there, reads, rfl⟩ := mem_ends_lit.1 starts
  obtain ⟨c, there', isUpper, reads', rfl⟩ := mem_ends_one.1 capitals
  obtain ⟨rest, there'', reads'', names, -, rfl⟩ := mem_ends_every.1 others
  rw [group.word_unique (reads.trans (reads'.trans reads''))]
  refine ⟨by simp, fun d mem => ?_⟩
  simp only [List.mem_append, List.mem_singleton] at mem
  rcases mem with mem | rfl | mem
  · have letters : "use".toList.all isNameChar = true := by decide
    exact List.all_eq_true.1 letters d mem
  · have letter : d.isAlpha = true := by
      rw [show d.isAlpha = (d.isUpper || d.isLower) from rfl, isUpper, Bool.true_or]
    exact isNameChar_of_isNameStart d (by rw [isNameStart, letter, Bool.true_or, Bool.true_or])
  · exact names d mem

/-- The types of a hook are taken away between its name and a parenthesis. -/
theorem seam_of_hooks
    (eq : hookGeneric.edit dropGeneric text = first ++ .put old new :: last) :
    new = [] ∧ (∃ lead name, after first = lead ++ name ∧ 's' ∈ name ∧
      ∀ c ∈ name, isNameChar c = true) ∧ (after last).head? = some '(' := by
  obtain ⟨stop, dissects, ended⟩ := hookGeneric.dissects text
  obtain ⟨front, found, back, start, head, tail, -, found_at, -, parts, rfl, rfl⟩ :=
    dissects.exists_found eq
  obtain ⟨rfl, rfl, rfl, rfl⟩ := put_unique (found.group 0) ['('] parts
  refine ⟨rfl, ⟨after (editPieces dropGeneric front), found.group 0, by simp, ?_⟩, rfl⟩
  exact group_of_hook found_at

/-- The name of a hook ends with no other name, before which no name character stands. -/
theorem not_fitsAt_hook {shuns : Char → Bool} {name left word₁ word₂ right lead hook : List Char}
    (names : ∀ c, isNameChar c = true → shuns c = true) (other : 's' ∉ name) (closed : '(' ∉ name)
    (eq : lead ++ hook = left ++ word₁) (own : 's' ∈ hook)
    (named : ∀ c ∈ hook, isNameChar c = true) (opens : word₂.head? = some '(') :
    ¬(Token.call shuns name).FitsAt left (word₁ ++ word₂) right := by
  rintro ⟨follows, ⟨blanks, areBlank, spelled⟩, -⟩
  obtain ⟨more, rfl⟩ : ∃ more, word₂ = '(' :: more := List.head?_eq_some_iff.1 opens
  -- The parenthesis of the call is the one that the types stood before.
  obtain rfl : word₁ = name ++ blanks := by
    rw [← List.append_assoc] at spelled
    have single : '(' ∉ name ++ blanks := by
      simp only [List.mem_append, not_or]
      exact ⟨closed, fun mem => absurd (areBlank _ mem) (by decide)⟩
    rcases List.append_eq_append_iff.1 spelled with ⟨_ | ⟨c, rest⟩, eq, eq'⟩ | ⟨rest, eq, eq'⟩
    · simpa using eq.symm
    · obtain rfl := (List.cons.inj eq').1
      exact absurd (by simp [eq]) single
    · cases rest with
      | nil => simpa using eq
      | cons c rest => simp at eq'
  obtain rfl : blanks = [] := by
    rcases List.eq_nil_or_concat blanks with rfl | ⟨blanks, c, rfl⟩
    · rfl
    · obtain ⟨front, d, rfl⟩ : ∃ front d, hook = front ++ [d] := by
        rcases List.eq_nil_or_concat hook with rfl | ⟨front, d, rfl⟩
        · cases own
        · exact ⟨front, d, List.concat_eq_append⟩
      have last := congrArg List.getLast? eq
      simp only [← List.append_assoc, List.concat_eq_append, List.getLast?_concat] at last
      cases last
      have isName := named c (by simp)
      rw [not_isNameChar_of_isBlank (areBlank c (by simp))] at isName
      cases isName
  rw [List.append_nil] at eq
  rcases List.append_eq_append_iff.1 eq with ⟨rest, rfl, rfl⟩ | ⟨rest, rfl, rfl⟩
  · rcases List.eq_nil_or_concat rest with rfl | ⟨rest, c, rfl⟩
    · exact other own
    · have shunned := follows c (by simp)
      rw [names c (named c (by simp))] at shunned
      cases shunned
  · exact other (List.mem_append_right _ own)

theorem occursIn_before_hooks (call : primitive ≠ .textTimer)
    (h : primitive.token.OccursIn (after (hookGeneric.edit dropGeneric text))) :
    primitive.token.OccursIn (before (hookGeneric.edit dropGeneric text)) := by
  refine DynamicCode.occursIn_before_of_erasing ?_ ?_ h
  · intro old new mem
    obtain ⟨first, last, eq⟩ := List.append_of_mem mem
    exact (seam_of_hooks eq).1
  · intro first old last left word₁ word₂ right eq lead rest some
    obtain ⟨-, ⟨front, name, parts, own, named⟩, opens⟩ := seam_of_hooks eq
    obtain ⟨c, word₂, rfl⟩ := List.exists_cons_of_ne_nil some
    rw [rest] at opens
    have same := parts.symm.trans lead
    cases primitive with
    | evaluation => exact not_fitsAt_hook (fun _ => id) (by decide) (by decide) same own named opens
    | functionConstructor =>
        refine not_fitsAt_hook (fun c isName => ?_) (by decide) (by decide) same own named opens
        rw [isName, Bool.true_or]
    | textTimer => exact absurd rfl call

/-! ## The default export -/

/-- The assignment of the default export is put in place of keywords and a gap. -/
theorem seam_of_assign {assignment : Template}
    (eq : Modules.exportDefault.edit (assign assignment) text = first ++ .put old new :: last) :
    new = assignment.fill old ∧ ∃ c, old.getLast? = some c ∧ isBlank c = true := by
  obtain ⟨stop, dissects, ended⟩ := Modules.exportDefault.dissects text
  obtain ⟨front, found, back, start, head, tail, -, found_at, -, parts, rfl, rfl⟩ :=
    dissects.exists_found eq
  obtain ⟨rfl, rfl, rfl, rfl⟩ := put_unique [] [] parts
  refine ⟨rfl, ?_⟩
  have whole := reads_of_at? found_at
  obtain ⟨last, ends, rfl⟩ := exists_end_of_at? found_at
  have split : Modules.exportDefault =
      wordEdge ++ lit "export" ++ gap ++ lit "default" ++ (one isBlank ++ every isBlank) := rfl
  rw [split] at ends
  obtain ⟨named, ends, gaps⟩ := mem_ends_append.1 ends
  obtain ⟨word, reads⟩ := reads_of_mem_ends ends
  obtain ⟨spaced, blank, blanks⟩ := mem_ends_append.1 gaps
  obtain ⟨c, there, isBlank, reads', rfl⟩ := mem_ends_one.1 blank
  obtain ⟨rest, there', reads'', areBlank, -, rfl⟩ := mem_ends_every.1 blanks
  rw [whole.word_unique (reads.trans (reads'.trans reads''))]
  rcases List.eq_nil_or_concat rest with rfl | ⟨rest, d, rfl⟩
  · exact ⟨c, by simp, isBlank⟩
  · have split : word ++ ([c] ++ rest.concat d) = (word ++ c :: rest) ++ [d] := by simp
    exact ⟨d, by rw [split, List.getLast?_concat], areBlank d (by simp)⟩

theorem follows_of_isBlank {c : Char} (blank : isBlank c = true) :
    primitive.token.follows (some c) := by
  have other := not_isNameChar_of_isBlank blank
  cases primitive with
  | evaluation => simpa [DynamicCode.token, Token.call] using other
  | functionConstructor =>
      have dot : c ≠ '.' := fun eq => by simp [eq, isBlank] at blank
      simpa [DynamicCode.token, Token.call, dot] using other
  | textTimer =>
      rw [isNameChar, Bool.or_eq_false_iff] at other
      simpa [DynamicCode.token, Token.timer] using other.1

/-- No primitive reads a part of the assignment to the entry slot. -/
theorem not_reads_assignment {new₁ new₂ word right rest : List Char} (some : new₂ ≠ [])
    (parts : (Script.entrySlot ++ " = ").toList = new₁ ++ new₂)
    (eq : new₂ ++ rest = word ++ right) :
    ¬primitive.token.reads word := by
  intro spelled
  have table : ∀ i < 26,
      ((Script.entrySlot ++ " = ").toList.drop i).head?.any ['e', 'F', 's'].contains = true →
      '=' ∈ (Script.entrySlot ++ " = ").toList.drop i := by decide
  have small : new₁.length < 26 := by
    have length := congrArg List.length parts
    have whole : (Script.entrySlot ++ " = ").toList.length = 26 := by decide
    have more := List.length_pos_iff.2 some
    rw [whole, List.length_append] at length
    omega
  have drop : (Script.entrySlot ++ " = ").toList.drop new₁.length = new₂ := by
    rw [parts, List.drop_left]
  obtain ⟨c, others, rfl, initial⟩ := DynamicCode.head_of_reads spelled
  obtain ⟨d, new₂, rfl⟩ := List.exists_cons_of_ne_nil some
  obtain rfl := (List.cons.inj eq).1
  have equals := table _ small (by rw [drop]; simpa using initial)
  rw [drop] at equals
  rcases List.append_eq_append_iff.1 eq with ⟨more, longer, -⟩ | ⟨more, shorter, -⟩
  · refine DynamicCode.not_mem_of_isForeign spelled (c := '=') (by decide) ?_
    rw [longer]
    exact List.mem_append_left _ equals
  · have none : '(' ∉ (Script.entrySlot ++ " = ").toList := by decide
    refine none ?_
    rw [parts, shorter]
    have opener := DynamicCode.opener_mem_of_reads spelled
    exact List.mem_append_right _ (List.mem_append_left _ opener)

theorem occursIn_before_assign
    (h : primitive.token.OccursIn
      (after (Modules.exportDefault.edit (assign Script.entryAssignment) text))) :
    primitive.token.OccursIn
      (before (Modules.exportDefault.edit (assign Script.entryAssignment) text)) := by
  have free : ∀ next, primitive.token.precedes next := fun _ => by cases primitive <;> trivial
  refine occursIn_before free h ?_ ?_
  · rintro left word right eq fits ⟨first, old, new, last, parts, low, high⟩
    obtain ⟨filled, -⟩ := seam_of_assign parts
    obtain rfl : new = (Script.entrySlot ++ " = ").toList := filled.trans (Template.fill_ofText _ _)
    rw [parts, after_append, after_cons, Change.after] at eq
    rcases crossing_cases eq low high with ⟨word₁, word₂, some, -, -, rfl, rest⟩ |
      ⟨new₁, new₂, -, some, split, rest⟩
    · have absent := DynamicCode.not_mem_of_isForeign fits.reads (c := 'w') (by decide)
      obtain ⟨c, word₂, rfl⟩ := List.exists_cons_of_ne_nil some
      have same : 'w' = c := (List.cons.inj rest).1
      exact absent (same ▸ List.mem_append_right word₁ List.mem_cons_self)
    · exact not_reads_assignment some split rest fits.reads
  · intro first old new last word right eq rest spelled follows
    obtain ⟨-, c, ended, blank⟩ := seam_of_assign eq
    rw [List.getLast?_append, ended]
    exact follows_of_isBlank blank

end Pass

end ComponentPreview
