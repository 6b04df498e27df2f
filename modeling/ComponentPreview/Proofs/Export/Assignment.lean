import ComponentPreview.Proofs.Export.Statement

/-!
# The default export among statements

The keywords of a default export are found where white space follows them, and give way to the
start of an assignment. Inside the braces of a list and inside the name of a module they do so too,
which leaves it a list. The other statements stay as they are (`Statement.exists_assigned`).
-/

namespace ComponentPreview

namespace Modules

open Pattern

variable {here middle there : Cursor} {found : Match} {text word rest : List Char}

/-- What is put in place of a default export. -/
def assign (found : Match) : List Char :=
  Script.entryAssignment.fill found.text

theorem fill_entry (found : List Char) : Script.entryAssignment.fill found = entryText :=
  Template.fill_ofText _ _

theorem assign_eq (found : Match) : assign found = entryText :=
  fill_entry _

theorem head_of_default (here : Cursor) (found : Match) (h : exportDefault.at? here = some found) :
    here.rest.head? = some 'e' := by
  obtain ⟨c, rest, rest_eq, -⟩ := opens_of_default h
  rw [rest_eq]
  rfl

/-- Between `export` and the first other character there is only white space in a default export. -/
theorem default_at?_eq_none {blanks : List Char} {mark : Char}
    (rest_eq : here.rest = "export".toList ++ (blanks ++ mark :: rest))
    (areBlank : AreBlank blanks) (shown : isBlank mark = false) (other : mark ≠ 'd') :
    exportDefault.at? here = none := by
  cases found_at : exportDefault.at? here with
  | none => rfl
  | some found =>
      obtain ⟨-, gap, gap', eq, ⟨-, areBlank'⟩, -⟩ := text_of_default found_at
      have whole := (reads_of_at? found_at).rest_eq
      rw [rest_eq, eq, List.append_assoc, List.append_cancel_left_eq, List.append_assoc] at whole
      obtain ⟨-, same, -⟩ := Text.first_unique (!isBlank ·) whole
        (by simpa [AreBlank] using areBlank) (by simpa using shown)
        (by simpa [AreBlank] using areBlank') (by decide)
      exact absurd same other

/-- A keyword that starts no match stays. -/
theorem rewrites_keyword {pattern : Pattern} {edit : Match → List Char}
    (begins : ∀ here found, pattern.at? here = some found → here.rest.head? = some 'e')
    (none : pattern.at? here = none) (reads : here.Reads ("export".toList ++ word) there)
    (absent : 'e' ∉ word) : pattern.Rewrites edit here ("export".toList ++ word) there := by
  have split : "export".toList ++ word = ['e'] ++ ("xport".toList ++ word) := rfl
  rw [split] at reads ⊢
  obtain ⟨middle, first, others⟩ := reads.exists_middle
  refine (Rewrites.of_passes first fun lead place reads' shorter => ?_).append
    (Rewrites.of_absent begins others ?_)
  · obtain rfl : lead = [] := List.length_eq_zero_iff.1 (Nat.lt_one_iff.1 shorter)
    rwa [Cursor.Reads.nil_iff.1 reads']
  · rw [List.mem_append, not_or]
    exact ⟨by decide, absent⟩

theorem not_mem_default {stops : Char → Bool} (h : exportDefault.at? here = some found)
    (letters : "exportdefault".toList.all (!stops ·) = true)
    (blanks : ∀ c, isBlank c = true → stops c = false) : ∀ c ∈ found.text, stops c = false := by
  obtain ⟨-, gap, gap', eq, ⟨-, areBlank⟩, -, areBlank'⟩ := text_of_default h
  have letter (c : Char) (mem : c ∈ "exportdefault".toList) : stops c = false := by
    simpa using List.all_eq_true.1 letters c mem
  intro c mem
  simp only [eq, List.mem_append] at mem
  rcases mem with mem | mem | mem | mem
  · exact letter c (List.mem_append_left "default".toList mem)
  · exact blanks c (areBlank c mem)
  · exact letter c (List.mem_append_right "export".toList mem)
  · exact blanks c (areBlank' c mem)

/-- What stands up to a character that is neither in the keywords nor put in their place. -/
theorem exists_rewrites_upto (stops : Char → Bool) {mark : Char}
    (letters : "exportdefault".toList.all (!stops ·) = true)
    (blanks : ∀ c, isBlank c = true → stops c = false)
    (entry : entryText.all (!stops ·) = true) (reads : here.Reads word there)
    (stop : there.rest = mark :: rest) (isMark : stops mark = true)
    (clean : ∀ c ∈ word, stops c = false) :
    ∃ out, exportDefault.Rewrites assign here out there ∧ ∀ c ∈ out, stops c = false := by
  obtain ⟨out, rewrites, made⟩ := Rewrites.exists_upto assign
    (fun here found found_at => not_mem_default found_at letters blanks) reads
    (by simpa [stop] using isMark)
  refine ⟨out, rewrites, fun c mem => ?_⟩
  rcases made c mem with mem | ⟨found, mem⟩
  · exact clean c mem
  · rw [assign_eq] at mem
    simpa using List.all_eq_true.1 entry c mem

namespace Listing

variable {listing : Listing}

theorem rewrites_body (wellFormed : listing.WellFormed) (reads : here.Reads listing.body there) :
    ∃ names, names.isSome = listing.names.isSome ∧ (∀ inner ∈ names, '\x7d' ∉ inner) ∧
      exportDefault.Rewrites assign here { listing with names }.body there := by
  cases all : listing.names with
  | none =>
      have star : 'e' ∉ ['*'] := by decide
      rw [body, all] at reads
      exact ⟨none, rfl, by simp, .of_absent head_of_default reads star⟩
  | some names =>
      have split : listing.body = ['\x7b'] ++ (names ++ ['\x7d']) := by
        rw [body, all]
        rfl
      rw [split] at reads
      obtain ⟨opened, opens, reads⟩ := reads.exists_middle
      obtain ⟨inside, inner, closes⟩ := reads.exists_middle
      have clean : ∀ c ∈ names, (c == '\x7d') = false := by
        rintro c mem
        have absent := wellFormed.names names all
        simpa using fun same : c = '\x7d' => absent (same ▸ mem)
      obtain ⟨out, rewrites, clean'⟩ := exists_rewrites_upto (· == '\x7d') (by decide)
        (fun c blank => by simpa using fun same : c = '\x7d' => by simp [same, isBlank] at blank)
        (by decide) inner closes.rest_eq (by decide) clean
      refine ⟨some out, rfl, ?_, ?_⟩
      · rintro _ ⟨⟩ mem
        simpa using clean' _ mem
      · have front : exportDefault.Rewrites assign here ['\x7b'] opened :=
          .of_absent head_of_default opens (by decide)
        exact front.append (rewrites.append (.of_absent head_of_default closes (by decide)))

theorem isSpecial_of_isBlank (c : Char) (blank : isBlank c = true) :
    Origin.isSpecial c = false := by
  have other : c ≠ '\\' := fun same => by simp [same, isBlank] at blank
  simpa [Origin.isSpecial, other] using isQuoteMark_of_isBlank blank

theorem rewrites_source (wellFormed : listing.WellFormed)
    (reads : here.Reads listing.source there) :
    ∃ origin, origin.isSome = listing.origin.isSome ∧ (∀ inner ∈ origin, inner.WellFormed) ∧
      ({ listing with origin }.source).getLast? = listing.source.getLast? ∧
      exportDefault.Rewrites assign here { listing with origin }.source there := by
  cases given : listing.origin with
  | none =>
      rw [source, given] at reads
      exact ⟨none, rfl, by simp, by simp [source, given],
        .of_absent head_of_default reads List.not_mem_nil⟩
  | some origin =>
      obtain ⟨areBlank, isMark, clean⟩ := wellFormed.origin origin given
      have split (module : List Char) : Origin.text { origin with module } =
          ("from".toList ++ (origin.blanks ++ [origin.mark])) ++ (module ++ [origin.mark]) := by
        simp [Origin.text_eq]
      have source_eq : listing.source = origin.text := by rw [source, given]
      rw [source_eq, split] at reads
      obtain ⟨opened, opens, reads⟩ := reads.exists_middle
      obtain ⟨inside, inner, closes⟩ := reads.exists_middle
      have special : Origin.isSpecial origin.mark = true := by simp [Origin.isSpecial, isMark]
      obtain ⟨out, rewrites, clean'⟩ := exists_rewrites_upto Origin.isSpecial (by decide)
        isSpecial_of_isBlank (by decide) inner closes.rest_eq special clean
      have plain : 'e' ≠ origin.mark := by
        intro same
        rw [← same] at isMark
        exact absurd isMark (by decide)
      have front : exportDefault.Rewrites assign here
          ("from".toList ++ (origin.blanks ++ [origin.mark])) opened := by
        refine .of_absent head_of_default opens ?_
        simp only [List.mem_append, List.mem_singleton, not_or]
        exact ⟨by decide, areBlank.not_mem (by decide), plain⟩
      refine ⟨some { origin with module := out }, rfl, ?_, ?_, ?_⟩
      · rintro _ ⟨⟩
        exact ⟨areBlank, isMark, clean'⟩
      · rw [source_eq]
        change (Origin.text { origin with module := out }).getLast? = origin.text.getLast?
        rw [split, split]
        simp only [List.getLast?_append, List.getLast?_singleton, Option.some_or]
      · change exportDefault.Rewrites assign here (Origin.text { origin with module := out }) there
        rw [split]
        exact front.append (rewrites.append
          (.of_absent head_of_default closes (by simpa using plain)))

/-- What a list ends with does not depend on the names. -/
theorem getLast?_body (listing : Listing) :
    listing.body.getLast? = some (if listing.names.isSome then '\x7d' else '*') := by
  rw [body]
  cases listing.names with
  | none => rfl
  | some names => exact List.getLast?_concat (l := '\x7b' :: names)

theorem rewrites_assigned (wellFormed : listing.WellFormed) (plain : 'e' ∉ listing.close)
    (reads : here.Reads listing.text there) :
    ∃ listing' : Listing, listing'.WellFormed ∧ listing'.close = listing.close ∧
      listing'.origin.isSome = listing.origin.isSome ∧
      listing'.text.getLast? = listing.text.getLast? ∧
      exportDefault.Rewrites assign here listing'.text there := by
  have blank {blanks : List Char} (areBlank : AreBlank blanks) : 'e' ∉ blanks :=
    areBlank.not_mem (by decide)
  have parts : listing.text = listing.indent ++ (("export".toList ++ listing.blanks) ++
      (listing.body ++ (listing.gap ++ (listing.source ++ listing.close)))) := by
    simp only [text, tail, List.append_assoc]
  rw [parts] at reads
  obtain ⟨place₁, indents, reads⟩ := reads.exists_middle
  obtain ⟨place₂, keyword, reads⟩ := reads.exists_middle
  obtain ⟨place₃, bodies, reads⟩ := reads.exists_middle
  obtain ⟨place₄, gaps, reads⟩ := reads.exists_middle
  obtain ⟨place₅, sources, closes⟩ := reads.exists_middle
  obtain ⟨mark, rest, eq, isMark⟩ := listing.exists_mark
  have spelled : place₁.rest =
      "export".toList ++ (listing.blanks ++ mark :: (rest ++ place₃.rest)) := by
    rw [keyword.rest_eq, bodies.rest_eq, eq, List.append_assoc, List.cons_append]
  have none : exportDefault.at? place₁ = none := by
    rcases isMark with rfl | rfl <;>
      exact default_at?_eq_none spelled wellFormed.blanks (by decide) (by decide)
  obtain ⟨names, same, clean, rewrites⟩ := rewrites_body wellFormed bodies
  obtain ⟨origin, same', wellFormed', last, rewrites'⟩ := rewrites_source wellFormed sources
  refine ⟨{ listing with names, origin }, ⟨wellFormed.indent, wellFormed.blanks, clean,
    wellFormed.gap, wellFormed'⟩, rfl, same', ?_, ?_⟩
  · have body : { listing with names, origin }.body.getLast? = listing.body.getLast? := by
      rw [getLast?_body, getLast?_body, same]
    have source : { listing with names, origin }.source.getLast? = listing.source.getLast? := last
    simp only [text, tail, List.getLast?_append, body, source]
  · have indented : exportDefault.Rewrites assign here listing.indent place₁ :=
      .of_absent head_of_default indents (blank wellFormed.indent.areBlank)
    have opened : exportDefault.Rewrites assign place₁ ("export".toList ++ listing.blanks) place₂ :=
      rewrites_keyword head_of_default none keyword (blank wellFormed.blanks)
    have spaced : exportDefault.Rewrites assign place₃ listing.gap place₄ :=
      .of_absent head_of_default gaps (blank wellFormed.gap)
    have closed : exportDefault.Rewrites assign place₅ listing.close there :=
      .of_absent head_of_default closes plain
    have whole := indented.append
      (opened.append (rewrites.append (spaced.append (rewrites'.append closed))))
    rw [List.append_assoc "export".toList] at whole
    exact whole

end Listing

/-! ## What an assignment leaves of a text -/

/-- Two texts are the same or begin to differ where `export` gave way to the entry slot. -/
def Diverges (text out : List Char) : Prop :=
  text = out ∨ ∃ front later later', text = front ++ 'e' :: later ∧ out = front ++ 'w' :: later'

theorem diverges_of_rewrites {out : List Char}
    (rewrites : exportDefault.Rewrites assign here out there) (ended : there.rest = []) :
    Diverges here.rest out := by
  obtain ⟨pieces, dissects, rfl⟩ := rewrites
  induction dissects with
  | nil => exact .inl ended
  | @kept before c offset rest pieces there none others ih =>
      rcases ih ended with same | ⟨front, later, later', eq, eq'⟩
      · exact .inl (congrArg (c :: ·) same)
      · exact .inr ⟨c :: front, later, later', congrArg (c :: ·) eq, congrArg (c :: ·) eq'⟩
  | @found here found pieces there found_at size others ih =>
      obtain ⟨rest, rest_eq⟩ := List.head?_eq_some_iff.1 (head_of_default here found found_at)
      refine .inr ⟨[], rest, (entryText.drop 1) ++ pieces.flatMap (Piece.rewritten assign),
        rest_eq, ?_⟩
      rw [List.flatMap_cons, Piece.rewritten, assign_eq]
      rfl

theorem Diverges.eq_nil {out : List Char} (diverges : Diverges [] out) : out = [] := by
  rcases diverges with rfl | ⟨front, later, later', eq, -⟩
  · rfl
  · simp at eq

theorem Diverges.prepend {out : List Char} (diverges : Diverges text out) (word : List Char) :
    Diverges (word ++ text) (word ++ out) := by
  rcases diverges with rfl | ⟨front, later, later', rfl, rfl⟩
  · exact .inl rfl
  · exact .inr ⟨word ++ front, later, later', by simp, by simp⟩

theorem Diverges.head {out : List Char} (diverges : Diverges text out) :
    ∀ c ∈ out.head?, c ∈ text.head? ∨ c = 'w' := by
  rcases diverges with rfl | ⟨_ | ⟨d, front⟩, later, later', rfl, rfl⟩
  · exact fun c head => .inl head
  · exact fun c head => .inr (Option.some.inj head).symm
  · exact fun c head => .inl head

theorem Diverges.continues {out : List Char} (diverges : Diverges text out) (h : Continues out) :
    Continues text := by
  rcases diverges with rfl | ⟨front, later, later', rfl, rfl⟩
  · exact h
  · obtain ⟨blanks, mark, more, eq, areBlank, isMark⟩ := h
    have whole : front ++ 'w' :: later' = ("from".toList ++ (blanks ++ [mark])) ++ more := by
      rw [eq]
      simp
    rcases List.append_eq_append_iff.1 whole with ⟨_ | ⟨c, others⟩, split, rest⟩ | ⟨others, rfl, -⟩
    · refine ⟨blanks, mark, 'e' :: later, ?_, areBlank, isMark⟩
      rw [List.append_nil] at split
      simp [← split]
    · obtain rfl : 'w' = c := (List.cons.inj rest).1
      have mem : 'w' ∈ "from".toList ++ (blanks ++ [mark]) := by
        rw [split]
        simp
      simp only [List.mem_append, List.mem_singleton] at mem
      rcases mem with mem | mem | rfl
      · exact absurd mem (by decide)
      · exact absurd mem (areBlank.not_mem (by decide))
      · exact absurd isMark (by decide)
    · exact ⟨blanks, mark, others ++ 'e' :: later, by simp, areBlank, isMark⟩

theorem IsCode.of_diverges {following following' : List Char} (isCode : IsCode text following)
    (diverges : Diverges following following') : IsCode text following' :=
  isCode.of_imp fun none => (none ▸ diverges).eq_nil

theorem Listing.Ends.of_diverges {listing listing' : Listing} {following following' : List Char}
    (ends : listing.Ends following) (diverges : Diverges following following')
    (close : listing'.close = listing.close)
    (origin : listing'.origin.isSome = listing.origin.isSome) : listing'.Ends following' := by
  have none_iff : listing'.origin = none ↔ listing.origin = none := by
    rw [← Option.not_isSome_iff_eq_none, ← Option.not_isSome_iff_eq_none, origin]
  obtain ⟨lineEnd, complete, spaced, named⟩ := ends
  have diverges' := diverges.prepend listing.close
  refine ⟨close ▸ lineEnd, fun c head => ?_, fun none c head => ?_, fun none continues => ?_⟩
  · rw [close]
    rcases diverges.head c head with head | rfl
    · exact complete c head
    · intro lineEnd
      exact absurd (mem_of_isLineEnd lineEnd 'w' (by simp)) (by decide)
  · rw [close] at head
    rcases diverges'.head c head with head | rfl
    · exact spaced (none_iff.1 none) c head
    · decide
  · rw [close] at continues
    exact named (none_iff.1 none) (diverges'.continues continues)

/-! ## The keywords -/

theorem prefers_wordEdge {c : Char} (edge : Edge here) (head : here.rest.head? = some c)
    (shown : isWord c = true) : wordEdge.Prefers here here := by
  obtain ⟨rest, rest_eq⟩ := List.head?_eq_some_iff.1 head
  refine .wordEdge ?_
  rw [follows_eq_false.2 edge, Cursor.precedes, rest_eq]
  exact fun same => by simp [shown] at same

theorem prefers_default {gap gap' : List Char} {c : Char}
    (reads : here.Reads ("export".toList ++ (gap ++ ("default".toList ++ gap'))) there)
    (edge : Edge here) (some : gap ≠ []) (areBlank : AreBlank gap) (some' : gap' ≠ [])
    (areBlank' : AreBlank gap')
    (head : there.rest.head? = .some c) (shown : isBlank c = false) :
    exportDefault.Prefers here there := by
  obtain ⟨place₁, keyword, others⟩ := reads.exists_middle
  obtain ⟨place₂, gaps, others⟩ := others.exists_middle
  obtain ⟨place₃, keyword', gaps'⟩ := others.exists_middle
  have parts : exportDefault =
      wordEdge ++ (lit "export" ++ (Pattern.gap ++ (lit "default" ++ Pattern.gap))) := rfl
  have start : here.rest.head? = .some 'e' := by
    rw [keyword.rest_eq]
    rfl
  have stop : begins isBlank place₂.rest = false := by
    rw [keyword'.rest_eq]
    rfl
  have stop' : begins isBlank there.rest = false := by
    obtain ⟨rest, rest_eq⟩ := List.head?_eq_some_iff.1 head
    rw [rest_eq]
    exact shown
  rw [parts]
  exact (prefers_wordEdge edge start (by decide)).append
    (.append (.lit keyword) (.append (.gap gaps some areBlank stop)
      (.append (.lit keyword') (.gap gaps' some' areBlank' stop'))))

theorem rewrites_default {gap gap' : List Char} {c : Char}
    (reads : here.Reads ("export".toList ++ (gap ++ ("default".toList ++ gap'))) there)
    (edge : Edge here) (some : gap ≠ []) (areBlank : AreBlank gap) (some' : gap' ≠ [])
    (areBlank' : AreBlank gap')
    (head : there.rest.head? = .some c) (shown : isBlank c = false) :
    exportDefault.Rewrites assign here entryText there :=
  .of_prefers (prefers_default reads edge some areBlank some' areBlank' head shown) reads (by simp)
    assign_eq

/-- Keywords without white space behind them are no default export. -/
theorem unspaced_at?_eq_none {gap : List Char} {c : Char} (areBlank : AreBlank gap)
    (rest_eq : here.rest = "export".toList ++ (gap ++ ("default".toList ++ c :: rest)))
    (shown : isBlank c = false) : exportDefault.at? here = none := by
  cases found_at : exportDefault.at? here with
  | none => rfl
  | some found =>
      obtain ⟨-, blanks, blanks', eq, ⟨-, areBlank'⟩, some, areBlank''⟩ := text_of_default found_at
      have whole := (reads_of_at? found_at).rest_eq
      obtain ⟨d, blanks', rfl⟩ := List.exists_cons_of_ne_nil some
      rw [rest_eq, eq, List.append_assoc, List.append_cancel_left_eq, List.append_assoc] at whole
      have keywords : gap ++ 'd' :: ("efault".toList ++ c :: rest) =
          blanks ++ 'd' :: ("efault".toList ++ d :: (blanks' ++ found.stop.rest)) := whole
      obtain ⟨-, -, eq'⟩ := Text.first_unique (!isBlank ·) keywords
        (by simpa [AreBlank] using areBlank) (by decide)
        (by simpa [AreBlank] using areBlank') (by decide)
      obtain rfl : c = d := (List.cons.inj (List.append_cancel_left eq')).1
      rw [areBlank'' c List.mem_cons_self] at shown
      cases shown

/-- What stands behind an indent stays, if its keyword starts no match and only code follows. -/
theorem rewrites_kept {pattern : Pattern} {edit : Match → List Char}
    {indent front code : List Char}
    (begins : ∀ here found, pattern.at? here = some found → here.rest.head? = some 'e')
    (seeks : Seeks pattern) (isIndent : IsIndent indent)
    (none : ∀ place : Cursor, place.rest = "export".toList ++ (front ++ (code ++ there.rest)) →
      pattern.at? place = none)
    (absent : 'e' ∉ front) (isCode : IsCode code there.rest)
    (reads : here.Reads (indent ++ ("export".toList ++ (front ++ code))) there) :
    pattern.Rewrites edit here (indent ++ ("export".toList ++ (front ++ code))) there := by
  rw [← List.append_assoc "export".toList] at reads ⊢
  obtain ⟨place, indents, reads⟩ := reads.exists_middle
  obtain ⟨place', keywords, codes⟩ := reads.exists_middle
  have spelled : place.rest = "export".toList ++ (front ++ (code ++ there.rest)) := by
    rw [keywords.rest_eq, codes.rest_eq, List.append_assoc]
  have indented : pattern.Rewrites edit here indent place :=
    .of_absent begins indents (isIndent.areBlank.not_mem (by decide))
  exact indented.append ((rewrites_keyword begins (none place spelled) keywords absent).append
    (rewrites_code seeks isCode codes))

namespace Statement

variable {statement : Statement} {source : List Statement} {previous : Option Char}
  {following following' : List Char}

theorem Fits.of_diverges (fits : statement.Fits previous following)
    (diverges : Diverges following following') : statement.Fits previous following' := by
  cases statement with
  | code text => exact IsCode.of_diverges fits diverges
  | list listing =>
      obtain ⟨start, wellFormed, ends⟩ := fits
      exact ⟨start, wellFormed, ends.of_diverges diverges rfl rfl⟩
  | bundle indent blanks gap clause =>
      obtain ⟨start, isIndent, areBlank, areBlank', renames, isCode⟩ := fits
      exact ⟨start, isIndent, areBlank, areBlank', renames, isCode.of_diverges diverges⟩
  | default indent gap gap' expression =>
      obtain ⟨isIndent, isGap, areBlank, begins, isCode⟩ := fits
      exact ⟨isIndent, isGap, areBlank, begins, isCode.of_diverges diverges⟩
  | declaration indent gap declared =>
      obtain ⟨isIndent, isGap, declares, isCode⟩ := fits
      exact ⟨isIndent, isGap, declares, isCode.of_diverges diverges⟩
  | stray tail =>
      obtain ⟨place, isTail, isCode⟩ := fits
      exact ⟨place, isTail, isCode.of_diverges diverges⟩

/-- An expression becomes the right side of an assignment, if white space stands before it. -/
theorem rewrites_assignment {indent gap expression : List Char} {d : Char} {gap' : List Char}
    (fits : (default indent gap (d :: gap') expression).Fits previous there.rest)
    (edge : here.rest ≠ [] → Edge here)
    (reads : here.Reads (default indent gap (d :: gap') expression).text there) :
    exportDefault.Rewrites assign here (indent ++ (entryText ++ expression)) there := by
  obtain ⟨isIndent, ⟨some, areBlank⟩, areBlank', ⟨c, head, shown, -⟩, isCode⟩ := fits
  have split : (default indent gap (d :: gap') expression).text =
      indent ++ (("export".toList ++ (gap ++ ("default".toList ++ d :: gap'))) ++ expression) := by
    simp [text_default]
  rw [split] at reads
  obtain ⟨place, indents, reads⟩ := reads.exists_middle
  obtain ⟨place', keywords, expressions⟩ := reads.exists_middle
  have start : place'.rest.head? = .some c := by
    rw [expressions.rest_eq, List.head?_append, head]
    rfl
  have edge' : Edge place := by
    refine (edge ?_).of_reads isIndent.areBlank.endsQuietly indents
    rw [indents.rest_eq, keywords.rest_eq]
    simp
  have indented : exportDefault.Rewrites assign here indent place :=
    .of_absent head_of_default indents (isIndent.areBlank.not_mem (by decide))
  exact indented.append ((rewrites_default keywords edge' some areBlank
    (List.cons_ne_nil _ _) areBlank' start shown).append
      (rewrites_code seeks_default isCode expressions))

/-- The assignment treats a statement before others as it is to. -/
theorem exists_rewrites (fits : statement.Fits previous there.rest)
    (diverges : Diverges there.rest following') (edge : here.rest ≠ [] → Edge here)
    (reads : here.Reads statement.text there) :
    ∃ statement' : Statement, statement'.left = statement.left ∧
      statement'.text.getLast? = statement.text.getLast? ∧ statement'.Fits previous following' ∧
      exportDefault.Rewrites assign here statement'.assigned there := by
  have fits' := fits.of_diverges diverges
  cases statement with
  | code text => exact ⟨_, rfl, rfl, fits', rewrites_code seeks_default fits reads⟩
  | list listing =>
      obtain ⟨start, wellFormed, ends⟩ := fits
      obtain ⟨listing', wellFormed', close, origin, last, rewrites⟩ :=
        listing.rewrites_assigned wellFormed ends.not_mem_close reads
      exact ⟨list listing', rfl, last,
        ⟨start, wellFormed', ends.of_diverges diverges close origin⟩, rewrites⟩
  | bundle indent blanks gap clause =>
      obtain ⟨-, isIndent, areBlank, areBlank', -, isCode⟩ := fits
      have split : (bundle indent blanks gap clause).text =
          indent ++ ("export".toList ++ ((blanks ++ '*' :: gap) ++ clause)) := by
        simp [text_bundle]
      have absent : 'e' ∉ blanks ++ '*' :: gap := by
        simpa using ⟨areBlank.not_mem (by decide), areBlank'.not_mem (by decide)⟩
      refine ⟨_, rfl, rfl, fits', ?_⟩
      change exportDefault.Rewrites assign here (bundle indent blanks gap clause).text there
      rw [split] at reads ⊢
      refine rewrites_kept head_of_default seeks_default isIndent (fun place spelled => ?_) absent
        isCode reads
      rw [List.append_assoc, List.cons_append] at spelled
      exact default_at?_eq_none spelled areBlank (by decide) (by decide)
  | default indent gap gap' expression =>
      refine ⟨_, rfl, rfl, fits', ?_⟩
      cases gap' with
      | nil =>
          obtain ⟨isIndent, ⟨-, areBlank⟩, -, ⟨c, head, shown, opens⟩, isCode⟩ := fits
          have isCode' : IsCode ("default".toList ++ expression) there.rest := by
            refine isCode.default fun d first => ?_
            obtain rfl : c = d := Option.some.inj (head.symm.trans first)
            exact isWord_of_mem_openings (opens rfl)
          refine rewrites_kept head_of_default seeks_default isIndent (fun place spelled => ?_)
            (areBlank.not_mem (by decide)) isCode' reads
          obtain ⟨expression, rfl⟩ := List.head?_eq_some_iff.1 head
          rw [List.append_assoc, List.nil_append, List.cons_append] at spelled
          exact unspaced_at?_eq_none areBlank spelled shown
      | cons d gap' => exact rewrites_assignment fits edge reads
  | declaration indent gap declared =>
      obtain ⟨isIndent, ⟨-, areBlank⟩, declares, isCode⟩ := fits
      obtain ⟨c, later, rfl, initial⟩ := head_of_declares declares
      obtain ⟨shown, not_d, -⟩ := shown_of_initial initial
      refine ⟨_, rfl, rfl, fits', rewrites_kept head_of_default seeks_default isIndent
        (fun place spelled => ?_) (areBlank.not_mem (by decide)) isCode reads⟩
      exact default_at?_eq_none spelled areBlank shown not_d
  | stray tail =>
      obtain ⟨-, isTail, isCode⟩ := fits
      obtain ⟨blanks, mark, rest, eq, areBlank, isMark⟩ := isTail.exists_mark
      have unindented : IsIndent [] := nofun
      refine ⟨_, rfl, rfl, fits', rewrites_kept head_of_default seeks_default unindented
        (fun place spelled => ?_) List.not_mem_nil isCode reads⟩
      rw [List.nil_append, eq, List.append_assoc, List.cons_append] at spelled
      rcases isMark with rfl | rfl <;>
        exact default_at?_eq_none spelled areBlank (by decide) (by decide)

/-- The assignment treats the statements one by one and leaves them well placed. -/
theorem exists_assigned (placed : WellPlaced Statement.text previous source)
    (rest_eq : here.rest = source.flatMap Statement.text) (edge : here.rest ≠ [] → Edge here) :
    ∃ source' stop, WellPlaced assigned previous source' ∧ source'.map left = source.map left ∧
      exportDefault.Rewrites assign here (source'.flatMap assigned) stop ∧ stop.rest = [] := by
  induction source generalizing here previous with
  | nil => exact ⟨[], here, trivial, rfl, .refl here, rest_eq⟩
  | cons statement rest ih =>
      obtain ⟨fits, placed⟩ := placed
      rw [List.flatMap_cons] at rest_eq
      obtain ⟨there, reads, eq⟩ := exists_reads statement.text rest_eq
      have edge' : there.rest ≠ [] → Edge there := by
        intro more
        refine (edge ?_).of_reads (endsQuietly fits (eq ▸ more)) reads
        rw [reads.rest_eq]
        exact List.append_ne_nil_of_right_ne_nil _ more
      obtain ⟨rest', stop, placed', same, rewrites, ended⟩ := ih placed eq edge'
      rw [← eq] at fits
      obtain ⟨statement', left, last, fits', rewrites'⟩ :=
        exists_rewrites fits (diverges_of_rewrites rewrites ended) edge reads
      exact ⟨statement' :: rest', stop, ⟨fits', last ▸ placed'⟩,
        by rw [List.map_cons, List.map_cons, left, same], rewrites'.append rewrites, ended⟩

end Statement

end Modules

end ComponentPreview
