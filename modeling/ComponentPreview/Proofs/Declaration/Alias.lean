import ComponentPreview.Proofs.Declaration.Rounds
import ComponentPreview.Proofs.Export.Listing
import ComponentPreview.Proofs.Text.Preference
import ComponentPreview.Proofs.Type.Depth

/-!
# Aliases on a line of their own

The end of an alias is found by the depth of its brackets. An alias that ends its line is erased
and nothing else, if the scan finds the type closed where it ends (`alias_erased_iff`). It does so
for every type, except that it takes the brackets and semicolons of string literals for those of
the type.
-/

namespace ComponentPreview

open Pattern

namespace Declaration

open StateTransition Brackets

/-! ## Interfaces behind a line -/

variable {front rest : List Char}

theorem SpellsInterface.head {word : List Char} (spells : SpellsInterface word) :
    ∃ c ∈ " \tedi".toList, word.head? = some c := by
  obtain ⟨indent, «export», declare, blanks, c, more, rfl, isIndent, isExport, isDeclare, -⟩ :=
    spells
  cases indent with
  | cons d indent =>
      have blank := isIndent d (by simp)
      simp only [Declaration.isIndent, Bool.or_eq_true, beq_iff_eq] at blank
      rcases blank with rfl | rfl <;> simp
  | nil =>
      rcases isExport with rfl | ⟨blanks, rfl, -⟩
      · rcases isDeclare with rfl | ⟨blanks, rfl, -⟩ <;> simp
      · simp

/-- A line with which no interface begins. -/
structure IsOtherLine (front : List Char) : Prop where
  unbroken : '\n' ∉ front
  other : ∀ c ∈ front.head?, c ∉ " \tedi".toList

theorem IsOtherLine.passes (line : IsOtherLine front) (rest : List Char) :
    interfaceHead.Passes (.start (front ++ '\n' :: rest)) (front ++ ['\n']) := by
  intro lead middle reads shorter
  rw [← Option.not_isSome_iff_eq_none, isSome_at?, exists_ends_interface]
  rintro ⟨word, others, rest_eq, follows, spells, -⟩
  have whole := reads.rest_eq
  obtain ⟨more, rfl⟩ : lead <+: front := by
    refine List.prefix_of_prefix_length_le ⟨_, whole.symm⟩ (List.prefix_append _ _) ?_
    simpa [Nat.lt_succ_iff] using shorter
  rw [reads.before_eq] at follows
  cases last : lead.getLast? with
  | some d =>
      obtain rfl : d = '\n' := by simpa [interfaceToken, last] using follows
      exact line.unbroken (List.mem_append_left _ (List.mem_of_getLast? last))
  | none =>
      obtain rfl := List.getLast?_eq_none_iff.1 last
      obtain ⟨c, mem, head⟩ := spells.head
      obtain ⟨tail, rfl⟩ := List.head?_eq_some_iff.1 head
      rw [rest_eq] at whole
      cases more with
      | nil =>
          obtain rfl : '\n' = c := by simpa [Cursor.start] using congrArg List.head? whole
          exact absurd mem (by decide)
      | cons d more =>
          obtain rfl : d = c := by simpa [Cursor.start] using congrArg List.head? whole
          exact line.other d rfl mem

theorem eraseInterface?_append (line : IsOtherLine front) (rest : List Char) :
    eraseInterface? (front ++ '\n' :: rest) =
      (eraseInterface? rest).map (front ++ '\n' :: ·) := by
  rw [eraseInterface?, first?_append rfl (line.passes rest), eraseInterface?, Option.map_map,
    Option.map_map]
  congr 1
  funext head
  have kept (n : Nat) : (front ++ '\n' :: rest).take (n + (front.length + 1)) =
      front ++ '\n' :: rest.take n := by
    have past : n + (front.length + 1) - front.length = n + 1 := by omega
    rw [List.take_append, List.take_of_length_le (by omega), past, List.take_succ_cons]
  simp only [Function.comp, Match.shift, Span.shift, Cursor.shift, kept, List.append_assoc,
    List.cons_append]

theorem withoutInterfaces_append (line : IsOtherLine front) (rest : List Char) :
    withoutInterfaces (front ++ '\n' :: rest) = front ++ '\n' :: withoutInterfaces rest := by
  obtain ⟨run, done⟩ := mem_eval.1 (withoutInterfaces_mem_eval rest)
  refine Part.mem_unique (withoutInterfaces_mem_eval _) (mem_eval.2 ⟨?_, ?_⟩)
  · refine run.lift (front ++ '\n' :: ·) fun text shorter made => ?_
    change eraseInterface? _ = _
    rw [eraseInterface?_append line, Option.mem_def.1 made, Option.map_some]
  · rw [eraseInterface?_append line, done, Option.map_none]

/-! ## The end of an alias -/

variable {previous : Char} {depth : Int} {isBegun : Bool} {text : List Char}

theorem length_afterAlias_le (previous : Char) (depth : Int) (isBegun : Bool) (c : Char)
    (rest : List Char) : (afterAlias previous depth isBegun (c :: rest)).length ≤ rest.length := by
  rw [afterAlias]
  split
  · exact Nat.le_refl _
  · exact (Pass.afterAlias_suffix _ _ _ _).length_le

/-- The scan ends with the semicolon at the end of a line just if it finds none before and all
brackets closed. -/
theorem afterAlias_eq_iff (unbroken : '\n' ∉ text) (rest : List Char) :
    afterAlias previous depth isBegun (text ++ ';' :: '\n' :: rest) = '\n' :: rest ↔
      Within (· == ';') (some previous) depth text ∧
        depthAfter (some previous) depth text ≤ 0 := by
  induction text generalizing previous depth isBegun with
  | nil =>
      by_cases closed : depth ≤ 0
      · simp [afterAlias, closed, Within, depthAfter]
      · -- A scan that goes on here leaves less than the line break and what follows it.
        have short := length_afterAlias_le ';' (after (some previous) depth ';')
          (isBegun || !isBlank ';') '\n' rest
        have longer : afterAlias ';' (after (some previous) depth ';') (isBegun || !isBlank ';')
            ('\n' :: rest) ≠ '\n' :: rest := fun same => by simp [same] at short
        simpa [afterAlias, closed, Within, depthAfter] using longer
  | cons c text ih =>
      have other : c ≠ '\n' := by
        rintro rfl
        exact unbroken List.mem_cons_self
      have unbroken' : '\n' ∉ text := fun mem => unbroken (List.mem_cons_of_mem _ mem)
      rw [List.cons_append, afterAlias, Within, depthAfter]
      by_cases ends : c = ';' ∧ depth ≤ 0
      · obtain ⟨rfl, closed⟩ := ends
        have longer : text ++ ';' :: '\n' :: rest ≠ '\n' :: rest := fun same => by
          have sizes := congrArg List.length same
          simp only [List.length_append, List.length_cons] at sizes
          omega
        simp [closed, longer, Int.not_lt.2 closed]
      · have open' : c = ';' → 0 < depth := fun same => by
          by_contra closed
          exact ends ⟨same, by omega⟩
        have goes : (decide (depth ≤ 0) && (c == ';' || c == '\n' && isBegun &&
            !continues (text ++ ';' :: '\n' :: rest))) = false := by
          by_cases same : c = ';'
          · simpa [same] using open' same
          · simp [same, other]
        have met : (c == ';') = true → 0 < depth := fun same => open' (eq_of_beq same)
        simp only [goes, Bool.false_eq_true, if_false, ih unbroken']
        constructor
        · rintro ⟨within, closed⟩
          exact ⟨⟨met, within⟩, closed⟩
        · rintro ⟨⟨-, within⟩, closed⟩
          exact ⟨within, closed⟩

/-! ## The head of an alias -/

theorem alias_parts : aliasHead =
    lineStart ++ (most isIndent (begins Char.isLower) ++ (optional (lit "export" ++ gap) ++
      (optional (lit "declare" ++ gap) ++ (lit "type" ++ (gap ++ ((one isNameChar ++
        every isNameChar) ++ (spacing ++
          (optional (lit "<" ++ most (· != '=') (begins (· == '>')) ++ lit ">") ++
            (spacing ++ lit "="))))))))) :=
  rfl

/-- The head of an alias up to its equals sign. -/
def headText (name : Identifier) : List Char :=
  "type".toList ++ (" ".toList ++ (name.text ++ (" ".toList ++ "=".toList)))

theorem prefers_optional_of_head_ne {text : String} {body : Pattern} {here : Cursor} {c : Char}
    {others : List Char} (spelled : text.toList = c :: others)
    (head : ∀ d ∈ here.rest.head?, d ≠ c) : (optional (lit text ++ body)).Prefers here here := by
  refine Modules.prefers_optional_of_absent fun last ends => ?_
  obtain ⟨_, ends, -⟩ := mem_ends_append.1 ends
  exact Modules.not_mem_ends_lit spelled head _ ends

theorem prefers_alias {name : Identifier} {here there : Cursor}
    (start : here.before = none ∨ here.before = some '\n')
    (reads : here.Reads (headText name) there) : aliasHead.Prefers here there := by
  obtain ⟨place₁, keyword, reads⟩ := reads.exists_middle
  obtain ⟨place₂, blank, reads⟩ := reads.exists_middle
  obtain ⟨place₃, named, reads⟩ := reads.exists_middle
  obtain ⟨place₄, blank', equals⟩ := reads.exists_middle
  have lower : begins Char.isLower here.rest = true := by
    rw [keyword.rest_eq]
    rfl
  have unindented : begins isIndent here.rest = false := by
    rw [keyword.rest_eq]
    rfl
  have absent {keyword' : String} {c : Char} {others : List Char}
      (spelled : keyword'.toList = c :: others) (other : 't' ≠ c) :
      (optional (lit keyword' ++ gap)).Prefers here here := by
    refine prefers_optional_of_head_ne spelled ?_
    rw [keyword.rest_eq]
    rintro _ ⟨⟩
    exact other
  have noGeneric : (optional (lit "<" ++ (most (· != '=') (begins (· == '>')) ++ lit ">"))).Prefers
      place₄ place₄ := by
    refine prefers_optional_of_head_ne rfl ?_
    rw [equals.rest_eq]
    rintro _ ⟨⟩
    decide
  have unnamed : begins isNameChar place₃.rest = false := by
    have blank : isNameChar ' ' = false := by decide
    rw [blank'.rest_eq]
    exact blank
  have unspaced : begins isBlank place₄.rest = false := by
    rw [equals.rest_eq]
    rfl
  have gaps : gap.Prefers place₁ place₂ := by
    refine .gap blank (by decide) (List.all_eq_true.1 (by decide)) ?_
    rw [named.rest_eq]
    exact Component.Form.not_isBlank_of_isIdentifier name.spelled _
  rw [alias_parts]
  exact (Prefers.lineStart start).append ((Prefers.stay lower unindented).append
    ((absent rfl (by decide)).append ((absent rfl (by decide)).append
    ((Prefers.lit keyword).append (gaps.append
    ((name.prefers isNameChar_of_isNameStart named unnamed).append
    ((Prefers.every blank' (List.all_eq_true.1 (by decide)) unspaced).append (noGeneric.append
    ((Prefers.every (.refl _) (by simp) unspaced).append (.lit equals))))))))))

theorem eraseAlias?_alias (name : Identifier) (rest : List Char) :
    eraseAlias? (headText name ++ rest) = some (afterAlias '=' 0 false rest) := by
  obtain ⟨there, reads, rest_eq⟩ := exists_reads_start (headText name) rest
  obtain ⟨found, found_at, stop⟩ := at?_of_prefers (prefers_alias (.inl rfl) reads)
  obtain ⟨last, -, whole⟩ := exists_end_of_at? found_at
  have first : found.whole.first.offset = 0 := by
    rw [whole]
    rfl
  rw [eraseAlias?, first?_of_at? found_at, Option.map_some, first, stop, rest_eq]
  rfl

/-! ## An alias on a line of its own -/

/-- A word without quote marks, backslashes and line breaks. -/
def IsLiteral (word : List Char) : Prop :=
  ∀ c ∈ word, c ∉ "'\"\x60\\\n".toList

abbrev AliasType := TypeExpr IsLiteral .type

def aliasText (name : Identifier) (type : AliasType) : List Char :=
  headText name ++ ' ' :: (type.text ++ [';'])

/-- Whether the count of the brackets, those in literals among them, is even at the end of a type
and above it at each semicolon. -/
def IsClosed (type : AliasType) : Prop :=
  Within (· == ';') (some ' ') 0 type.text ∧ depthAfter (some ' ') 0 type.text ≤ 0

theorem unbroken (type : AliasType) : '\n' ∉ type.text := by
  refine TypeExpr.text_induction (P := ('\n' ∉ ·)) ?_ ?_ ?_ ?_ ?_ ?_ type
  · intro text other clean clean' mem
    exact (List.mem_append.1 mem).elim clean clean'
  · intro id mem
    exact absurd (id.isNameChar_of_mem mem) (by decide)
  · intro gap mem
    exact (gap.within _ mem).2 rfl
  · intro quote word isQuote isWord mem
    have marked : '\n' ≠ quote := by
      rintro rfl
      exact absurd isQuote (by decide)
    have unbroken : '\n' ∉ word := fun mem => isWord _ mem (by decide)
    simp [marked, unbroken] at mem
  · rintro c sign - - mem
    rw [← List.mem_singleton.1 mem] at sign
    exact absurd sign (by decide)
  · intro gap mem
    have unbroken : '\n' ∉ gap.text := fun mem => (gap.within _ mem).2 rfl
    simp [unbroken] at mem

theorem isOtherLine_aliasText (name : Identifier) (type : AliasType) :
    IsOtherLine (aliasText name type) where
  unbroken mem := by
    have named : '\n' ∉ name.text := fun mem => absurd (name.isNameChar_of_mem mem) (by decide)
    simp [aliasText, headText, named, unbroken] at mem
  other := by
    rintro c ⟨⟩
    decide

/-- An alias that ends its line is erased alone just if its type is closed, as it is when no string
literal holds a bracket or a semicolon. -/
theorem alias_erased_iff (name : Identifier) (type : AliasType) (rest : List Char) :
    (eraseAlias? (aliasText name type ++ '\n' :: rest) = some ('\n' :: rest) ↔ IsClosed type) ∧
      (IsClosed type →
        erase (aliasText name type ++ '\n' :: rest) = erase ('\n' :: rest)) ∧
      ((∀ word ∈ type.words, ∀ c ∈ word, isBracket c = false ∧ c ≠ ';') → IsClosed type) := by
  have once (rest : List Char) :
      eraseAlias? (aliasText name type ++ '\n' :: rest) = some ('\n' :: rest) ↔ IsClosed type := by
    have text_eq : aliasText name type ++ '\n' :: rest =
        headText name ++ ((' ' :: type.text) ++ ';' :: '\n' :: rest) := by
      simp [aliasText]
    have unbroken' : '\n' ∉ ' ' :: type.text := by simp [unbroken]
    rw [text_eq, eraseAlias?_alias, Option.some.injEq, afterAlias_eq_iff unbroken', Within,
      depthAfter, after_of_not_isBracket (by decide)]
    simp [IsClosed]
  refine ⟨once rest, fun closed => ?_, fun clean => ?_⟩
  · have line : IsOtherLine [] := ⟨by simp, by simp⟩
    have interfaces := withoutInterfaces_append (isOtherLine_aliasText name type) rest
    have interfaces' := withoutInterfaces_append line rest
    have step := (once (withoutInterfaces rest)).2 closed
    have ends := erase_mem_eval (aliasText name type ++ '\n' :: rest)
    have ends' := erase_mem_eval ('\n' :: rest)
    rw [interfaces, reaches_eval (.single step)] at ends
    rw [← List.nil_append ('\n' :: rest), interfaces', List.nil_append] at ends'
    exact Part.mem_unique ends ends'
  · have encloses : Encloses (· == ';') 0 type.text :=
      type.encloses (by simp) (by simpa using clean)
    exact ⟨encloses.within _ _ (Int.le_refl _), (encloses.level _ _).le⟩

theorem alias_of_literal_or_function_erased :
    let space : Gap := ⟨[' '], List.forall_mem_singleton.2 ⟨rfl, by decide⟩⟩
    let empty : Gap := ⟨[], List.forall_mem_nil _⟩
    let literal : AliasType := .literal '\'' ['s', 'm'] rfl (by simp [IsLiteral])
    let function : AliasType := .function (.nothing empty) space space (.name (.of 'B' [] rfl rfl))
    let name : Identifier := .of 'K' [] rfl rfl
    let type : AliasType := .union literal space space function
    let rest := "const a = 1;\n".toList
    aliasText name type = "type K = 'sm' | () => B;".toList ∧
      (∀ word ∈ type.words, ∀ c ∈ word, isBracket c = false ∧ c ≠ ';') ∧ IsClosed type ∧
      erase (aliasText name type ++ '\n' :: rest) = erase ('\n' :: rest) := by
  intro space empty literal function name type rest
  have clean : ∀ word ∈ type.words, ∀ c ∈ word, isBracket c = false ∧ c ≠ ';' := by
    refine List.forall_mem_singleton.2 (List.forall_mem_cons.2 ⟨by decide, ?_⟩)
    exact List.forall_mem_singleton.2 (by decide)
  have closed : IsClosed type := (alias_erased_iff name type rest).2.2 clean
  exact ⟨by decide, clean, closed, (alias_erased_iff name type rest).2.1 closed⟩

/-- The parenthesis of a literal is never closed, so that the alias goes on to the end of the
text. -/
theorem alias_of_parenthesis_erases_rest :
    let name : Identifier := .of 'P' "aren".toList rfl rfl
    let type : AliasType := .literal '\'' ['('] rfl (by simp [IsLiteral])
    let rest := "const a = 1;\n".toList
    aliasText name type ++ '\n' :: rest = "type Paren = '(';\nconst a = 1;\n".toList ∧
      erase (aliasText name type ++ '\n' :: rest) = [] ∧
      erase ('\n' :: rest) = "\nconst a = 1;\n".toList := by
  decide +kernel

end Declaration

end ComponentPreview
