import ComponentPreview.Proofs.Export.Listing
import ComponentPreview.Proofs.Script.Plain
import ComponentPreview.Proofs.Text.Preference
import ComponentPreview.Proofs.Type.Depth

/-!
# Parameters with types

The types of a parameter list are erased and nothing else, as long as function types do not nest:
the pattern of a list sees one level of parentheses (`parameterTypes_erased`). The list is cut where
its parameters end, and of a type and its default the scan finds the equals sign between them.
-/

namespace ComponentPreview

open Pattern Brackets Annotation

/-! ## Parentheses -/

/-- Parentheses that nest at most `n` times. -/
inductive Nests : Nat → List Char → Prop
  | flat {n : Nat} {text : List Char} (flat : ∀ c ∈ text, isFlat c = true) : Nests n text
  | group {n : Nat} {front inner rest : List Char} (flat : ∀ c ∈ front, isFlat c = true)
      (within : Nests n inner) (others : Nests (n + 1) rest) :
      Nests (n + 1) (front ++ '(' :: (inner ++ ')' :: rest))

namespace Nests

variable {n m : Nat} {text other : List Char}

theorem mono (h : Nests n text) (le : n ≤ m) : Nests m text := by
  induction h generalizing m with
  | flat flat => exact .flat flat
  | group flat within others ihw iho =>
      obtain ⟨m, rfl⟩ : ∃ less, m = less + 1 := ⟨m - 1, by omega⟩
      exact .group flat (ihw (by omega)) (iho le)

theorem append_of_flat (flat : ∀ c ∈ text, isFlat c = true) (h : Nests n other) :
    Nests n (text ++ other) := by
  cases h with
  | flat flat' => exact .flat (List.forall_mem_append.2 ⟨flat, flat'⟩)
  | group flat' within others =>
      rw [← List.append_assoc]
      exact .group (List.forall_mem_append.2 ⟨flat, flat'⟩) within others

theorem append (h : Nests n text) (h' : Nests n other) : Nests n (text ++ other) := by
  induction h with
  | flat flat => exact h'.append_of_flat flat
  | group flat within others ihw iho =>
      have rest := iho h'
      simpa using Nests.group flat within rest

theorem of_unsigned (unsigned : ∀ c ∈ text, c ∉ signs) : Nests n text := by
  refine .flat fun c mem => ?_
  have other : c ≠ '(' ∧ c ≠ ')' := by
    constructor
    · rintro rfl
      exact unsigned _ mem (by decide)
    · rintro rfl
      exact unsigned _ mem (by decide)
  simpa [isFlat] using other

theorem single {c : Char} (flat : isFlat c = true) (h : Nests n text) : Nests n (c :: text) :=
  append_of_flat (List.forall_mem_singleton.2 flat) h

end Nests

namespace TypeExpr

variable {part : Part}

/-- Parentheses nest as deep as function types do. -/
theorem nests (type : TypeExpr (fun _ => False) part) : Nests type.functionDepth type.text := by
  have name (n : Nat) (id : Identifier) : Nests n id.text := .of_unsigned fun _ => id.not_mem_signs
  have gap (n : Nat) (gap : Gap) : Nests n gap.text := .of_unsigned fun _ => gap.not_mem_signs
  have nil (n : Nat) : Nests n [] := .flat (by simp)
  have label (n : Nat) : ∀ label, Nests n (labelText label) :=
    labelText_induction Nests.append (name n) (gap n) (.single rfl (nil n))
  induction type with
  | name id => exact name _ id
  | literal quote word isQuote isWord => exact isWord.elim
  | array item ih => exact ih.append (.single rfl (.single rfl (nil _)))
  | generic id arguments ih =>
      exact (name _ id).append (.single rfl (ih.append (.single rfl (nil _))))
  | tuple items ih => exact .single rfl (ih.append (.single rfl (nil _)))
  | object members ih => exact .single rfl (ih.append (.single rfl (nil _)))
  | union left front back right ihl ihr =>
      exact (ihl.mono (Nat.le_max_left _ _)).append ((gap _ front).append
        (.single rfl ((gap _ back).append (ihr.mono (Nat.le_max_right _ _)))))
  | function parameters front back result ihp ihr =>
      have behind : Nests (max parameters.functionDepth result.functionDepth + 1) (front.text ++
          '=' :: '>' :: (back.text ++ result.text)) :=
        (gap _ front).append (.single rfl (.single rfl ((gap _ back).append
          (ihr.mono (by omega)))))
      have whole := (Nests.group (by simp) (ihp.mono (Nat.le_max_left _ _)) behind :
        Nests _ ([] ++ _))
      simpa [text, functionDepth] using whole
  | nothing space => exact gap _ space
  | last front label' item back ih =>
      exact (gap _ front).append ((label _ label').append (ih.append (gap _ back)))
  | @more separator front label' item back others ih ihs =>
      have separated := Nests.single (c := separator.mark) (by cases separator <;> rfl)
        (ihs.mono (Nat.le_max_right item.functionDepth _))
      exact (gap _ front).append ((label _ label').append
        ((ih.mono (Nat.le_max_left _ _)).append ((gap _ back).append separated)))

end TypeExpr

/-! ## Parameters -/

/-- A default value: an identifier, a number or anything else without brackets and signs. -/
structure DefaultValue where
  text : List Char
  unsigned : ∀ c ∈ text, c ∉ signs

def defaultText (value : Option DefaultValue) : List Char :=
  value.elim [] (" = ".toList ++ ·.text)

inductive Binder
  | name (id : Identifier)
  | rest (id : Identifier)
  | names (ids : List Identifier)

/-- The names of a destructured parameter, between its braces. -/
def Identifier.listed (ids : List Identifier) : List Char :=
  ' ' :: (Text.join ", ".toList (ids.map text) ++ [' '])

def Binder.text : Binder → List Char
  | name id => id.text
  | rest id => "...".toList ++ id.text
  | names ids => '\x7b' :: (Identifier.listed ids ++ ['\x7d'])

/-- A parameter. Within its type no function type stands inside of another. -/
inductive Parameter
  | bare (id : Identifier) (value : Option DefaultValue)
  | optional (id : Identifier) (type : PlainType) (shallow : type.functionDepth ≤ 1)
  | typed (binder : Binder) (type : PlainType) (shallow : type.functionDepth ≤ 1)
      (value : Option DefaultValue)

namespace Parameter

def text : Parameter → List Char
  | bare id value => id.text ++ defaultText value
  | optional id type _ => id.text ++ ("?: ".toList ++ type.text)
  | typed binder type _ value =>
      binder.text ++ (": ".toList ++ (type.text ++ defaultText value))

/-- A parameter without its type. -/
def erased : Parameter → List Char
  | bare id value => id.text ++ defaultText value
  | optional id _ _ => id.text
  | typed binder _ _ value => binder.text ++ defaultText value

end Parameter

/-- Only commas are signs among listed names. -/
theorem Identifier.eq_comma_of_mem_listed {ids : List Identifier} :
    ∀ c ∈ listed ids, c ∈ signs → c = ',' := by
  have joined : ∀ c ∈ Text.join ", ".toList (ids.map text), c ∈ signs → c = ',' := by
    refine Text.join_induction (P := fun text => ∀ c ∈ text, c ∈ signs → c = ',') (by simp)
      (fun clean clean' => List.forall_mem_append.2 ⟨clean, clean'⟩) (by simp; decide) ?_
    intro word mem c within sign
    obtain ⟨id, -, rfl⟩ := List.mem_map.1 mem
    exact absurd sign (id.not_mem_signs within)
  have space : ' ' ∉ signs := by decide
  intro c mem sign
  rcases List.mem_cons.1 mem with rfl | mem
  · exact absurd sign space
  · rcases List.mem_append.1 mem with mem | mem
    · exact joined c mem sign
    · rw [List.mem_singleton.1 mem] at sign
      exact absurd sign space

theorem Binder.encloses (binder : Binder) : Encloses (· == ',') 0 binder.text := by
  have named (id : Identifier) : Encloses (· == ',') 0 id.text :=
    .of_unsigned (by simp; decide) fun _ => id.not_mem_signs
  cases binder with
  | name id => exact named id
  | rest id => exact (Encloses.of_all (by decide) (by decide)).append (named id)
  | names ids =>
      have listed : Encloses (· == ',') 1 (Identifier.listed ids) := by
        refine .inner (fun c mem => Bool.eq_false_iff.2 fun bracket => ?_) (fun last => ?_)
        · obtain rfl := Identifier.eq_comma_of_mem_listed c mem (mem_signs_of_isBracket bracket)
          exact absurd bracket (by decide)
        · exact absurd (Identifier.eq_comma_of_mem_listed _ (List.mem_of_getLast? last)
            (by decide)) (by decide)
      exact listed.wrap (by decide) (by decide) (by decide) (by decide)

theorem Parameter.encloses (parameter : Parameter) : Encloses (· == ',') 0 parameter.text := by
  have named (id : Identifier) : Encloses (· == ',') 0 id.text := (Binder.name id).encloses
  have typed (type : PlainType) : Encloses (· == ',') 0 type.text := type.encloses_plain (by simp)
  have assigned (value : Option DefaultValue) : Encloses (· == ',') 0 (defaultText value) := by
    cases value with
    | none => exact .flat (by simp [defaultText]) (by simp [defaultText]) (by decide)
    | some value =>
        exact (Encloses.of_all (by decide) (by decide)).append
          (.of_unsigned (by simp; decide) value.unsigned)
  cases parameter with
  | bare id value => exact (named id).append (assigned value)
  | optional id type shallow =>
      exact (named id).append ((Encloses.of_all (by decide) (by decide)).append
        (typed type))
  | typed binder type shallow value =>
      exact binder.encloses.append ((Encloses.of_all (by decide) (by decide)).append
        ((typed type).append (assigned value)))

theorem Binder.nests (binder : Binder) : Nests 1 binder.text := by
  have named (id : Identifier) : Nests 1 id.text := .of_unsigned fun _ => id.not_mem_signs
  cases binder with
  | name id => exact named id
  | rest id => exact (named id).append_of_flat (List.all_eq_true.1 (by decide))
  | names ids =>
      have flat : ∀ c ∈ Identifier.listed ids, isFlat c = true := by
        intro c mem
        have comma := Identifier.eq_comma_of_mem_listed c mem
        simp only [isFlat, Bool.and_eq_true, bne_iff_ne]
        constructor
        · rintro rfl
          exact absurd (comma (by decide)) (by decide)
        · rintro rfl
          exact absurd (comma (by decide)) (by decide)
      exact .single rfl (.append_of_flat flat (.flat (List.all_eq_true.1 (by decide))))

theorem Parameter.nests (parameter : Parameter) : Nests 1 parameter.text := by
  have named (id : Identifier) : Nests 1 id.text := (Binder.name id).nests
  have assigned (value : Option DefaultValue) : Nests 1 (defaultText value) := by
    cases value with
    | none => exact .flat (by simp [defaultText])
    | some value =>
        exact .append_of_flat (List.all_eq_true.1 (by decide)) (.of_unsigned value.unsigned)
  cases parameter with
  | bare id value => exact (named id).append (assigned value)
  | optional id type shallow =>
      exact (named id).append (.append_of_flat (List.all_eq_true.1 (by decide))
        (type.nests.mono shallow))
  | typed binder type shallow value =>
      exact binder.nests.append (.append_of_flat (List.all_eq_true.1 (by decide))
        ((type.nests.mono shallow).append (assigned value)))

/-- The head of a function with a list of parameters. -/
def signature (name : Identifier) (parameters : List (List Char)) : List Char :=
  "function ".toList ++ name.text ++
    ('(' :: (Text.join ", ".toList parameters ++ [')']) ++ " \x7b".toList)

namespace Annotation

variable {here middle there : Cursor}

/-! ## One parameter -/

theorem defaultOf_typed (type : PlainType) (value : Option DefaultValue) :
    defaultOf (':' :: ' ' :: (type.text ++ defaultText value)) = defaultText value := by
  have encloses : Encloses (fun _ => false) 0 ([':', ' '] ++ type.text) :=
    (Encloses.of_all (by decide) (by decide)).append (type.encloses_plain (by simp))
  have arrowed : Arrowed ([':', ' '] ++ type.text) :=
    Arrowed.append (Followed.of_not_mem (by decide)) type.arrowed
  have scanned := fromAssignment?_append arrowed none 0 (defaultText value)
  rw [encloses.level] at scanned
  simp only [List.cons_append, List.nil_append] at scanned
  rw [defaultOf, scanned]
  cases value with
  | none => rfl
  | some value => simp [defaultText, fromAssignment?, after, opens, closes]

variable {lead dots mark : List Char}

theorem prefers_binder {id : Identifier} (reads : here.Reads (lead ++ (dots ++ id.text)) there)
    (areBlank : ∀ c ∈ lead, isBlank c = true) (dotted : dots = [] ∨ dots = "...".toList)
    (stop : begins isNameChar there.rest = false) :
    (spacing ++ (optional (lit "...") ++ name)).Prefers here there := by
  obtain ⟨place₁, reads₁, reads⟩ := reads.exists_middle
  obtain ⟨place₂, reads₂, reads₃⟩ := reads.exists_middle
  obtain ⟨c, others, eq, isStart, shown⟩ := id.exists_head
  have head : place₂.rest.head? = some c := by
    rw [reads₃.rest_eq, eq]
    rfl
  have unspaced : begins isBlank place₁.rest = false := by
    rw [reads₂.rest_eq]
    rcases dotted with rfl | rfl
    · rw [List.nil_append, reads₃.rest_eq, eq]
      exact shown
    · rfl
  have named : name.Prefers place₂ there := id.prefers (fun _ isStart => isStart) reads₃ stop
  have dots' : (optional (lit "...")).Prefers place₁ place₂ := by
    rcases dotted with rfl | rfl
    · obtain rfl := Cursor.Reads.nil_iff.1 reads₂
      refine Modules.prefers_optional_of_absent (Modules.not_mem_ends_lit rfl ?_)
      rw [head]
      rintro _ ⟨⟩ rfl
      exact absurd isStart (by decide)
    · exact .of_left (.lit reads₂)
  exact (Prefers.every reads₁ areBlank unspaced).append (dots'.append named)

theorem prefers_colon (reads : here.Reads (mark ++ ":".toList) there)
    (marked : mark = [] ∨ mark = "?".toList) :
    (spacing ++ (optional (lit "?") ++ (spacing ++ lit ":"))).Prefers here there := by
  obtain ⟨place, reads₁, reads₂⟩ := reads.exists_middle
  have unspaced : begins isBlank place.rest = false := by
    rw [reads₂.rest_eq]
    rfl
  have stay {place : Cursor} (unspaced : begins isBlank place.rest = false) :
      spacing.Prefers place place :=
    .every (.refl _) (by simp) unspaced
  rcases marked with rfl | rfl
  · obtain rfl := Cursor.Reads.nil_iff.1 reads₁
    refine (stay unspaced).append (Prefers.append ?_ ((stay unspaced).append (.lit reads₂)))
    refine Modules.prefers_optional_of_absent (Modules.not_mem_ends_lit rfl ?_)
    rw [reads₂.rest_eq]
    rintro _ ⟨⟩
    decide
  · have unspaced' : begins isBlank here.rest = false := by
      rw [reads₁.rest_eq]
      rfl
    exact (stay unspaced').append (.append (.of_left (.lit reads₁))
      ((stay unspaced).append (.lit reads₂)))

theorem eraseNamed_typed (areBlank : ∀ c ∈ lead, isBlank c = true)
    (dotted : dots = [] ∨ dots = "...".toList) (marked : mark = [] ∨ mark = "?".toList)
    (id : Identifier) (rest : List Char) :
    eraseNamed (lead ++ (dots ++ id.text) ++ (mark ++ ':' :: rest)) =
      lead ++ (dots ++ id.text) ++ defaultOf (':' :: rest) := by
  obtain ⟨place₁, reads₁, rest_eq₁⟩ := exists_reads_start (lead ++ (dots ++ id.text))
    (mark ++ ':' :: rest)
  have colon : place₁.rest = (mark ++ ":".toList) ++ rest := by
    rw [rest_eq₁, List.append_assoc]
    rfl
  obtain ⟨place₂, reads₂, rest_eq₂⟩ := exists_reads _ colon
  have stop : begins isNameChar place₁.rest = false := by
    have others : isNameChar ':' = false ∧ isNameChar '?' = false := by decide
    rw [rest_eq₁]
    rcases marked with rfl | rfl
    · exact others.1
    · exact others.2
  have named := prefers_binder reads₁ areBlank dotted stop
  obtain ⟨found, found_at, group, stop_eq⟩ := exists_at?_of_head?
    (named.head?_capture (prefers_colon reads₂ marked)) reads₁
  have opening : typedParameter.opening?
      (lead ++ (dots ++ id.text) ++ (mark ++ ':' :: rest)) = some found := found_at
  rw [eraseNamed, opening]
  simp only [group, stop_eq, rest_eq₂]

theorem eraseParameterType_typed (areBlank : ∀ c ∈ lead, isBlank c = true)
    (dotted : dots = [] ∨ dots = "...".toList) (marked : mark = [] ∨ mark = "?".toList)
    (id : Identifier) (rest : List Char) :
    eraseParameterType (lead ++ (dots ++ id.text) ++ (mark ++ ':' :: rest)) =
      lead ++ (dots ++ id.text) ++ defaultOf (':' :: rest) := by
  obtain ⟨c, others, eq, isStart, shown⟩ := id.exists_head
  obtain ⟨d, tail, bare, plain⟩ : ∃ d tail, dots ++ id.text = d :: tail ∧ isBlank d = false ∧
      d ≠ '\x7b' ∧ d ≠ '[' := by
    rcases dotted with rfl | rfl
    · refine ⟨c, others, eq, shown, ?_, ?_⟩
      · rintro rfl
        exact absurd isStart (by decide)
      · rintro rfl
        exact absurd isStart (by decide)
    · exact ⟨'.', _, rfl, by decide⟩
  have shown' : begins isBlank (d :: tail ++ (mark ++ ':' :: rest)) = false := plain.1
  rw [← eraseNamed_typed areBlank dotted marked id rest, eraseParameterType, bare,
    List.append_assoc, Component.Form.drop_blanks areBlank shown']
  simp [plain]

theorem splitBlock_clean {opener closer : Char} {text : List Char} (apart : closer ≠ opener)
    (clean : ∀ c ∈ text, c ≠ opener ∧ c ≠ closer) (inside rest : List Char) :
    splitBlock opener closer inside 1 (text ++ closer :: rest) =
      (inside.reverse ++ (text ++ [closer]), rest) := by
  induction text generalizing inside with
  | nil => simp [splitBlock, apart]
  | cons c text ih =>
      obtain ⟨other, clean⟩ := List.forall_mem_cons.1 clean
      rw [List.cons_append, splitBlock, if_neg (by simpa using other.1),
        if_neg (by simpa using other.2), ih clean]
      simp

theorem eraseParameterType_names (areBlank : ∀ c ∈ lead, isBlank c = true)
    (ids : List Identifier) (rest : List Char) :
    eraseParameterType (lead ++ ((Binder.names ids).text ++ ':' :: rest)) =
      lead ++ ((Binder.names ids).text ++ defaultOf (':' :: rest)) := by
  have clean : ∀ c ∈ Identifier.listed ids, c ≠ '\x7b' ∧ c ≠ '\x7d' := by
    intro c mem
    have comma := Identifier.eq_comma_of_mem_listed c mem
    constructor
    · rintro rfl
      exact absurd (comma (by decide)) (by decide)
    · rintro rfl
      exact absurd (comma (by decide)) (by decide)
  have text_eq : (Binder.names ids).text ++ ':' :: rest =
      '\x7b' :: (Identifier.listed ids ++ '\x7d' :: ':' :: rest) := by
    simp [Binder.text]
  have block := splitBlock_clean (by decide) clean [] (':' :: rest)
  have colon : Text.trimStart isBlank (':' :: rest) = ':' :: rest :=
    List.dropWhile_cons_of_neg (by decide)
  have indent : (lead ++ '\x7b' :: (Identifier.listed ids ++ '\x7d' :: ':' :: rest)).takeWhile
      isBlank = lead := by
    rw [List.takeWhile_append_of_pos areBlank, List.takeWhile_cons_of_neg (by decide),
      List.append_nil]
  rw [text_eq, eraseParameterType, Component.Form.drop_blanks areBlank rfl]
  simp [block, colon, indent, Binder.text]

theorem eraseParameterType_text (areBlank : ∀ c ∈ lead, isBlank c = true) (parameter : Parameter) :
    eraseParameterType (lead ++ parameter.text) = lead ++ parameter.erased := by
  cases parameter with
  | bare id value =>
      have named : ':' ∉ id.text := fun mem => id.not_mem_signs mem (by decide)
      have blank : ':' ∉ lead := fun mem => absurd (areBlank _ mem) (by decide)
      have assigned : ':' ∉ defaultText value := by
        cases value with
        | none => simp [defaultText]
        | some value => simpa [defaultText] using fun mem => value.unsigned _ mem (by decide)
      exact eraseParameterType_of_untyped (by simp [Parameter.text, named, blank, assigned])
  | optional id type shallow =>
      have erases := eraseParameterType_typed areBlank (.inl rfl) (.inr rfl) id (' ' :: type.text)
      have default := defaultOf_typed type none
      rw [defaultText, Option.elim, List.append_nil] at default
      rw [default] at erases
      simpa [Parameter.text, Parameter.erased] using erases
  | typed binder type shallow value =>
      have default := defaultOf_typed type value
      cases binder with
      | name id =>
          have erases := eraseParameterType_typed areBlank (.inl rfl) (.inl rfl) id
            (' ' :: (type.text ++ defaultText value))
          rw [default] at erases
          simpa [Parameter.text, Parameter.erased, Binder.text] using erases
      | rest id =>
          have erases := eraseParameterType_typed areBlank (.inr rfl) (.inl rfl) id
            (' ' :: (type.text ++ defaultText value))
          rw [default] at erases
          simpa [Parameter.text, Parameter.erased, Binder.text] using erases
      | names ids =>
          have erases := eraseParameterType_names areBlank ids
            (' ' :: (type.text ++ defaultText value))
          rw [default] at erases
          simpa [Parameter.text, Parameter.erased] using erases

/-! ## The list -/

theorem list_parts : parameterList = lit "(" ++ (capture (every isFlat ++ repeated (lit "(" ++
    (every isFlat ++ (lit ")" ++ every isFlat)))) ++ (lit ")" ++
      ahead (spacing ++ either (lit "=>") (lit "\x7b")))) :=
  rfl

theorem exists_repeats {text : List Char} (h : Nests 1 text) (reads : here.Reads text there)
    (stop : begins isFlat there.rest = false) :
    ∃ middle, (every isFlat).Prefers here middle ∧ Relation.ReflTransGen
      (lit "(" ++ (every isFlat ++ (lit ")" ++ every isFlat))).Repeats middle there := by
  -- One round of the repetition for each group, with the flat text behind it.
  generalize one : 1 = n at h
  induction h generalizing here with
  | flat flat => exact ⟨there, .every reads flat stop, .refl⟩
  | @group n front inner rest flat within others _ ih =>
      obtain rfl : n = 0 := by omega
      obtain ⟨place₁, reads₁, reads⟩ := reads.exists_middle
      rw [← List.singleton_append, ← List.singleton_append (l := rest)] at reads
      obtain ⟨place₂, reads₂, reads⟩ := reads.exists_middle
      obtain ⟨place₃, reads₃, reads⟩ := reads.exists_middle
      obtain ⟨place₄, reads₄, reads⟩ := reads.exists_middle
      obtain ⟨place₅, prefers, run⟩ := ih reads rfl
      have opened : begins isFlat place₁.rest = false := by
        rw [reads₂.rest_eq]
        rfl
      have closed : begins isFlat place₃.rest = false := by
        rw [reads₄.rest_eq]
        rfl
      have inner : ∀ c ∈ inner, isFlat c = true := by
        cases within with
        | flat flat => exact flat
      have shorter : place₅.rest.length < place₁.rest.length := by
        obtain ⟨word, reads₅⟩ := reads_of_mem_ends (List.mem_of_head? prefers)
        have rest_eq : place₄.rest = word ++ place₅.rest := reads₅.rest_eq
        rw [reads₂.rest_eq, reads₃.rest_eq, reads₄.rest_eq, rest_eq]
        simp only [List.length_append, List.length_singleton]
        omega
      exact ⟨place₁, .every reads₁ flat opened, .head ⟨(Prefers.lit reads₂).append
        ((Prefers.every reads₃ inner closed).append ((Prefers.lit reads₄).append prefers)), shorter⟩
          run⟩

theorem exists_at?_list {text : List Char} (h : Nests 1 text)
    (reads : here.Reads ('(' :: (text ++ [')'])) there) (opened : there.rest = " \x7b".toList) :
    ∃ found, parameterList.at? here = some found ∧ found.group 0 = text ∧ found.stop = there := by
  rw [← List.singleton_append] at reads
  obtain ⟨place₁, reads₁, reads⟩ := reads.exists_middle
  obtain ⟨place₂, reads₂, reads₃⟩ := reads.exists_middle
  have stop : begins isFlat place₂.rest = false := by
    rw [reads₃.rest_eq]
    rfl
  obtain ⟨place, prefers, run⟩ := exists_repeats h reads₂ stop
  have ended : (lit "(" ++ (every isFlat ++ (lit ")" ++ every isFlat))).ends ⟨place₂, []⟩ = [] := by
    rw [List.eq_nil_iff_forall_not_mem]
    intro last ends
    obtain ⟨_, ends, -⟩ := mem_ends_append.1 ends
    refine Modules.not_mem_ends_lit rfl ?_ _ ends
    rw [reads₃.rest_eq]
    rintro _ ⟨⟩
    decide
  have followed : (ahead (spacing ++ either (lit "=>") (lit "\x7b"))).Prefers there there := by
    obtain ⟨place₃, blank, rest_eq⟩ := exists_reads " ".toList opened
    obtain ⟨place₄, brace, -⟩ := exists_reads_rest rest_eq
    refine .ahead ⟨⟨place₄, []⟩, mem_ends_append.2 ⟨⟨place₃, []⟩, mem_ends_every.2
      ⟨" ".toList, place₃, blank, List.all_eq_true.1 (by decide), ?_, rfl⟩, mem_ends_either.2
        (.inr (mem_ends_lit.2 ⟨place₄, brace, rfl⟩))⟩⟩
    rw [rest_eq]
    rfl
  rw [list_parts]
  exact exists_at?_of_head? ((Prefers.lit reads₁).head?_append (Prefers.head?_capture
    (prefers.append (.repeated run ended)) ((Prefers.lit reads₃).append followed))) reads₂

theorem join_spaced (text : List Char) (texts : List (List Char)) :
    Text.join [','] (text :: texts.map (' ' :: ·)) = Text.join ", ".toList (text :: texts) := by
  induction texts generalizing text with
  | nil => rfl
  | cons other texts ih =>
      have moved : Text.join ", ".toList ((' ' :: other) :: texts) =
          ' ' :: Text.join ", ".toList (other :: texts) := by
        cases texts <;> rfl
      rw [List.map_cons, Text.join, ih, moved]
      · simp [Text.join]
      · simp

theorem eraseTypesOf_join (parameters : List Parameter) :
    eraseTypesOf (Text.join ", ".toList (parameters.map Parameter.text)) =
      Text.join ", ".toList (parameters.map Parameter.erased) := by
  cases parameters with
  | nil => rfl
  | cons parameter parameters =>
      have encloses : ∀ text ∈ parameter.text :: parameters.map Parameter.text,
          Encloses (· == ',') 0 text := by
        rw [← List.map_cons]
        intro text mem
        obtain ⟨parameter, -, rfl⟩ := List.mem_map.1 mem
        exact parameter.encloses
      have first : eraseParameterType parameter.text = parameter.erased :=
        eraseParameterType_text (List.forall_mem_nil _) parameter
      have others : ((parameters.map Parameter.text).map (' ' :: ·)).map eraseParameterType =
          (parameters.map Parameter.erased).map (' ' :: ·) := by
        simp only [List.map_map]
        refine List.map_congr_left fun parameter _ => ?_
        have space : ∀ c ∈ [' '], isBlank c = true := List.all_eq_true.1 (by decide)
        exact eraseParameterType_text space parameter
      rw [eraseTypesOf, cutAtCommas, List.map_cons, cutFrom_join encloses, List.reverse_nil,
        List.nil_append, List.reverse_nil, List.nil_append, List.map_cons, first, others,
        join_spaced, ← List.map_cons]

theorem parameterList_heads (here : Cursor) (found : Match) :
    parameterList.at? here = some found → here.rest.head? = some '(' :=
  list_parts ▸ head?_of_lit rfl here found

/-- A list with one level of parentheses is found as a whole. -/
theorem eraseParameterTypes_list {front text : List Char} (unopened : '(' ∉ front)
    (h : Nests 1 text) :
    eraseParameterTypes (front ++ ('(' :: (text ++ [')']) ++ " \x7b".toList)) =
      front ++ ('(' :: (eraseTypesOf text ++ [')']) ++ " \x7b".toList) := by
  obtain ⟨place₁, reads₁, rest_eq₁⟩ := exists_reads_start front
    ('(' :: (text ++ [')']) ++ " \x7b".toList)
  obtain ⟨place₂, reads₂, rest_eq₂⟩ := exists_reads _ rest_eq₁
  obtain ⟨place₃, reads₃, rest_eq₃⟩ := exists_reads_rest rest_eq₂
  obtain ⟨found, found_at, group, rfl⟩ := exists_at?_list h reads₂ rest_eq₂
  have some : found.text ≠ [] := by
    rw [(reads_of_at? found_at).word_unique reads₂]
    simp
  have list : parameterList.Rewrites (fun list => '(' :: eraseTypesOf (list.group 0) ++ [')'])
      place₁ ('(' :: eraseTypesOf text ++ [')']) found.stop := by
    rw [← group]
    exact .of_at? found_at some
  have rewrites := (Rewrites.of_absent parameterList_heads reads₁ unopened).append
    (list.append (.of_absent parameterList_heads reads₃ (by decide)))
  exact rewrites.replace_eq rest_eq₃

/-- The types of the parameters are erased, and everything else of the list stays. -/
theorem parameterTypes_erased (name : Identifier) (parameters : List Parameter) :
    eraseParameterTypes (signature name (parameters.map Parameter.text)) =
      signature name (parameters.map Parameter.erased) := by
  have nests : Nests 1 (Text.join ", ".toList (parameters.map Parameter.text)) := by
    have separated : Nests 1 ", ".toList := .flat (List.all_eq_true.1 (by decide))
    refine Text.join_induction (.flat (by simp)) (fun h h' => h.append h') separated ?_
    intro text mem
    obtain ⟨parameter, -, rfl⟩ := List.mem_map.1 mem
    exact parameter.nests
  have unopened : '(' ∉ "function ".toList ++ name.text := by
    rw [List.mem_append, not_or]
    exact ⟨by decide, fun mem => name.not_mem_signs mem (by decide)⟩
  unfold signature
  rw [eraseParameterTypes_list unopened nests, eraseTypesOf_join]

example : eraseParameterTypes "function f(a: Map<K, V[]> = d, cb?: (e: E) => void) \x7b".toList =
    "function f(a = d, cb) \x7b".toList := by
  decide +kernel

end Annotation

end ComponentPreview
