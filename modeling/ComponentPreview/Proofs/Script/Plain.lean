import ComponentPreview.Proofs.Script.Assembly
import ComponentPreview.Proofs.Text.Absence

/-!
# Plain script

A text with no colon and none of the words that begin a declaration of a type or a module statement
is plain: the rules leave it alone however its brackets nest. A parameter list is taken apart and
joined to the same list again, and of all other patterns only the type argument of a hook can occur.
A name may hold a dollar sign, at which the pattern of a hook sees the start of a word, so that a
name of which a hook is only the end counts as a hook too (`plain_text_unchanged_iff`).
-/

namespace ComponentPreview

open Edit Pattern Annotation

/-! ## Parameters without types -/

namespace Annotation

variable {parameter parameters text : List Char}

theorem eraseNamed_of_untyped (untyped : ':' ∉ parameter) : eraseNamed parameter = parameter := by
  have none : typedParameter.opening? parameter = none := by
    rw [Option.eq_none_iff_forall_ne_some]
    intro found found_at
    obtain ⟨mark, -, parts⟩ := typedParameter_parts found_at
    exact untyped (parts ▸ by simp)
  rw [eraseNamed, none]

theorem eraseParameterType_of_untyped (untyped : ':' ∉ parameter) :
    eraseParameterType parameter = parameter := by
  unfold eraseParameterType
  cases rest : parameter.dropWhile isBlank with
  | nil => exact eraseNamed_of_untyped untyped
  | cons opener inner =>
      dsimp only
      split
      · have parts := Brackets.splitBlock_append opener (if opener == '[' then ']' else '\x7d') []
          1 inner
        have inside : ':' ∉ inner := fun mem =>
          untyped ((List.dropWhile_suffix _).subset (rest ▸ List.mem_cons_of_mem _ mem))
        rw [if_neg]
        intro colon
        have mem := List.mem_of_head? (eq_of_beq colon)
        refine inside ?_
        rw [← List.nil_append inner, ← List.reverse_nil, ← parts]
        exact List.mem_append_right _ ((List.dropWhile_suffix _).subset mem)
      · exact eraseNamed_of_untyped untyped

/-- A parameter list without types is the same list again, however its brackets nest. -/
theorem eraseTypesOf_of_untyped (untyped : ':' ∉ parameters) :
    eraseTypesOf parameters = parameters := by
  have same : (Brackets.cutAtCommas parameters).map eraseParameterType =
      (Brackets.cutAtCommas parameters).map id := by
    refine List.map_congr_left fun part mem => eraseParameterType_of_untyped fun colon => untyped ?_
    have inside := Text.infix_join [','] mem
    rw [Brackets.join_cutAtCommas] at inside
    exact inside.subset colon
  rw [eraseTypesOf, same, List.map_id, Brackets.join_cutAtCommas]

theorem eraseParameterTypes_of_untyped (untyped : ':' ∉ text) :
    eraseParameterTypes text = text := by
  refine replace_eq_self fun found mem => ?_
  obtain ⟨lead, here, reads, found_at⟩ := at?_of_mem_findAll mem
  have parts : '(' :: found.group 0 ++ [')'] = found.text := by
    rw [← Pass.covers_dropParameterTypes here found found_at]
    simp [Pass.dropParameterTypes, before_listChanges]
  have whole : text = lead ++ found.text ++ found.stop.rest :=
    (reads.trans (reads_of_at? found_at)).rest_eq
  have inside : ':' ∉ found.group 0 := fun colon => untyped (by
    rw [whole, ← parts]
    simp [colon])
  rw [eraseTypesOf_of_untyped inside, parts]

end Annotation

/-! ## Names of hooks -/

/-- A name that begins like the name of a hook. -/
def IsHookName (name : List Char) : Prop :=
  ∃ initial tail, name = "use".toList ++ initial :: tail ∧ initial.isUpper = true ∧
    ∀ c ∈ tail, isNameChar c = true

/-- A text ends, blanks aside, with a whole name that begins like the name of a hook. -/
def EndsWithHook (text : List Char) : Prop :=
  ∃ lead name blanks, text = lead ++ (name ++ blanks) ∧
    (∀ c ∈ lead.getLast?, isNameChar c = false) ∧ IsHookName name ∧
    ∀ c ∈ blanks, isBlank c = true

namespace Pass

variable {here : Cursor} {found : Match} {text word : List Char}

theorem hook_parts : hookGeneric = wordEdge ++ (capture (lit "use" ++ (one Char.isUpper ++
    every isNameChar)) ++ (spacing ++ (lit "<" ++ (every isGenericChar ++
      (optional (lit "<" ++ (every isGenericChar ++ lit ">")) ++
        (every isGenericChar ++ (lit ">" ++ (spacing ++ lit "(")))))))) :=
  rfl

/-- The type argument of a hook follows its name, which begins at the edge of a word. -/
theorem start_of_hook (h : hookGeneric.at? here = some found) :
    (∀ c ∈ here.before, isWord c = false) ∧ ∃ name blanks rest,
      here.rest = name ++ (blanks ++ '<' :: rest) ∧ IsHookName name ∧
      ∀ c ∈ blanks, isBlank c = true := by
  rw [hook_parts] at h
  obtain ⟨first, inner, last, edge, named, -, ends, -⟩ := reads_group rfl rfl h
  obtain ⟨apart, rfl⟩ := mem_ends_wordEdge.1 edge
  obtain ⟨lead, leads, named⟩ := mem_ends_append.1 named
  obtain ⟨capital, capitals, tails⟩ := mem_ends_append.1 named
  obtain ⟨there, reads, rfl⟩ := mem_ends_lit.1 leads
  obtain ⟨initial, there', isUpper, reads', rfl⟩ := mem_ends_one.1 capitals
  obtain ⟨tail, there'', reads'', names, -, rfl⟩ := mem_ends_every.1 tails
  obtain ⟨spaced, spaces, ends⟩ := mem_ends_append.1 ends
  obtain ⟨blanks, stop, reads₃, areBlank, -, rfl⟩ := mem_ends_every.1 spaces
  obtain ⟨opened, opens, -⟩ := mem_ends_append.1 ends
  have rest_eq := ((reads.trans (reads'.trans reads'')).trans
    (reads₃.trans (reads_of_lit opens))).rest_eq
  have rest_eq' : here.rest =
      "use".toList ++ initial :: tail ++ (blanks ++ '<' :: opened.here.rest) := by
    simpa using rest_eq
  refine ⟨?_, _, blanks, opened.here.rest, rest_eq', ⟨initial, tail, rfl, isUpper, names⟩,
    areBlank⟩
  have precedes : here.precedes isWord = true := by
    rw [Cursor.precedes, rest_eq']
    rfl
  rw [precedes] at apart
  exact follows_eq_false.1 (Bool.eq_false_iff.2 apart)

/-- Taking away the type arguments of hooks puts no word together. -/
theorem infix_of_hooks (closed : '(' ∉ word)
    (h : word <:+: hookGeneric.replace (fun found => found.group 0 ++ ['(']) text) :
    word <:+: text := by
  obtain ⟨left, right, eq⟩ := h
  rw [← after_edit after_dropGeneric, List.append_assoc] at eq
  rcases carries_or_crosses eq.symm with ⟨first, last, parts, -, -⟩ |
    ⟨first, old, new, last, parts, low, high⟩
  · refine ⟨before first, before last, ?_⟩
    rw [← before_edit covers_dropGeneric text, parts]
    simp
  · obtain ⟨rfl, -, opens⟩ := seam_of_hooks parts
    rw [parts, after_append, after_cons, Change.after] at eq
    rcases crossing_cases eq.symm low high with ⟨word₁, word₂, some, -, -, rfl, rest⟩ |
      ⟨new₁, new₂, -, some, none, -⟩
    · obtain ⟨c, word₂, rfl⟩ := List.exists_cons_of_ne_nil some
      rw [List.nil_append] at rest
      rw [rest] at opens
      cases opens
      exact absurd (List.mem_append_right _ List.mem_cons_self) closed
    · exact absurd (List.append_eq_nil_iff.1 none.symm).2 some

theorem shorter_of_hook (h : hookGeneric.at? here = some found) :
    (found.group 0 ++ ['(']).length < found.text.length := by
  have whole := covers_dropGeneric here found h
  simp only [dropGeneric, before_append, before_keepAll, before_cons, before_nil, Change.before,
    List.append_nil] at whole
  have argument : '<' ∈ found.text :=
    (infix_of_at? ['<'] rfl h).subset (List.mem_singleton_self _)
  have named : '<' ∉ found.group 0 := fun mem =>
    absurd ((group_of_hook h).2 '<' mem) (by decide)
  rw [← whole] at argument ⊢
  cases taken : (found.text.drop (found.group 0).length).dropLast with
  | nil => simp [taken, named] at argument
  | cons c taken => simp

end Pass

/-! ## Plain texts -/

/-- A text without colons, words of declarations and type arguments of hooks. -/
structure IsPlain (text : List Char) : Prop where
  colon : ':' ∉ text
  words : ∀ word ∈ ["interface", "type", "import", "export"], Text.mentions text word = false
  arguments : ∀ left right, text = left ++ '<' :: right → ¬EndsWithHook left

namespace Script

variable {text : List Char}

theorem erase_of_absent (noInterface : ¬"interface".toList <:+: text)
    (noType : ¬"type".toList <:+: text) : Declaration.erase text = text := by
  have once (step : List Char → Option (List Char)) (none : step text = none) (bound : Nat) :
      Declaration.exhaust step bound text = text := by
    cases bound with
    | zero => rfl
    | succ bound => rw [Declaration.exhaust, none]
  have interfaces : Declaration.eraseInterface? text = none := by
    rw [Declaration.eraseInterface?, first?_of_spells "interface".toList rfl noInterface]
    rfl
  have aliases : Declaration.eraseAlias? text = none := by
    rw [Declaration.eraseAlias?, first?_of_spells "type".toList rfl noType]
    rfl
  rw [Declaration.erase, once _ interfaces]
  exact once _ aliases _

/-- Without colons and the words of declarations only the type arguments of hooks are erased. -/
theorem textOf_eq_replace_hooks (assignment : Template) (colon : ':' ∉ text)
    (words : ∀ word ∈ ["interface", "type", "import", "export"], Text.mentions text word = false) :
    textOf assignment text = hookGeneric.replace (fun found => found.group 0 ++ ['(']) text := by
  have absent (word : String) (mem : word ∈ ["interface", "type", "import", "export"]) :
      ¬word.toList <:+: text :=
    Text.not_infix_of_mentions (words word mem)
  have untyped : ¬[':'] <:+: text := fun inside =>
    colon (inside.subset (List.mem_singleton_self _))
  have declarations : Declaration.erase text = text :=
    erase_of_absent (absent "interface" (by simp)) (absent "type" (by simp))
  have returns : eraseReturnTypes text = text :=
    replace_of_absent (occursIn_of_spells [':'] rfl untyped) _
  have arrows : eraseArrowReturnTypes text = text :=
    replace_of_absent (occursIn_of_spells [':'] rfl untyped) _
  have named : namedBinding.replace (·.group 0) text = text :=
    replace_of_absent (occursIn_of_spells [':'] rfl untyped) _
  have destructured : destructuredBinding.replace (·.group 0) text = text :=
    replace_of_absent (occursIn_of_spells [':'] rfl untyped) _
  have bindings : eraseBindingTypes text =
      hookGeneric.replace (fun found => found.group 0 ++ ['(']) text := by
    rw [eraseBindingTypes, named, destructured]
  generalize script_eq : hookGeneric.replace (fun found => found.group 0 ++ ['(']) text = script
    at bindings
  have noImport : ¬"import".toList <:+: script := fun inside =>
    absent "import" (by simp) (Pass.infix_of_hooks (by decide) (script_eq ▸ inside))
  have noExport : ¬"export".toList <:+: script := fun inside =>
    absent "export" (by simp) (Pass.infix_of_hooks (by decide) (script_eq ▸ inside))
  have imports : Modules.eraseImports script = script := by
    rw [Modules.eraseImports, erase, erase,
      replace_of_absent (occursIn_of_spells "import".toList rfl noImport),
      replace_of_absent (occursIn_of_spells "import".toList rfl noImport)]
  have assigned : Modules.assignDefaultExport assignment script = script :=
    replace_of_absent (occursIn_of_spells "export".toList rfl noExport) _
  have exports : Modules.eraseExports script = script := by
    rw [Modules.eraseExports, erase, erase,
      replace_of_absent (occursIn_of_spells "export".toList rfl noExport),
      replace_of_absent (occursIn_of_spells "export".toList rfl noExport)]
  simp only [textOf, Rule.all, List.foldl_cons, List.foldl_nil, Rule.apply, declarations, returns,
    arrows, eraseParameterTypes_of_untyped colon, bindings, imports, assigned, exports]

theorem textOf_eq_self_iff (assignment : Template) (colon : ':' ∉ text)
    (words : ∀ word ∈ ["interface", "type", "import", "export"], Text.mentions text word = false) :
    textOf assignment text = text ↔ hookGeneric.occursIn text = false := by
  rw [textOf_eq_replace_hooks assignment colon words,
    replace_eq_self_iff fun _ _ => Pass.shorter_of_hook]

/-- In a plain text the pattern of a hook sees only names of which the part after a dollar sign
begins like a hook. -/
theorem before_hook_of_isPlain (plain : IsPlain text) {lead : List Char} {here : Cursor}
    (reads : (Cursor.start text).Reads lead here) {found : Match}
    (found_at : hookGeneric.at? here = some found) : lead.getLast? = some '$' := by
  obtain ⟨edge, name, blanks, rest, rest_eq, isHook, areBlank⟩ := Pass.start_of_hook found_at
  have whole : text = (lead ++ (name ++ blanks)) ++ '<' :: rest := by
    have split : text = lead ++ here.rest := reads.rest_eq
    rw [split, rest_eq]
    simp
  have before : here.before = lead.getLast? := reads.before_eq.trans Option.or_none
  rw [before] at edge
  cases ended : lead.getLast? with
  | none =>
      refine absurd ⟨lead, name, blanks, rfl, fun c mem => ?_, isHook, areBlank⟩
        (plain.arguments _ rest whole)
      rw [ended] at mem
      cases mem
  | some c =>
      by_cases isName : isNameChar c = true
      · have notWord := edge c ended
        simp only [isNameChar, notWord, Bool.false_or, beq_iff_eq] at isName
        rw [isName]
      · refine absurd ⟨lead, name, blanks, rfl, fun d mem => ?_, isHook, areBlank⟩
          (plain.arguments _ rest whole)
        rw [ended, Option.mem_some_iff] at mem
        exact mem ▸ Bool.eq_false_iff.2 isName

/-- A plain text is its own script just if no dollar sign stands before what reads as a hook with a
type argument. -/
theorem plain_text_unchanged_iff (assignment : Template) (plain : IsPlain text) :
    (ofText assignment text).text = text ↔
      ∀ left right, text = left ++ '$' :: right →
        hookGeneric.at? (.past '$' left.length right) = none := by
  rw [text_ofText, textOf_eq_self_iff assignment plain.colon plain.words, Bool.eq_false_iff, Ne,
    occursIn_iff]
  constructor
  · rintro none left right rfl
    rw [Option.eq_none_iff_forall_ne_some]
    intro found found_at
    obtain ⟨last, ends, -⟩ := exists_end_of_at? found_at
    refine none ⟨left ++ ['$'], _, last, ⟨?_, ?_, ?_⟩, ends⟩
    · simp [Cursor.start, Cursor.past]
    · simp [Cursor.start, Cursor.past]
    · simp [Cursor.past]
  · rintro none ⟨lead, here, last, reads, ends⟩
    obtain ⟨found, found_at⟩ := Option.isSome_iff_exists.1 (isSome_at?.2 ⟨last, ends⟩)
    obtain ⟨left, rfl⟩ := List.getLast?_eq_some_iff.1 (before_hook_of_isPlain plain reads found_at)
    have whole : text = left ++ '$' :: here.rest := by
      have split : text = left ++ ['$'] ++ here.rest := reads.rest_eq
      rw [split, List.append_assoc, List.singleton_append]
    have same : here = .past '$' left.length here.rest := by
      obtain ⟨before, offset, rest⟩ := here
      obtain ⟨-, offset_eq, before_eq⟩ := reads
      simp only [Cursor.start, List.length_append, List.length_singleton, Nat.zero_add,
        List.getLast?_append, List.getLast?_singleton, Option.or_none] at offset_eq before_eq
      rw [offset_eq, before_eq]
      rfl
    rw [same, none left here.rest whole] at found_at
    cases found_at

/-- What stands before a character that a text holds at one place only. -/
theorem eq_take_of_single {left right : List Char} {c : Char} (place : Nat)
    (eq : text = left ++ c :: right)
    (single : ∀ i < text.length, text[i]? = some c → i = place) : left = text.take place := by
  subst eq
  obtain rfl : left.length = place := single _ (by simp) (by simp)
  rw [List.take_left]

/-- Brackets that do not fit each other, in a list before an arrow and after it. -/
def unevenBrackets : List Char :=
  "(a, [b < c, \x7bd\x7d) => useMemo(e, (f]".toList

theorem uneven_brackets_unchanged :
    IsPlain unevenBrackets ∧ (ofText entryAssignment unevenBrackets).text = unevenBrackets := by
  have plain : IsPlain unevenBrackets := by
    refine ⟨by decide, by decide, ?_⟩
    rintro left right eq ⟨lead, name, blanks, rfl, -, ⟨initial, tail, rfl, -⟩, -⟩
    have before := eq_take_of_single 7 eq (by decide)
    have absent : 'u' ∉ unevenBrackets.take 7 := by decide
    exact absent (before ▸ by simp)
  have dollar : '$' ∉ unevenBrackets := by decide
  exact ⟨plain, (plain_text_unchanged_iff entryAssignment plain).2 fun left right eq =>
    absurd (eq ▸ by simp) dollar⟩

/-- A call with a type argument of a function whose name only ends like a hook. -/
def dollarCall : List Char :=
  "$useState<T>(0)".toList

theorem dollar_call_loses_argument :
    IsPlain dollarCall ∧ (ofText entryAssignment dollarCall).text = "$useState(0)".toList := by
  refine ⟨⟨by decide, by decide, ?_⟩, by decide +kernel⟩
  rintro left right eq ⟨lead, name, blanks, rfl, other, ⟨initial, tail, rfl, -⟩, -⟩
  have before := eq_take_of_single 9 eq (by decide)
  have spelled : "use".toList ++ initial :: tail ++ blanks =
      'u' :: (['s', 'e'] ++ initial :: tail ++ blanks) := by simp
  rw [spelled] at before
  obtain rfl := eq_take_of_single 1 before.symm (by decide)
  exact absurd (other '$' rfl) (by decide)

end Script

end ComponentPreview
