import ComponentPreview.Proofs.Script.Parameter
import ComponentPreview.Script.Basic

/-!
# Steps of a transform

The rules of a transform are a sequence of passes over the text. A pass makes one step or, where it
erases one declaration at a time, as many as there are declarations; each step is an edit, and the
script is what the last one leaves.
-/

namespace ComponentPreview

open Edit Pattern Annotation

/-- The passes over a text, in the order in which they are made. -/
inductive Pass
  | interfaces
  | aliases
  | returnTypes
  | arrowReturnTypes
  | parameterTypes
  | namedBindings
  | destructuredBindings
  | hookGenerics
  | importsFrom
  | bareImports
  | defaultExport
  | exportLists
  | exportKeywords
  deriving DecidableEq, Repr

def Rule.passes : Rule → List Pass
  | typeDeclarations => [.interfaces, .aliases]
  | returnTypes => [.returnTypes]
  | arrowReturnTypes => [.arrowReturnTypes]
  | parameterTypes => [.parameterTypes]
  | bindingTypes => [.namedBindings, .destructuredBindings, .hookGenerics]
  | imports => [.importsFrom, .bareImports]
  | defaultExport => [.defaultExport]
  | exports => [.exportLists, .exportKeywords]

namespace Pass

def all : List Pass :=
  Rule.all.flatMap Rule.passes

/-! ## The changes of each pass -/

/-- Keeps what stands before a place and `rest`, which is left after the cut. -/
def cutOut (text : List Char) (place : Nat) (rest : List Char) : List Change :=
  keepAll (text.take place) ++
    .put ((text.drop place).take (text.length - place - rest.length)) [] :: keepAll rest

def interfaceEdit? (text : List Char) : Option (List Change) :=
  (Declaration.interfaceHead.first? text).map fun head =>
    cutOut text head.whole.first.offset
      ((Brackets.splitBlock '\x7b' '\x7d' [] 1 head.stop.rest).2.dropWhile
        fun c => Declaration.isIndent c || c == ';')

def aliasEdit? (text : List Char) : Option (List Change) :=
  (Declaration.aliasHead.first? text).map fun head =>
    cutOut text head.whole.first.offset (Declaration.afterAlias '=' 0 false head.stop.rest)

def dropMatch (found : Match) : List Change :=
  [.put found.text []]

def dropReturnType (found : Match) : List Change :=
  [.keep ')', .put (found.text.drop 1) []]

def dropArrowReturnType (found : Match) : List Change :=
  [.keep ')', .put (found.text.drop 1).dropLast.dropLast [' '], .keep '=', .keep '>']

def dropParameterTypes (found : Match) : List Change :=
  keepAll ['('] ++ (listChanges (found.group 0) ++ keepAll [')'])

/-- Keeps of a declarator only the name. -/
def dropBindingType (found : Match) : List Change :=
  keepAll (found.group 0) ++ [.put (found.text.drop (found.group 0).length) []]

def dropGeneric (found : Match) : List Change :=
  keepAll (found.group 0) ++
    [.put (found.text.drop (found.group 0).length).dropLast [], .keep '(']

def assign (assignment : Template) (found : Match) : List Change :=
  [.put found.text (assignment.fill found.text)]

/-- The edit of one step of a pass, if the pass has one more to make. -/
def edit? (assignment : Template) : Pass → List Char → Option (List Change)
  | interfaces, text => interfaceEdit? text
  | aliases, text => aliasEdit? text
  | returnTypes, text => some (returnType.edit dropReturnType text)
  | arrowReturnTypes, text => some (arrowReturnType.edit dropArrowReturnType text)
  | parameterTypes, text => some (parameterList.edit dropParameterTypes text)
  | namedBindings, text => some (namedBinding.edit dropBindingType text)
  | destructuredBindings, text => some (destructuredBinding.edit dropBindingType text)
  | hookGenerics, text => some (hookGeneric.edit dropGeneric text)
  | importsFrom, text => some (Modules.importFrom.edit dropMatch text)
  | bareImports, text => some (Modules.importBare.edit dropMatch text)
  | defaultExport, text => some (Modules.exportDefault.edit (assign assignment) text)
  | exportLists, text => some (Modules.exportList.edit dropMatch text)
  | exportKeywords, text => some (Modules.exportKeyword.edit dropMatch text)

def bound : Pass → List Char → Nat
  | interfaces, text | aliases, text => text.length
  | _, _ => 1

end Pass

/-- A step of a transform: the pass it belongs to and its edit. -/
structure Step where
  pass : Pass
  edit : List Change

namespace Pass

def steps (assignment : Template) (pass : Pass) : Nat → List Char → List Step
  | 0, _ => []
  | bound + 1, text =>
      match pass.edit? assignment text with
      | some edit => ⟨pass, edit⟩ :: pass.steps assignment bound (after edit)
      | none => []

/-- The text that a pass leaves. -/
def result (assignment : Template) (pass : Pass) (text : List Char) : List Char :=
  Declaration.exhaust (fun text => (pass.edit? assignment text).map after) (pass.bound text) text

def stepsOf (assignment : Template) : List Pass → List Char → List Step
  | [], _ => []
  | pass :: passes, text =>
      pass.steps assignment (pass.bound text) text ++
        stepsOf assignment passes (pass.result assignment text)

/-! ## Where each edit starts -/

variable {here : Cursor} {found : Match}

theorem text_of_lit {opening : String} {tail : Pattern}
    (h : (lit opening ++ tail).at? here = some found) :
    ∃ rest, found.text = opening.toList ++ rest := by
  have whole := reads_of_at? h
  obtain ⟨last, ends, rfl⟩ := exists_end_of_at? h
  obtain ⟨middle, leads, tails⟩ := mem_ends_append.1 ends
  obtain ⟨rest, reads⟩ := reads_of_mem_ends tails
  exact ⟨rest, whole.word_unique ((reads_of_lit leads).trans reads)⟩

theorem text_of_lits {opening closing : String} {body : Pattern}
    (h : (lit opening ++ (body ++ lit closing)).at? here = some found) :
    ∃ inner, found.text = opening.toList ++ (inner ++ closing.toList) := by
  have whole := reads_of_at? h
  obtain ⟨last, ends, rfl⟩ := exists_end_of_at? h
  obtain ⟨first, leads, ends⟩ := mem_ends_append.1 ends
  obtain ⟨middle, bodies, tails⟩ := mem_ends_append.1 ends
  obtain ⟨inner, reads⟩ := reads_of_mem_ends bodies
  exact ⟨inner, whole.word_unique
    ((reads_of_lit leads).trans (reads.trans (reads_of_lit tails)))⟩

theorem reads_group {lead body tail : Pattern} (plain : lead.isPlain = true)
    (plain' : body.isPlain = true) (h : (lead ++ (capture body ++ tail)).at? here = some found) :
    ∃ first inner last, first ∈ lead.ends ⟨here, []⟩ ∧ inner ∈ body.ends first ∧
      first.here.Reads (found.group 0) inner.here ∧
      last ∈ tail.ends ⟨inner.here, [Span.between first.here inner.here]⟩ ∧
      found = last.toMatch here := by
  obtain ⟨last, ends, rfl⟩ := exists_end_of_at? h
  obtain ⟨first, leads, ends⟩ := mem_ends_append.1 ends
  obtain ⟨inner, inner_ends, reads, tails⟩ :=
    group_of_mem_ends here plain' (groups_of_isPlain plain leads) ends
  exact ⟨first, inner, last, leads, inner_ends, reads, tails, rfl⟩

theorem covers_dropMatch (pattern : Pattern) : pattern.Covers dropMatch :=
  fun _ found _ => List.append_nil found.text

theorem covers_assign (assignment : Template) (pattern : Pattern) :
    pattern.Covers (assign assignment) :=
  fun _ found _ => List.append_nil found.text

theorem covers_dropReturnType : returnType.Covers dropReturnType := by
  intro here found found_at
  have parts : returnType = lit ")" ++ (spacing ++ lit ":" ++ spacing ++
      one isNameStart ++ few isTypeChar (beginsAfterBlanks '\x7b')) := rfl
  rw [parts] at found_at
  obtain ⟨rest, text⟩ := text_of_lit found_at
  simp [dropReturnType, Change.before, text]

theorem covers_dropArrowReturnType : arrowReturnType.Covers dropArrowReturnType := by
  intro here found found_at
  have parts : arrowReturnType = lit ")" ++ ((spacing ++ lit ":" ++ spacing ++
      one isNameStart ++ few isTypeChar (beginsAfterBlanks '=') ++ spacing) ++
      lit "=>") := rfl
  rw [parts] at found_at
  obtain ⟨inner, text⟩ := text_of_lits found_at
  simp [dropArrowReturnType, Change.before, text]

theorem covers_dropParameterTypes : parameterList.Covers dropParameterTypes := by
  intro here found found_at
  have parts : parameterList = lit "(" ++ (capture (every isFlat ++
      repeated (lit "(" ++ every isFlat ++ lit ")" ++ every isFlat)) ++
      (lit ")" ++ ahead (spacing ++ either (lit "=>") (lit "\x7b")))) := rfl
  rw [parts] at found_at
  have whole := reads_of_at? found_at
  obtain ⟨first, inner, last, leads, -, group, tails, rfl⟩ := reads_group rfl rfl found_at
  obtain ⟨closed, closes, follows⟩ := mem_ends_append.1 tails
  have same := (mem_ends_ahead.1 follows).2
  have text := whole.word_unique
    ((reads_of_lit leads).trans (group.trans (same ▸ reads_of_lit closes)))
  rw [text]
  simp [dropParameterTypes, before_listChanges]

theorem covers_dropBindingType {body tail : Pattern} (plain : body.isPlain = true) :
    (wordEdge ++ (capture body ++ tail)).Covers dropBindingType := by
  intro here found found_at
  have whole := reads_of_at? found_at
  obtain ⟨first, inner, last, leads, -, group, tails, rfl⟩ := reads_group rfl plain found_at
  obtain ⟨rest, reads⟩ := reads_of_mem_ends tails
  rw [(mem_ends_wordEdge.1 leads).2] at group
  rw [dropBindingType, whole.word_unique (group.trans reads)]
  simp [Change.before]

theorem covers_dropGeneric : hookGeneric.Covers dropGeneric := by
  intro here found found_at
  have parts : hookGeneric = wordEdge ++ (capture (lit "use" ++ one Char.isUpper ++
      every isNameChar) ++ ((spacing ++ lit "<" ++ every isGenericChar ++
      optional (lit "<" ++ every isGenericChar ++ lit ">") ++
      every isGenericChar ++ lit ">" ++ spacing) ++ lit "(")) := rfl
  rw [parts] at found_at
  have whole := reads_of_at? found_at
  obtain ⟨first, inner, last, leads, -, group, tails, rfl⟩ := reads_group rfl rfl found_at
  obtain ⟨middle, types, opens⟩ := mem_ends_append.1 tails
  obtain ⟨type, reads⟩ := reads_of_mem_ends types
  rw [(mem_ends_wordEdge.1 leads).2] at group
  rw [dropGeneric, whole.word_unique (group.trans (reads.trans (reads_of_lit opens)))]
  simp [Change.before]

theorem before_cutOut {text rest : List Char} {place : Nat} (h : rest <:+ text.drop place) :
    before (cutOut text place rest) = text := by
  obtain ⟨erased, parts⟩ := h
  have size : text.length - place - rest.length = erased.length := by
    rw [← List.length_drop, ← parts, List.length_append, Nat.add_sub_cancel]
  rw [cutOut, before_append, before_cons, before_keepAll, before_keepAll, Change.before, size,
    ← parts, List.take_left, parts, List.take_append_drop]

theorem after_cutOut (text rest : List Char) (place : Nat) :
    after (cutOut text place rest) = text.take place ++ rest := by
  simp [cutOut, Change.after]

/-- What follows the leftmost match is what is left of the text from its place on. -/
theorem suffix_of_first? {pattern : Pattern} {text : List Char}
    (h : pattern.first? text = some found) :
    found.stop.rest <:+ text.drop found.whole.first.offset := by
  obtain ⟨word, here, reads, found_at⟩ := at?_of_firstFrom? h
  have whole := reads_of_at? found_at
  obtain ⟨last, -, rfl⟩ := exists_end_of_at? found_at
  change last.here.rest <:+ text.drop here.offset
  have eq : text = word ++ here.rest := reads.rest_eq
  have offset : here.offset = word.length := by
    rw [reads.offset_eq]
    exact Nat.zero_add _
  rw [eq, offset, List.drop_left]
  exact ⟨_, whole.rest_eq.symm⟩

theorem afterAlias_suffix (previous : Char) (depth : Int) (isBegun : Bool) (text : List Char) :
    Declaration.afterAlias previous depth isBegun text <:+ text := by
  induction text generalizing previous depth isBegun with
  | nil => exact List.suffix_refl _
  | cons c rest ih =>
      rw [Declaration.afterAlias]
      split
      · exact List.suffix_cons c rest
      · exact (ih _ _ _).trans (List.suffix_cons c rest)

theorem before_interfaceEdit? {text : List Char} {edit : List Change}
    (h : interfaceEdit? text = some edit) : before edit = text := by
  obtain ⟨head, first, rfl⟩ := Option.map_eq_some_iff.1 h
  refine before_cutOut (.trans ?_ (suffix_of_first? first))
  have parts := Brackets.splitBlock_append '\x7b' '\x7d' [] 1 head.stop.rest
  exact (List.dropWhile_suffix _).trans ⟨_, parts⟩

theorem before_aliasEdit? {text : List Char} {edit : List Change}
    (h : aliasEdit? text = some edit) : before edit = text := by
  obtain ⟨head, first, rfl⟩ := Option.map_eq_some_iff.1 h
  exact before_cutOut ((afterAlias_suffix _ _ _ _).trans (suffix_of_first? first))

/-- The edit of a step starts from the text that the step is made on. -/
theorem before_edit? {assignment : Template} {pass : Pass} {text : List Char} {edit : List Change}
    (h : pass.edit? assignment text = some edit) : before edit = text := by
  cases pass with
  | interfaces => exact before_interfaceEdit? h
  | aliases => exact before_aliasEdit? h
  | returnTypes =>
      cases h
      exact before_edit covers_dropReturnType text
  | arrowReturnTypes =>
      cases h
      exact before_edit covers_dropArrowReturnType text
  | parameterTypes =>
      cases h
      exact before_edit covers_dropParameterTypes text
  | namedBindings =>
      cases h
      exact before_edit (covers_dropBindingType rfl) text
  | destructuredBindings =>
      cases h
      exact before_edit (covers_dropBindingType rfl) text
  | hookGenerics =>
      cases h
      exact before_edit covers_dropGeneric text
  | importsFrom | bareImports | exportLists | exportKeywords =>
      cases h
      exact before_edit (covers_dropMatch _) text
  | defaultExport =>
      cases h
      exact before_edit (covers_assign assignment _) text

/-! ## What the passes leave -/

theorem result_replacement (assignment : Template) (pass : Pass) (text : List Char)
    {pattern : Pattern} {changes : Match → List Change} {change : Match → List Char}
    (once : pass.bound text = 1)
    (made : pass.edit? assignment text = some (pattern.edit changes text))
    (leaves : ∀ found, after (changes found) = change found) :
    pass.result assignment text = pattern.replace change text := by
  rw [result, once, Declaration.exhaust, made, ← after_edit leaves]
  rfl

theorem result_congr {assignment : Template} {pass : Pass} {text : List Char}
    {step : List Char → Option (List Char)} (many : pass.bound text = text.length)
    (h : ∀ text, (pass.edit? assignment text).map after = step text) :
    pass.result assignment text = Declaration.exhaust step text.length text := by
  rw [result, many]
  congr 1
  exact funext h

theorem result_interfaces (assignment : Template) (text : List Char) :
    interfaces.result assignment text =
      Declaration.exhaust Declaration.eraseInterface? text.length text := by
  refine result_congr rfl fun text => ?_
  rw [edit?, interfaceEdit?, Declaration.eraseInterface?, Option.map_map]
  congr 1
  funext head
  exact after_cutOut _ _ _

theorem result_aliases (assignment : Template) (text : List Char) :
    aliases.result assignment text =
      Declaration.exhaust Declaration.eraseAlias? text.length text := by
  refine result_congr rfl fun text => ?_
  rw [edit?, aliasEdit?, Declaration.eraseAlias?, Option.map_map]
  congr 1
  funext head
  exact after_cutOut _ _ _

theorem after_dropBindingType (found : Match) : after (dropBindingType found) = found.group 0 := by
  simp [dropBindingType, Change.after]

theorem after_dropParameterTypes (found : Match) : after (dropParameterTypes found) =
    '(' :: eraseTypesOf (found.group 0) ++ [')'] := by
  simp [dropParameterTypes, after_listChanges]

theorem after_dropGeneric (found : Match) : after (dropGeneric found) = found.group 0 ++ ['('] := by
  simp [dropGeneric, Change.after]

theorem after_assign (assignment : Template) (found : Match) :
    after (assign assignment found) = assignment.fill found.text := by
  simp [assign, Change.after]

theorem apply_eq_foldl (assignment : Template) (rule : Rule) (text : List Char) :
    rule.apply assignment text =
      rule.passes.foldl (fun text pass => pass.result assignment text) text := by
  cases rule with
  | typeDeclarations =>
      simp only [Rule.passes, List.foldl_cons, List.foldl_nil, result_interfaces, result_aliases]
      rfl
  | returnTypes => exact (result_replacement assignment .returnTypes text rfl rfl fun _ => rfl).symm
  | arrowReturnTypes =>
      exact (result_replacement assignment .arrowReturnTypes text rfl rfl fun _ => rfl).symm
  | parameterTypes =>
      exact (result_replacement assignment .parameterTypes text rfl rfl
        after_dropParameterTypes).symm
  | bindingTypes =>
      have named : namedBindings.result assignment text = _ :=
        result_replacement _ _ _ rfl rfl after_dropBindingType
      have destructured (text : List Char) : destructuredBindings.result assignment text = _ :=
        result_replacement _ _ _ rfl rfl after_dropBindingType
      have generic (text : List Char) : hookGenerics.result assignment text = _ :=
        result_replacement _ _ _ rfl rfl after_dropGeneric
      simp only [Rule.passes, List.foldl_cons, List.foldl_nil, named, destructured, generic]
      rfl
  | imports =>
      have sourced : importsFrom.result assignment text = _ :=
        result_replacement _ _ _ rfl rfl fun _ => rfl
      have bare (text : List Char) : bareImports.result assignment text = _ :=
        result_replacement _ _ _ rfl rfl fun _ => rfl
      simp only [Rule.passes, List.foldl_cons, List.foldl_nil, sourced, bare]
      rfl
  | defaultExport =>
      exact (result_replacement assignment .defaultExport text rfl rfl
        (after_assign assignment)).symm
  | exports =>
      have lists : exportLists.result assignment text = _ :=
        result_replacement _ _ _ rfl rfl fun _ => rfl
      have keywords (text : List Char) : exportKeywords.result assignment text = _ :=
        result_replacement _ _ _ rfl rfl fun _ => rfl
      simp only [Rule.passes, List.foldl_cons, List.foldl_nil, lists, keywords]
      rfl

/-- The script of a text is what all passes leave of it. -/
theorem textOf_eq_foldl (assignment : Template) (text : List Char) :
    Script.textOf assignment text =
      all.foldl (fun text pass => pass.result assignment text) text := by
  rw [Script.textOf, all, List.foldl_flatMap]
  congr 1
  funext text rule
  exact apply_eq_foldl assignment rule text

end Pass

def Script.steps (assignment : Template) (text : List Char) : List Step :=
  Pass.stepsOf assignment Pass.all text

/-- Steps that start from one text and end with another, each from what the one before left. -/
inductive Step.Run (assignment : Template) : List Char → List Step → List Char → Prop
  | nil {text : List Char} : Run assignment text [] text
  | cons {pass : Pass} {edit : List Change} {steps : List Step} {final : List Char}
      (made : pass.edit? assignment (before edit) = some edit)
      (others : Run assignment (after edit) steps final) :
      Run assignment (before edit) (⟨pass, edit⟩ :: steps) final

namespace Step.Run

variable {assignment : Template} {text middle final : List Char} {first last steps : List Step}

theorem append (run : Run assignment text first middle) (run' : Run assignment middle last final) :
    Run assignment text (first ++ last) final := by
  induction run with
  | nil => exact run'
  | cons made others ih => exact .cons made (ih run')

end Step.Run

theorem Pass.run_steps (assignment : Template) (pass : Pass) (bound : Nat) (text : List Char) :
    Step.Run assignment text (pass.steps assignment bound text)
      (Declaration.exhaust (fun text => (pass.edit? assignment text).map after) bound text) := by
  induction bound generalizing text with
  | zero => exact .nil
  | succ bound ih =>
      rw [Pass.steps, Declaration.exhaust]
      cases made : pass.edit? assignment text with
      | none => exact .nil
      | some edit =>
          obtain rfl := before_edit? made
          exact .cons made (ih (after edit))

theorem Pass.run_stepsOf (assignment : Template) (passes : List Pass) (text : List Char) :
    Step.Run assignment text (Pass.stepsOf assignment passes text)
      (passes.foldl (fun text pass => pass.result assignment text) text) := by
  induction passes generalizing text with
  | nil => exact .nil
  | cons pass passes ih => exact (run_steps assignment pass _ text).append (ih _)

theorem Script.text_ofText (assignment : Template) (text : List Char) :
    (ofText assignment text).text = textOf assignment text := by
  rw [ofText, ofResult]

/-- The steps of a script lead from its source to its text. -/
theorem Script.run_steps (assignment : Template) (text : List Char) :
    Step.Run assignment text (Script.steps assignment text) (Script.textOf assignment text) := by
  rw [Pass.textOf_eq_foldl]
  exact Pass.run_stepsOf assignment Pass.all text

namespace Step.Run

variable {assignment : Template} {text final : List Char} {steps done later : List Step}
  {step : Step} {token : Token}

theorem eq_of_nil (run : Run assignment text [] final) : final = text := by
  cases run
  rfl

theorem final_eq (run : Run assignment text (done ++ [step]) final) : final = after step.edit := by
  induction done generalizing text with
  | nil =>
      cases run with
      | cons made others => exact others.eq_of_nil
  | cons first done ih =>
      cases run with
      | cons made others => exact ih others

/-- A token that one step leaves and none after it removes is there in the end. -/
theorem occursIn_of_lasts (run : Run assignment text (done ++ step :: later) final)
    (lasts : ∀ step' ∈ step :: later, token.OccursIn (after step'.edit)) :
    token.OccursIn final := by
  rcases List.eq_nil_or_concat later with rfl | ⟨others, last, rfl⟩
  · exact run.final_eq ▸ lasts step (by simp)
  · have whole : done ++ step :: (others ++ [last]) = (done ++ step :: others) ++ [last] := by simp
    rw [List.concat_eq_append, whole] at run
    exact run.final_eq ▸ lasts last (by simp)

/-- A token that is there in the end was always there, or there is a last step that brings it. -/
theorem occursIn_cases (run : Run assignment text steps final) (h : token.OccursIn final) :
    (token.OccursIn text ∧ ∀ step ∈ steps, token.OccursIn (after step.edit)) ∨
    ∃ done step later, steps = done ++ step :: later ∧
      step.pass.edit? assignment (before step.edit) = some step.edit ∧
      ¬token.OccursIn (before step.edit) ∧
      ∀ step' ∈ step :: later, token.OccursIn (after step'.edit) := by
  induction run with
  | nil => exact .inl ⟨h, by simp⟩
  | @cons pass edit steps final made others ih =>
      rcases ih h with ⟨left, lasts⟩ | ⟨done, step, later, rfl, made', missing, lasts⟩
      · have all : ∀ step ∈ ⟨pass, edit⟩ :: steps, token.OccursIn (after step.edit) :=
          List.forall_mem_cons.2 ⟨left, lasts⟩
        by_cases there : token.OccursIn (before edit)
        · exact .inl ⟨there, all⟩
        · exact .inr ⟨[], ⟨pass, edit⟩, steps, rfl, made, there, all⟩
      · exact .inr ⟨⟨pass, edit⟩ :: done, step, later, rfl, made', missing, lasts⟩

end Step.Run

end ComponentPreview
