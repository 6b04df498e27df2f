import ComponentPreview.Preview
import ComponentPreview.Proofs.Script.Seam

/-!
# Passes that assemble tokens

Erasing types leaves, wherever it takes something away, a bracket, a comma or the sign of an
assignment, before which no primitive ends.

The gate looks at a source and not at the script made of it. A script holds a forbidden token that
the gate did not see just if one of its steps puts the token together and no later one takes it
apart.
-/

namespace ComponentPreview

open Edit Pattern Annotation

namespace Pattern

variable {pattern : Pattern} {changes : Match → List Change} {here there : Cursor}
  {pieces : List Piece} {marks text : List Char}

theorem guarded_edit (h : ∀ here found pieces there, pattern.at? here = some found →
      pattern.Dissects found.stop pieces there → there.rest = [] →
      Guarded marks (changes found) (after (editPieces changes pieces))) :
    Guarded marks (pattern.edit changes text) [] := by
  intro first old new last eq
  obtain ⟨stop, dissects, ended⟩ := pattern.dissects text
  obtain ⟨front, found, back, start, head, tail, -, found_at, rest, parts, -, rfl⟩ :=
    dissects.exists_found eq
  have begins := h start found back stop found_at rest ended head old new tail parts
  rwa [after_append, List.append_nil]

/-- What follows a place, blanks aside, stays if no match begins before it. -/
theorem Dissects.beginsAfterBlanks {mark : Char} (dissects : pattern.Dissects here pieces there)
    (ended : there.rest = []) (h : beginsAfterBlanks mark here.rest = true)
    (apart : ∀ here found, pattern.at? here = some found → ∀ c ∈ here.rest.head?,
      isBlank c = false ∧ c ≠ mark) :
    beginsAfterBlanks mark (after (editPieces changes pieces)) = true := by
  induction dissects with
  | nil =>
      rw [ended] at h
      cases h
  | @kept before c offset rest pieces there none others ih =>
      rw [Pattern.beginsAfterBlanks, Bool.or_eq_true, Bool.and_eq_true] at h
      rw [editPieces_cons, after_append, editPiece, after_cons, Change.after, after_nil,
        List.append_nil, List.singleton_append, Pattern.beginsAfterBlanks, Bool.or_eq_true,
        Bool.and_eq_true]
      exact h.imp_right fun h => ⟨h.1, ih ended h.2⟩
  | @found here found pieces there found_at size others ih =>
      cases rest : here.rest with
      | nil =>
          rw [rest] at h
          cases h
      | cons c rest' =>
          obtain ⟨blank, other⟩ := apart here found found_at c (by rw [rest]; rfl)
          rw [rest, Pattern.beginsAfterBlanks, blank, Bool.false_and, Bool.or_false,
            beq_iff_eq] at h
          exact absurd h other

end Pattern

namespace Pass

variable {assignment : Template} {primitive : DynamicCode} {text : List Char} {here : Cursor}
  {found : Match}

theorem head_of_text {c : Char} {rest : List Char} {pattern : Pattern}
    (h : pattern.at? here = some found) (text : found.text = c :: rest) :
    here.rest.head? = some c := by
  rw [(reads_of_at? h).rest_eq, text]
  rfl

theorem head_of_returnType (h : returnType.at? here = some found) :
    here.rest.head? = some ')' := by
  have parts : returnType = lit ")" ++ (spacing ++ lit ":" ++ spacing ++
      one isNameStart ++ few isTypeChar (beginsAfterBlanks '\x7b')) := rfl
  obtain ⟨rest, text⟩ := text_of_lit (parts ▸ h)
  exact head_of_text h text

theorem stop_of_returnType (h : returnType.at? here = some found) :
    beginsAfterBlanks '\x7b' found.stop.rest = true := by
  obtain ⟨last, ends, rfl⟩ := exists_end_of_at? h
  obtain ⟨first, -, rest⟩ := mem_ends_append.1 ends
  obtain ⟨word, there, -, -, ended, rfl⟩ := mem_ends_few.1 rest
  exact ended

theorem guarded_returnTypes :
    Guarded ['\x7b'] (returnType.edit dropReturnType text) [] := by
  refine guarded_edit fun here found pieces there found_at rest ended => ?_
  have begins : beginsAfterBlanks '\x7b' (after (editPieces dropReturnType pieces)) = true := by
    refine rest.beginsAfterBlanks ended (stop_of_returnType found_at) ?_
    intro here found found_at c mem
    rw [head_of_returnType found_at] at mem
    cases mem
    decide
  exact guarded_append (guarded_keepAll [')']) (guarded_put (by simp) ⟨'\x7b', by simp, begins⟩)

theorem guarded_arrowReturnTypes :
    Guarded ['='] (arrowReturnType.edit dropArrowReturnType text) [] := by
  refine guarded_edit fun here found pieces there _ _ _ => ?_
  change Guarded ['='] (keepAll [')'] ++ ([.put _ [' ']] ++ keepAll ['=', '>'])) _
  exact guarded_append (guarded_keepAll _)
    (guarded_append (guarded_put (by simp [isBlank]) ⟨'=', by simp, rfl⟩) (guarded_keepAll _))

theorem guarded_parameterTypes :
    Guarded ['=', ',', ')'] (parameterList.edit dropParameterTypes text) [] := by
  refine guarded_edit fun here found pieces there _ _ _ => ?_
  refine guarded_append (guarded_keepAll _) (guarded_append (guarded_listChanges ?_)
    (guarded_keepAll _))
  exact ⟨')', by simp, rfl⟩

/-! ## Bindings -/

/-- The declarators of bindings. -/
def bindingPattern (body : Pattern) : Pattern :=
  wordEdge ++ (capture (declarator ++ body) ++ bindingType)

theorem head_of_binding {body : Pattern} (h : (bindingPattern body).at? here = some found) :
    ∃ c ∈ ['c', 'l', 'v'], here.rest.head? = some c := by
  obtain ⟨last, ends, rfl⟩ := exists_end_of_at? h
  obtain ⟨first, edge, ends⟩ := mem_ends_append.1 ends
  obtain ⟨closed, captured, -⟩ := mem_ends_append.1 ends
  obtain ⟨later, declares, rfl⟩ := mem_ends_capture.1 captured
  obtain ⟨named, declares, -⟩ := mem_ends_append.1 declares
  obtain ⟨spaced, keyword, -⟩ := mem_ends_append.1 declares
  have heads : ∀ text ∈ ["const", "let", "var"],
      ∃ c ∈ ['c', 'l', 'v'], ∃ rest, text.toList = c :: rest := by simp
  obtain ⟨c, initial, rest, eq⟩ := head_of_anyOf keyword heads
  rw [(mem_ends_wordEdge.1 edge).2] at eq
  exact ⟨c, initial, by rw [show here.rest = c :: rest from eq]; rfl⟩

theorem stop_of_binding {body : Pattern} (h : (bindingPattern body).at? here = some found) :
    beginsAfterBlanks '=' found.stop.rest = true := by
  obtain ⟨last, ends, rfl⟩ := exists_end_of_at? h
  obtain ⟨first, -, ends⟩ := mem_ends_append.1 ends
  obtain ⟨closed, -, types⟩ := mem_ends_append.1 ends
  obtain ⟨typed, -, follows⟩ := mem_ends_append.1 types
  obtain ⟨⟨later, assigns⟩, rfl⟩ := mem_ends_ahead.1 follows
  obtain ⟨equals, assigns, -⟩ := mem_ends_append.1 assigns
  obtain ⟨spaced, spaces, sign⟩ := mem_ends_append.1 assigns
  obtain ⟨blanks, there, reads, areBlank, -, rfl⟩ := mem_ends_every.1 spaces
  have whole := (reads.trans (reads_of_lit sign)).rest_eq
  rw [List.append_assoc] at whole
  change beginsAfterBlanks '=' last.here.rest = true
  rw [whole]
  exact beginsAfterBlanks_append areBlank (by simp [beginsAfterBlanks])

theorem guarded_bindings (body : Pattern) (text : List Char) :
    Guarded ['='] ((bindingPattern body).edit dropBindingType text) [] := by
  refine guarded_edit fun here found pieces there found_at rest ended => ?_
  have begins : beginsAfterBlanks '=' (after (editPieces dropBindingType pieces)) = true := by
    refine rest.beginsAfterBlanks ended (stop_of_binding found_at) ?_
    intro here found found_at c mem
    obtain ⟨d, initial, eq⟩ := head_of_binding found_at
    rw [eq] at mem
    cases mem
    have letters : ∀ c ∈ ['c', 'l', 'v'], isBlank c = false ∧ c ≠ '=' := by
      simp [isBlank]
    exact letters c initial
  exact guarded_append (guarded_keepAll _) (guarded_put (by simp) ⟨'=', by simp, begins⟩)

/-! ## Which passes assemble what -/

/-- Only what erases whole statements brings a primitive together. The name of a timer also comes
next to its parenthesis where the types of a hook are taken away. -/
def canAssemble : Pass → DynamicCode → Bool
  | interfaces, _ | aliases, _ | importsFrom, _ | bareImports, _ | exportLists, _ => true
  | hookGenerics, primitive => primitive == .textTimer
  | _, _ => false

/-- Any other pass leaves no primitive that was not there. -/
theorem occursIn_before_of_not_canAssemble {pass : Pass} {edit : List Change}
    (made : pass.edit? Script.entryAssignment text = some edit)
    (cannot : pass.canAssemble primitive = false) (h : primitive.token.OccursIn (after edit)) :
    primitive.token.OccursIn (before edit) := by
  cases pass with
  | interfaces | aliases | importsFrom | bareImports | exportLists => cases cannot
  | returnTypes =>
      cases made
      exact DynamicCode.occursIn_before_of_guarded guarded_returnTypes (by decide) h
  | arrowReturnTypes =>
      cases made
      exact DynamicCode.occursIn_before_of_guarded guarded_arrowReturnTypes (by decide) h
  | parameterTypes =>
      cases made
      exact DynamicCode.occursIn_before_of_guarded guarded_parameterTypes (by decide) h
  | namedBindings =>
      cases made
      exact DynamicCode.occursIn_before_of_guarded (guarded_bindings name text) (by decide) h
  | destructuredBindings =>
      cases made
      exact DynamicCode.occursIn_before_of_guarded
        (guarded_bindings (one isOpener ++ few (fun c => c != '=' && c != ';') (begins isCloser) ++
          one isCloser) text) (by decide) h
  | hookGenerics =>
      cases made
      exact occursIn_before_hooks (by rintro rfl; cases cannot) h
  | defaultExport =>
      cases made
      exact occursIn_before_assign h
  | exportKeywords =>
      cases made
      exact occursIn_before_exports h

end Pass

/-! ## The gate and the script -/

open Edit

namespace Script

/-- A step of one of some passes puts a token together, and from then on the token stays. -/
def Assembles (passes : Pass → Bool) (token : Token) (text : List Char) : Prop :=
  ∃ done step later, steps entryAssignment text = done ++ step :: later ∧
    passes step.pass = true ∧ Edit.Assembles step.edit token ∧
    ∀ step' ∈ step :: later, token.OccursIn (after step'.edit)

variable {passes : Pass → Bool} {token : Token} {text : List Char}

theorem occursIn_of_assembles (h : Assembles passes token text) :
    token.OccursIn (textOf entryAssignment text) := by
  obtain ⟨done, step, later, eq, -, -, lasts⟩ := h
  exact (eq ▸ run_steps entryAssignment text).occursIn_of_lasts lasts

/-- A token that the source does not hold was put together by a pass that can do so. -/
theorem assembles_of_occursIn
    (can : ∀ pass edit, pass.edit? entryAssignment (before edit) = some edit →
      token.OccursIn (after edit) → ¬token.OccursIn (before edit) → passes pass = true)
    (missing : ¬token.OccursIn text) (h : token.OccursIn (textOf entryAssignment text)) :
    Assembles passes token text := by
  rcases (run_steps entryAssignment text).occursIn_cases h with
    ⟨there, -⟩ | ⟨done, step, later, eq, made, absent, lasts⟩
  · exact absurd there missing
  · have brought := lasts step List.mem_cons_self
    exact ⟨done, step, later, eq, can _ _ made brought absent,
      Edit.assembles_of_occursIn brought absent, lasts⟩

end Script

namespace Validation

/-- The script of an accepted source holds a primitive of dynamic code, or a blocked keyword, just
if a step assembles it. Only some passes assemble primitives. -/
theorem mem_script_iff_assembles {config : Config} {source : Source} {analysis : Analysis}
    (accepted : (Validation.of config source analysis).isValid = true) :
    (∀ primitive, primitive ∈
        DynamicCode.usages (Script.ofText Script.entryAssignment source.text).text ↔
      Script.Assembles (·.canAssemble primitive) primitive.token source.text) ∧
    ∀ keyword ∈ config.blockedKeywords, (keyword ∈ blockedIn config.blockedKeywords
        (Script.ofText Script.entryAssignment source.text).text ↔
      Script.Assembles (fun _ => true) (keywordToken keyword) source.text) := by
  obtain ⟨clean, clean'⟩ := not_occursIn_of_isValid accepted
  constructor
  · intro primitive
    rw [DynamicCode.mem_usages_iff, Script.text_ofText]
    refine ⟨Script.assembles_of_occursIn ?_ (clean primitive), Script.occursIn_of_assembles⟩
    intro pass edit made occurs missing
    by_cases can : pass.canAssemble primitive = true
    · exact can
    · have cannot := Bool.eq_false_iff.2 can
      exact absurd (Pass.occursIn_before_of_not_canAssemble made cannot occurs) missing
  · intro keyword given
    rw [mem_blockedIn_iff, and_iff_right given, Script.text_ofText]
    exact ⟨Script.assembles_of_occursIn (fun _ _ _ _ _ => rfl) (clean' keyword given),
      Script.occursIn_of_assembles⟩

/-- An import between a name and a parenthesis, which are joined when it is erased. -/
def partedEvaluation : List Char :=
  "eval\nimport 'x'\n(1)".toList

theorem import_assembles_evaluation :
    (Validation.of {} ⟨partedEvaluation⟩ (Analysis.ofText partedEvaluation)).isValid = true ∧
    Script.Assembles (·.canAssemble .evaluation) DynamicCode.evaluation.token partedEvaluation := by
  have accepted : (Validation.of {} ⟨partedEvaluation⟩ (Analysis.ofText partedEvaluation)).isValid =
      true := by decide +kernel
  have mem : DynamicCode.evaluation ∈
      DynamicCode.usages (Script.ofText Script.entryAssignment partedEvaluation).text := by
    decide +kernel
  exact ⟨accepted, ((mem_script_iff_assembles accepted).1 .evaluation).1 mem⟩

theorem accepted_source_evaluates :
    (Validation.of {} ⟨partedEvaluation⟩ (Analysis.ofText partedEvaluation)).isValid = true ∧
    DynamicCode.usages (Script.ofText Script.entryAssignment partedEvaluation).text =
      [.evaluation] := by
  decide +kernel

end Validation

end ComponentPreview
