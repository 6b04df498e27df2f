import ComponentPreview.Proofs.Text.Dissection
import ComponentPreview.Script.Annotation

/-!
# Parameters as edits

Erasing the types of a parameter list keeps the names and the default values. Whatever is taken away
stands, blanks aside, before a comma, the end of the list or the sign of an assignment.
-/

namespace ComponentPreview

namespace Edit

/-- Whether a text begins with one of some marks, blanks aside. -/
def BeginsWith (marks : List Char) (text : List Char) : Prop :=
  ∃ mark ∈ marks, Pattern.beginsAfterBlanks mark text = true

/-- Each new text of an edit is blank, and what follows it begins with one of some marks. -/
def Guarded (marks : List Char) (edit : List Change) (next : List Char) : Prop :=
  ∀ first old new last, edit = first ++ .put old new :: last →
    (∀ c ∈ new, isBlank c = true) ∧ BeginsWith marks (after last ++ next)

variable {marks next : List Char} {first last : List Change}

theorem guarded_nil : Guarded marks [] next := by
  intro first old new last eq
  simp at eq

theorem guarded_append (h : Guarded marks first (after last ++ next))
    (h' : Guarded marks last next) : Guarded marks (first ++ last) next := by
  intro front old new back whole
  rcases List.append_eq_append_iff.1 whole with ⟨more, rfl, part⟩ | ⟨more, rfl, part⟩
  · exact h' more old new back part
  · cases more with
    | nil => exact h' [] old new back part.symm
    | cons change more =>
        obtain ⟨rfl, rfl⟩ := List.cons.inj part
        obtain ⟨blank, begins⟩ := h front old new more rfl
        refine ⟨blank, ?_⟩
        change BeginsWith marks (after (more ++ last) ++ next)
        rwa [after_append, List.append_assoc]

theorem guarded_keepAll (text : List Char) : Guarded marks (keepAll text) next := by
  intro first old new last eq
  have mem : Change.put old new ∈ keepAll text := by simp [eq]
  obtain ⟨c, -, keep⟩ := List.mem_map.1 mem
  cases keep

theorem guarded_put {old new : List Char} (blank : ∀ c ∈ new, isBlank c = true)
    (h : BeginsWith marks next) : Guarded marks [.put old new] next := by
  intro first old' new' last eq
  cases first with
  | nil =>
      obtain ⟨same, rfl⟩ := List.cons.inj eq
      cases same
      exact ⟨blank, h⟩
  | cons change first => simp at eq

end Edit

namespace Brackets

theorem splitBlock_append (opener closer : Char) (inside : List Char) (depth : Nat)
    (text : List Char) :
    (splitBlock opener closer inside depth text).1 ++
      (splitBlock opener closer inside depth text).2 = inside.reverse ++ text := by
  induction text generalizing inside depth with
  | nil => simp [splitBlock]
  | cons c rest ih =>
      rw [splitBlock]
      split
      · rw [ih, List.reverse_cons, List.append_assoc, List.singleton_append]
      split
      · split
        · rw [List.reverse_cons, List.append_assoc, List.singleton_append]
        · rw [ih, List.reverse_cons, List.append_assoc, List.singleton_append]
      · rw [ih, List.reverse_cons, List.append_assoc, List.singleton_append]

/-- The text from an assignment on is what is left of a text. -/
theorem fromAssignment?_eq {previous : Option Char} {depth : Int} {text value : List Char}
    (h : fromAssignment? previous depth text = some value) :
    ∃ type rest, text = type ++ value ∧ value = '=' :: rest := by
  induction text generalizing previous depth with
  | nil => cases h
  | cons c rest ih =>
      rw [fromAssignment?] at h
      split at h
      · next assigns =>
          cases h
          simp only [Bool.and_eq_true, beq_iff_eq] at assigns
          exact ⟨[], rest, rfl, by rw [assigns.1.1]⟩
      · obtain ⟨type, rest', rfl, rfl⟩ := ih h
        exact ⟨c :: type, rest', rfl, rfl⟩

theorem join_append_pair (parts : List (List Char)) (first last : List Char) :
    Text.join [','] (parts ++ [first, last]) =
      Text.join [','] (parts ++ [first ++ ',' :: last]) := by
  induction parts with
  | nil => simp [Text.join]
  | cons part parts ih =>
      cases parts with
      | nil => simp [Text.join]
      | cons other parts =>
          change part ++ [','] ++ Text.join [','] (other :: parts ++ [first, last]) =
            part ++ [','] ++ Text.join [','] (other :: parts ++ [first ++ ',' :: last])
          rw [ih]

theorem join_cutFrom (previous : Option Char) (depth : Int) (part : List Char)
    (parts : List (List Char)) (text : List Char) :
    Text.join [','] (cutFrom previous depth part parts text) =
      Text.join [','] (parts.reverse ++ [part.reverse ++ text]) := by
  induction text generalizing previous depth part parts with
  | nil => simp [cutFrom]
  | cons c rest ih =>
      rw [cutFrom]
      split
      · next comma =>
          rw [ih]
          simp only [Bool.and_eq_true, beq_iff_eq] at comma
          rw [comma.1, List.reverse_cons, List.append_assoc, List.singleton_append,
            List.reverse_nil, List.nil_append, join_append_pair]
      · rw [ih, List.reverse_cons, List.append_assoc, List.singleton_append]

/-- Cutting a text at its commas loses nothing. -/
theorem join_cutAtCommas (text : List Char) : Text.join [','] (cutAtCommas text) = text := by
  rw [cutAtCommas, join_cutFrom]
  rfl

end Brackets

namespace Annotation

open Edit Pattern

/-- Takes away a type, with what stands before it, and keeps the default value. -/
def dropType (lead typed : List Char) : List Change :=
  match Brackets.fromAssignment? none 0 typed with
  | some value => .put (lead ++ typed.take (typed.length - value.length)) [' '] :: keepAll value
  | none => [.put (lead ++ typed) []]

def nameChanges (parameter : List Char) : List Change :=
  match typedParameter.opening? parameter with
  | some found =>
      keepAll (found.group 0) ++
        dropType ((found.text.drop (found.group 0).length).dropLast) (':' :: found.stop.rest)
  | none => keepAll parameter

/-- The changes of a parameter that begins with a block. -/
def blockChanges (parameter : List Char) (opener : Char) (block : List Char × List Char) :
    List Change :=
  if (Text.trimStart isBlank block.2).head? == some ':' then
    keepAll (parameter.takeWhile isBlank ++ opener :: block.1) ++ dropType [] block.2
  else keepAll parameter

/-- The changes of `eraseParameterType`. -/
def parameterChanges (parameter : List Char) : List Change :=
  match parameter.dropWhile isBlank with
  | opener :: inner =>
      if opener == '\x7b' || opener == '[' then
        blockChanges parameter opener
          (Brackets.splitBlock opener (if opener == '[' then ']' else '\x7d') [] 1 inner)
      else nameChanges parameter
  | [] => nameChanges parameter

/-- The changes of several parts with commas between them. -/
def joinChanges : List (List Change) → List Change
  | [] => []
  | [part] => part
  | part :: others => part ++ .keep ',' :: joinChanges others

theorem after_dropType (lead typed : List Char) :
    after (dropType lead typed) = defaultOf typed := by
  unfold dropType defaultOf
  cases Brackets.fromAssignment? none 0 typed with
  | none => rfl
  | some value => simp [Change.after]

theorem before_dropType (lead typed : List Char) :
    before (dropType lead typed) = lead ++ typed := by
  unfold dropType
  cases found : Brackets.fromAssignment? none 0 typed with
  | none => simp [Change.before]
  | some value =>
      obtain ⟨type, rest, rfl, -⟩ := Brackets.fromAssignment?_eq found
      simp [Change.before]

theorem guarded_dropType {lead typed next : List Char} (h : BeginsWith ['=', ',', ')'] next) :
    Guarded ['=', ',', ')'] (dropType lead typed) next := by
  unfold dropType
  cases found : Brackets.fromAssignment? none 0 typed with
  | none => exact guarded_put (by simp) h
  | some value =>
      obtain ⟨type, rest, -, rfl⟩ := Brackets.fromAssignment?_eq found
      have assigns : BeginsWith ['=', ',', ')'] (after (keepAll ('=' :: rest)) ++ next) := by
        rw [after_keepAll]
        exact ⟨'=', by simp, rfl⟩
      exact guarded_append (guarded_put (by simp [isBlank]) assigns) (guarded_keepAll _)

/-- A typed parameter is its name, what marks it as typed, and the rest from the colon on. -/
theorem typedParameter_parts {parameter : List Char} {found : Pattern.Match}
    (h : typedParameter.opening? parameter = some found) :
    ∃ mark, found.text = found.group 0 ++ (mark ++ [':']) ∧
      parameter = found.group 0 ++ (mark ++ ':' :: found.stop.rest) := by
  have whole := reads_of_at? h
  obtain ⟨last, ends, rfl⟩ := exists_end_of_at? h
  have parts : typedParameter = capture (spacing ++ optional (lit "...") ++ name) ++
      ((spacing ++ optional (lit "?") ++ spacing) ++ lit ":") := rfl
  rw [parts] at ends
  obtain ⟨inner, -, named, tail⟩ := group_of_mem_ends (.start parameter) rfl rfl ends
  obtain ⟨middle, marked, colon⟩ := mem_ends_append.1 tail
  obtain ⟨mark, marks⟩ := reads_of_mem_ends marked
  obtain ⟨there, ended, rfl⟩ := mem_ends_lit.1 colon
  have reads := named.trans (marks.trans ended)
  refine ⟨mark, whole.word_unique reads, ?_⟩
  have rest_eq := reads.rest_eq
  rw [List.append_assoc, List.append_assoc] at rest_eq
  exact rest_eq

theorem after_nameChanges (parameter : List Char) :
    after (nameChanges parameter) = eraseNamed parameter := by
  unfold nameChanges eraseNamed
  cases typedParameter.opening? parameter with
  | none => exact after_keepAll _
  | some found => simp [after_dropType]

theorem before_nameChanges (parameter : List Char) :
    before (nameChanges parameter) = parameter := by
  unfold nameChanges
  cases h : typedParameter.opening? parameter with
  | none => exact before_keepAll _
  | some found =>
      obtain ⟨mark, text, parts⟩ := typedParameter_parts h
      simp [before_dropType, text, ← parts]

theorem guarded_nameChanges {parameter next : List Char} (h : BeginsWith ['=', ',', ')'] next) :
    Guarded ['=', ',', ')'] (nameChanges parameter) next := by
  unfold nameChanges
  cases typedParameter.opening? parameter with
  | none => exact guarded_keepAll _
  | some found => exact guarded_append (guarded_keepAll _) (guarded_dropType h)

theorem after_parameterChanges (parameter : List Char) :
    after (parameterChanges parameter) = eraseParameterType parameter := by
  unfold parameterChanges eraseParameterType
  cases parameter.dropWhile isBlank with
  | nil => exact after_nameChanges _
  | cons opener inner =>
      dsimp only
      generalize Brackets.splitBlock opener (if opener == '[' then ']' else '\x7d') [] 1 inner =
        block
      split
      · unfold blockChanges
        split
        · simp [after_dropType]
        · exact after_keepAll _
      · exact after_nameChanges _

theorem before_blockChanges {parameter inner : List Char} {opener : Char}
    {block : List Char × List Char} (rest : parameter.dropWhile isBlank = opener :: inner)
    (parts : block.1 ++ block.2 = inner) :
    before (blockChanges parameter opener block) = parameter := by
  unfold blockChanges
  split
  · rw [before_append, before_keepAll, before_dropType, List.nil_append, List.append_assoc,
      List.cons_append, parts, ← rest, List.takeWhile_append_dropWhile]
  · exact before_keepAll _

theorem guarded_blockChanges {parameter next : List Char} {opener : Char}
    {block : List Char × List Char} (h : BeginsWith ['=', ',', ')'] next) :
    Guarded ['=', ',', ')'] (blockChanges parameter opener block) next := by
  unfold blockChanges
  split
  · exact guarded_append (guarded_keepAll _) (guarded_dropType h)
  · exact guarded_keepAll _

theorem before_parameterChanges (parameter : List Char) :
    before (parameterChanges parameter) = parameter := by
  unfold parameterChanges
  cases rest : parameter.dropWhile isBlank with
  | nil => exact before_nameChanges _
  | cons opener inner =>
      dsimp only
      split
      · exact before_blockChanges rest (Brackets.splitBlock_append opener _ [] 1 inner)
      · exact before_nameChanges _

theorem guarded_parameterChanges {parameter next : List Char}
    (h : BeginsWith ['=', ',', ')'] next) :
    Guarded ['=', ',', ')'] (parameterChanges parameter) next := by
  unfold parameterChanges
  cases parameter.dropWhile isBlank with
  | nil => exact guarded_nameChanges h
  | cons opener inner =>
      dsimp only
      split
      · exact guarded_blockChanges h
      · exact guarded_nameChanges h

theorem after_joinChanges (parts : List (List Change)) :
    after (joinChanges parts) = Text.join [','] (parts.map after) := by
  fun_induction joinChanges parts with
  | case1 => rfl
  | case2 part => rfl
  | case3 part others more ih =>
      cases others with
      | nil => exact absurd rfl more
      | cons other others =>
          rw [after_append, after_cons, ih]
          simp [Text.join, Change.after]

theorem before_joinChanges (parts : List (List Change)) :
    before (joinChanges parts) = Text.join [','] (parts.map before) := by
  fun_induction joinChanges parts with
  | case1 => rfl
  | case2 part => rfl
  | case3 part others more ih =>
      cases others with
      | nil => exact absurd rfl more
      | cons other others =>
          rw [before_append, before_cons, ih]
          simp [Text.join, Change.before]

theorem guarded_joinChanges {marks next : List Char} (comma : ',' ∈ marks)
    (closed : BeginsWith marks next) {parts : List (List Change)}
    (h : ∀ part ∈ parts, ∀ next, BeginsWith marks next → Guarded marks part next) :
    Guarded marks (joinChanges parts) next := by
  fun_induction joinChanges parts with
  | case1 => exact guarded_nil
  | case2 part => exact h part (by simp) next closed
  | case3 part others more ih =>
      have rest := ih fun part mem => h part (List.mem_cons_of_mem _ mem)
      exact guarded_append (h part (by simp) _ ⟨',', comma, rfl⟩)
        (guarded_append (guarded_keepAll [',']) rest)

/-- The changes of `eraseTypesOf`. -/
def listChanges (parameters : List Char) : List Change :=
  joinChanges ((Brackets.cutAtCommas parameters).map parameterChanges)

theorem after_listChanges (parameters : List Char) :
    after (listChanges parameters) = eraseTypesOf parameters := by
  rw [listChanges, after_joinChanges, eraseTypesOf, List.map_map]
  congr 2
  exact funext after_parameterChanges

theorem before_listChanges (parameters : List Char) :
    before (listChanges parameters) = parameters := by
  rw [listChanges, before_joinChanges, List.map_map]
  have same : before ∘ parameterChanges = id := funext before_parameterChanges
  rw [same, List.map_id, Brackets.join_cutAtCommas]

theorem guarded_listChanges {parameters next : List Char}
    (h : BeginsWith ['=', ',', ')'] next) :
    Guarded ['=', ',', ')'] (listChanges parameters) next := by
  refine guarded_joinChanges (by simp) h ?_
  intro part mem next begins
  obtain ⟨parameter, -, rfl⟩ := List.mem_map.1 mem
  exact guarded_parameterChanges begins

end Annotation

end ComponentPreview
