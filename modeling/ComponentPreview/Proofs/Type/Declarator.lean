import ComponentPreview.Proofs.Type.Adjacency
import ComponentPreview.Proofs.Type.Parameter
import ComponentPreview.Proofs.Type.Return

/-!
# Declarations of bindings

A declaration binds a name, or the names of a pattern without further patterns in it, and may carry
a type. Behind its keyword nothing looks like the beginning of another one
(`BindingText.along_tail`).
-/

namespace ComponentPreview

open Pattern Annotation

/-! ## What is bound -/

/-- White space, over lines too. -/
structure Space where
  text : List Char
  areBlank : ∀ c ∈ text, isBlank c = true

/-- The default of an entry, with the equals sign before it. -/
structure EntryDefault where
  front : Space
  back : Space
  value : DefaultValue
  solid : ∀ c ∈ value.text, isBlank c = false

def EntryDefault.text (assigned : EntryDefault) : List Char :=
  assigned.front.text ++ '=' :: (assigned.back.text ++ assigned.value.text)

inductive BindingEntry
  | hole
  | name (id : Identifier) (value : Option EntryDefault)
  | renamed (key : Identifier) (front back : Space) (id : Identifier) (value : Option EntryDefault)
  | rest (id : Identifier)

namespace BindingEntry

def assignedText (value : Option EntryDefault) : List Char :=
  value.elim [] EntryDefault.text

def text : BindingEntry → List Char
  | hole => []
  | name id value => id.text ++ assignedText value
  | renamed key front back id value =>
      key.text ++ (front.text ++ ':' :: (back.text ++ (id.text ++ assignedText value)))
  | rest id => "...".toList ++ id.text

end BindingEntry

/-- An entry of a pattern with the white space around it. -/
structure BindingSlot where
  front : Space
  entry : BindingEntry
  back : Space

def BindingSlot.text (slot : BindingSlot) : List Char :=
  slot.front.text ++ (slot.entry.text ++ slot.back.text)

inductive BindingShape
  | array
  | object

namespace BindingShape

def opener : BindingShape → Char
  | array => '['
  | object => '\x7b'

def closer : BindingShape → Char
  | array => ']'
  | object => '\x7d'

end BindingShape

/-- A name, or a pattern without further patterns in it. -/
inductive BindingTarget
  | name (id : Identifier)
  | pattern (shape : BindingShape) (slots : List BindingSlot)

namespace BindingTarget

def listed (slots : List BindingSlot) : List Char :=
  Text.join [','] (slots.map BindingSlot.text)

def text : BindingTarget → List Char
  | name id => id.text
  | pattern shape slots => shape.opener :: (listed slots ++ [shape.closer])

end BindingTarget

inductive BindingKeyword
  | const
  | block
  | var

def BindingKeyword.text : BindingKeyword → String
  | const => "const"
  | block => "let"
  | var => "var"

/-- A declaration of one binding, with or without a type. -/
structure BindingText where
  keyword : BindingKeyword
  target : BindingTarget
  value : Identifier

namespace BindingText

def assignment (binding : BindingText) : List Char :=
  " = ".toList ++ (binding.value.text ++ [';'])

/-- What follows the keyword of a declaration. -/
def tail (binding : BindingText) (type : Option PlainType) : List Char :=
  ' ' :: (binding.target.text ++ (type.elim [] typeNote ++ binding.assignment))

def text (binding : BindingText) (type : Option PlainType) : List Char :=
  binding.keyword.text.toList ++ binding.tail type

/-- Neither a default nor the type hides the assignment. -/
def Erasable (binding : BindingText) (type : PlainType) : Prop :=
  '=' ∉ binding.target.text ∧ '=' ∉ type.text ∧ ';' ∉ type.text

end BindingText

/-! ## Characters of a declaration -/

namespace BindingEntry

variable {rest : List Char}

theorem not_opensBinding_assigned (value : Option EntryDefault) (stops : ¬OpensBinding rest) :
    ¬OpensBinding (assignedText value ++ rest) := by
  cases value with
  | none => exact stops
  | some value =>
      have stops :
          Stops (value.front.text ++ '=' :: (value.back.text ++ value.value.text ++ rest)) :=
        .of_mark value.front.areBlank (by decide)
      simpa [assignedText, EntryDefault.text] using stops.opens

theorem along_assigned (value : Option EntryDefault) (stops : ¬OpensBinding rest) :
    Along FitsType (assignedText value) rest := by
  cases value with
  | none => exact .of_plain (by simp [assignedText])
  | some value =>
      have solid : Along FitsType value.value.text rest :=
        .of_solid (fun c mem => ⟨value.value.unsigned c mem, value.solid c mem⟩) stops
      exact .append_type (.of_blank value.front.areBlank _)
        (.cons_plain (by decide) (.append_type (.of_blank value.back.areBlank _) solid))

theorem along (entry : BindingEntry) (stops : ¬OpensBinding rest) :
    Along FitsType entry.text rest := by
  have named (id : Identifier) (value : Option EntryDefault) :
      Along FitsType (id.text ++ assignedText value) rest :=
    .append_type (.of_solid id.solid (not_opensBinding_assigned value stops))
      (along_assigned value stops)
  cases entry with
  | hole => exact .of_plain (by simp [text])
  | name id value => exact named id value
  | renamed key front back id value =>
      have colon : ¬OpensBinding ((front.text ++ ':' :: (back.text ++ (id.text ++
          assignedText value))) ++ rest) := by
        rw [List.append_assoc, List.cons_append]
        exact not_opensBinding_colon front.areBlank _
      exact .append_type (.of_solid key.solid colon) (.append_type (.of_blank front.areBlank _)
        (.cons_plain (by decide) (.append_type (.of_blank back.areBlank _) (named id value))))
  | rest id =>
      exact .append_type (.of_plain (by simp; decide)) (.of_solid id.solid stops)

end BindingEntry

namespace BindingTarget

variable {rest : List Char}

theorem along_listed (slots : List BindingSlot) {mark : Char} (sign : mark ∈ endSigns) :
    Along FitsType (listed slots) (mark :: rest) := by
  have single (slot : BindingSlot) {mark : Char} {rest : List Char} (sign : mark ∈ endSigns) :
      Along FitsType slot.text (mark :: rest) := by
    have stops : Stops (slot.back.text ++ mark :: rest) := .of_mark slot.back.areBlank sign
    exact .append_type (.of_blank slot.front.areBlank _)
      (.append_type (slot.entry.along stops.opens) (.of_blank slot.back.areBlank _))
  induction slots with
  | nil => exact .of_plain (by simp [listed, Text.join])
  | cons slot slots ih =>
      cases slots with
      | nil => exact single slot sign
      | cons other slots =>
          have behind : Along FitsType (',' :: listed (other :: slots)) (mark :: rest) :=
            .cons_plain (by decide) ih
          have whole := Along.append_type (single slot (by decide)) behind
          simpa [listed, Text.join] using whole

/-- Between the brackets of a pattern stand few of the signs. -/
theorem sign_of_mem_listed {slots : List BindingSlot} :
    ∀ c ∈ listed slots, c ∈ signs → c ∈ [',', ':', '='] := by
  let Clean (text : List Char) : Prop := ∀ c ∈ text, c ∈ signs → c ∈ [',', ':', '=']
  have append {text other : List Char} (h : Clean text) (h' : Clean other) :
      Clean (text ++ other) := List.forall_mem_append.2 ⟨h, h'⟩
  have unsigned {text : List Char} (h : ∀ c ∈ text, c ∉ signs) : Clean text :=
    fun c mem sign => absurd sign (h c mem)
  have space (space : Space) : Clean space.text := unsigned fun c mem sign => by
    simpa [not_isBlank_of_mem_signs sign] using space.areBlank c mem
  have named (id : Identifier) : Clean id.text := unsigned fun _ => id.not_mem_signs
  have mark {c : Char} {text : List Char} (sign : c ∈ [',', ':', '=']) (h : Clean text) :
      Clean (c :: text) := List.forall_mem_cons.2 ⟨fun _ => sign, h⟩
  have assigned (value : Option EntryDefault) : Clean (BindingEntry.assignedText value) := by
    cases value with
    | none => exact unsigned (by simp [BindingEntry.assignedText])
    | some value =>
        exact append (space value.front) (mark (by decide)
          (append (space value.back) (unsigned value.value.unsigned)))
  have entry : ∀ entry : BindingEntry, Clean entry.text
    | .hole => unsigned (by simp [BindingEntry.text])
    | .name id value => append (named id) (assigned value)
    | .renamed key front back id value => append (named key) (append (space front)
        (mark (by decide) (append (space back) (append (named id) (assigned value)))))
    | .rest id => append (unsigned (by simp; decide)) (named id)
  refine Text.join_induction (P := Clean) (unsigned (by simp)) append (mark (by decide)
    (unsigned (by simp))) fun text mem => ?_
  obtain ⟨slot, -, rfl⟩ := List.mem_map.1 mem
  exact append (space slot.front) (append (entry slot.entry) (space slot.back))

theorem not_isCloser_of_mem_listed {slots : List BindingSlot} {c : Char} (mem : c ∈ listed slots) :
    isCloser c = false := by
  rw [Bool.eq_false_iff]
  intro closes
  rw [isCloser, Bool.or_eq_true, beq_iff_eq, beq_iff_eq] at closes
  have few := sign_of_mem_listed c mem
  rcases closes with rfl | rfl
  · exact absurd (few (by decide)) (by decide)
  · exact absurd (few (by decide)) (by decide)

theorem exists_head (target : BindingTarget) :
    ∃ c others, target.text = c :: others ∧ isBlank c = false := by
  cases target with
  | name id =>
      obtain ⟨c, others, eq, -, shown⟩ := id.exists_head
      exact ⟨c, others, eq, shown⟩
  | pattern shape slots => exact ⟨shape.opener, _, rfl, by cases shape <;> decide⟩

/-- What is bound fits what follows it, but for the colon behind a pattern. -/
theorem along (target : BindingTarget) (stops : ¬OpensBinding rest) :
    Along FitsWord target.text rest := by
  cases target with
  | name id => exact (Along.of_solid id.solid stops).to_word
  | pattern shape slots =>
      have sign : shape.closer ∈ endSigns := by cases shape <;> decide
      have plain : isNameChar shape.opener = false ∧ shape.opener ≠ '>' ∧
          isCloser shape.opener = false := by cases shape <;> decide
      have unnamed : isNameChar shape.closer = false ∧ shape.closer ≠ '>' := by
        cases shape <;> decide
      have opened : Along FitsType (shape.opener :: listed slots) ([shape.closer] ++ rest) :=
        .cons_plain plain (along_listed slots sign)
      have closed : Along FitsWord [shape.closer] rest :=
        .single ⟨by simp [unnamed.1], fun angle => absurd angle unnamed.2⟩
      have whole : Along FitsWord ((shape.opener :: listed slots) ++ [shape.closer]) rest :=
        .append_word opened.to_word closed
      exact whole

end BindingTarget

theorem BindingKeyword.isNameChar_of_mem (keyword : BindingKeyword) :
    ∀ c ∈ keyword.text.toList, isNameChar c = true := by
  cases keyword <;> exact List.all_eq_true.1 (by decide)

namespace BindingText

variable {binding : BindingText} {type : PlainType}

theorem stops_assignment (binding : BindingText) : Stops (binding.assignment ++ []) := by
  have space : ∀ c ∈ [' '], isBlank c = true := List.forall_mem_singleton.2 (by decide)
  exact .of_mark space (by decide)

theorem along_assignment (binding : BindingText) : Along FitsType binding.assignment [] := by
  have ended : Along FitsType [';'] [] := .of_plain (List.forall_mem_singleton.2 (by decide))
  exact .append_type (.of_plain (by simp; decide))
    (.append_type (.of_solid binding.value.solid (not_opensBinding_cons (by decide))) ended)

theorem along_note (binding : BindingText) (type : Option PlainType) :
    Along FitsType (type.elim [] typeNote ++ binding.assignment) [] := by
  cases type with
  | none => exact binding.along_assignment
  | some type =>
      have noted : Along FitsType (typeNote type) (binding.assignment ++ []) :=
        .append_type (.of_plain (by simp; decide)) (type.along binding.stops_assignment)
      exact .append_type noted binding.along_assignment

/-- Behind the keyword nothing else looks like the beginning of a binding. -/
theorem along_tail (binding : BindingText) (type : Option PlainType) :
    Along FitsWord (binding.tail type) [] := by
  have stops : ¬OpensBinding (type.elim [] typeNote ++ binding.assignment ++ []) := by
    cases type with
    | none => exact binding.stops_assignment.opens
    | some type => exact not_opensBinding_cons (by decide)
  have space : Along FitsType [' '] (binding.target.text ++ (type.elim [] typeNote ++
      binding.assignment) ++ []) := .of_plain (List.forall_mem_singleton.2 (by decide))
  have behind : Along FitsWord (binding.target.text ++ (type.elim [] typeNote ++
      binding.assignment)) [] :=
    .append_word (binding.target.along stops) (binding.along_note type).to_word
  exact space.to_word.append_word behind

end BindingText

end ComponentPreview
