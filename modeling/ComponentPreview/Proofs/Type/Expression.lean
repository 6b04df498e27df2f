import ComponentPreview.Proofs.Source.Component
import ComponentPreview.Proofs.Text.Preference

/-!
# Type expressions

The types of annotations and aliases as trees, with the text that each of them spells. The rules
know no trees: what their scans rely on is proved of the text, by induction on the tree.
-/

namespace ComponentPreview

structure Identifier where
  text : List Char
  spelled : Component.IsIdentifier text

def Identifier.of (first : Char) (others : List Char) (isStart : isNameStart first = true)
    (names : others.all isNameChar = true) : Identifier :=
  ⟨first :: others, first, others, rfl, isStart, List.all_eq_true.1 names⟩

/-- White space within a line. -/
structure Gap where
  text : List Char
  within : ∀ c ∈ text, isBlank c = true ∧ c ≠ '\n'

/-- What stands before the type of a member or a parameter. -/
structure Label where
  name : Identifier
  front : Gap
  back : Gap

inductive Separator
  | comma
  | semicolon

def Separator.mark : Separator → Char
  | comma => ','
  | semicolon => ';'

/-- What a tree stands for: a type, or the entries between two brackets. -/
inductive Part
  | type
  | entries (separator : Separator)

/-- A type whose string literals hold only words of a kind. Entries may carry a label, and may end
with a separator. -/
inductive TypeExpr (IsWord : List Char → Prop) : Part → Type
  | name (id : Identifier) : TypeExpr IsWord .type
  | literal (quote : Char) (word : List Char) (isQuote : Pattern.isQuoteMark quote = true)
      (isWord : IsWord word) : TypeExpr IsWord .type
  | array (item : TypeExpr IsWord .type) : TypeExpr IsWord .type
  | generic (id : Identifier) (arguments : TypeExpr IsWord (.entries .comma)) :
      TypeExpr IsWord .type
  | tuple (items : TypeExpr IsWord (.entries .comma)) : TypeExpr IsWord .type
  | object (members : TypeExpr IsWord (.entries .semicolon)) : TypeExpr IsWord .type
  | union (left : TypeExpr IsWord .type) (front back : Gap) (right : TypeExpr IsWord .type) :
      TypeExpr IsWord .type
  | function (parameters : TypeExpr IsWord (.entries .comma)) (front back : Gap)
      (result : TypeExpr IsWord .type) : TypeExpr IsWord .type
  | nothing {separator : Separator} (gap : Gap) : TypeExpr IsWord (.entries separator)
  | last {separator : Separator} (front : Gap) (label : Option Label)
      (item : TypeExpr IsWord .type) (back : Gap) : TypeExpr IsWord (.entries separator)
  | more {separator : Separator} (front : Gap) (label : Option Label)
      (item : TypeExpr IsWord .type) (back : Gap)
      (others : TypeExpr IsWord (.entries separator)) : TypeExpr IsWord (.entries separator)

/-- A type without string literals. -/
abbrev PlainType := TypeExpr (fun _ => False) .type

/-- The signs that put a type together. -/
def signs : List Char :=
  "()[]\x7b\x7d<>,;:|=".toList

theorem not_isNameChar_of_mem_signs {c : Char} (sign : c ∈ signs) : isNameChar c = false :=
  Bool.eq_false_iff.2 (List.any_eq_false.1 (by decide) c sign)

theorem not_isBlank_of_mem_signs {c : Char} (sign : c ∈ signs) : isBlank c = false :=
  Bool.eq_false_iff.2 (List.any_eq_false.1 (by decide) c sign)

theorem Identifier.isNameChar_of_mem (id : Identifier) {c : Char} (mem : c ∈ id.text) :
    isNameChar c = true :=
  Component.isNameChar_of_mem_identifier id.spelled c mem

theorem not_isBlank_of_isNameChar {c : Char} (isName : isNameChar c = true) :
    isBlank c = false := by
  refine Bool.eq_false_iff.2 fun blank => ?_
  rw [not_isNameChar_of_isBlank blank] at isName
  cases isName

theorem Identifier.exists_head (id : Identifier) :
    ∃ c others, id.text = c :: others ∧ isNameStart c = true ∧ isBlank c = false := by
  obtain ⟨c, others, eq, start, -⟩ := id.spelled
  exact ⟨c, others, eq, start, not_isBlank_of_isNameChar (isNameChar_of_isNameStart c start)⟩

/-- A whole identifier is read. -/
theorem Identifier.prefers {isFirst : Char → Bool} {here there : Cursor} (id : Identifier)
    (first : ∀ c, isNameStart c = true → isFirst c = true) (reads : here.Reads id.text there)
    (stop : Pattern.begins isNameChar there.rest = false) :
    (Pattern.one isFirst ++ Pattern.every isNameChar).Prefers here there := by
  obtain ⟨c, others, eq, start, names⟩ := id.spelled
  rw [eq, ← List.singleton_append] at reads
  obtain ⟨middle, front, back⟩ := reads.exists_middle
  exact .append (.one (first c start) front) (.every back names stop)

theorem Identifier.not_mem_signs (id : Identifier) {c : Char} (mem : c ∈ id.text) :
    c ∉ signs := by
  intro sign
  simpa [not_isNameChar_of_mem_signs sign] using id.isNameChar_of_mem mem

theorem Gap.not_mem_signs (gap : Gap) {c : Char} (mem : c ∈ gap.text) : c ∉ signs := by
  intro sign
  simpa [not_isBlank_of_mem_signs sign] using (gap.within c mem).1

def Label.text (label : Label) : List Char :=
  label.name.text ++ (label.front.text ++ ':' :: label.back.text)

namespace TypeExpr

variable {IsWord : List Char → Prop} {part : Part}

def labelText (label : Option Label) : List Char :=
  label.elim [] Label.text

theorem labelText_induction {P : List Char → Prop}
    (append : ∀ {text other}, P text → P other → P (text ++ other))
    (name : ∀ id : Identifier, P id.text) (gap : ∀ gap : Gap, P gap.text) (colon : P [':'])
    (label : Option Label) : P (labelText label) := by
  cases label with
  | none => exact gap ⟨[], List.forall_mem_nil _⟩
  | some label => exact append (name _) (append (gap _) (append colon (gap _)))

def text {part : Part} : TypeExpr IsWord part → List Char
  | name id => id.text
  | literal quote word _ _ => quote :: (word ++ [quote])
  | array item => item.text ++ ['[', ']']
  | generic id arguments => id.text ++ '<' :: (arguments.text ++ ['>'])
  | tuple items => '[' :: (items.text ++ [']'])
  | object members => '\x7b' :: (members.text ++ ['\x7d'])
  | union left front back right => left.text ++ (front.text ++ '|' :: (back.text ++ right.text))
  | function parameters front back result =>
      '(' :: (parameters.text ++ (')' :: (front.text ++ ['=', '>']) ++ (back.text ++ result.text)))
  | nothing gap => gap.text
  | last front label item back => front.text ++ (labelText label ++ (item.text ++ back.text))
  | @more _ separator front label item back others =>
      front.text ++ (labelText label ++ (item.text ++ (back.text ++
        separator.mark :: others.text)))

/-- What stands between the quote marks of the literals. -/
def words {part : Part} : TypeExpr IsWord part → List (List Char)
  | name _ | nothing _ => []
  | literal _ word _ _ => [word]
  | array item => item.words
  | generic _ arguments => arguments.words
  | tuple items => items.words
  | object members => members.words
  | union left _ _ right => left.words ++ right.words
  | function parameters _ _ result => parameters.words ++ result.words
  | last _ _ item _ => item.words
  | more _ _ item _ others => item.words ++ others.words

/-- How deep function types nest. -/
def functionDepth {part : Part} : TypeExpr IsWord part → Nat
  | name _ | literal _ _ _ _ | nothing _ => 0
  | array item => item.functionDepth
  | generic _ arguments => arguments.functionDepth
  | tuple items => items.functionDepth
  | object members => members.functionDepth
  | union left _ _ right => max left.functionDepth right.functionDepth
  | function parameters _ _ result => max parameters.functionDepth result.functionDepth + 1
  | last _ _ item _ => item.functionDepth
  | more _ _ item _ others => max item.functionDepth others.functionDepth

/-- What holds of every piece of a type and of what is put together holds of the whole. -/
theorem text_induction {P : List Char → Prop}
    (append : ∀ {text other}, P text → P other → P (text ++ other))
    (name : ∀ id : Identifier, P id.text) (gap : ∀ gap : Gap, P gap.text)
    (literal : ∀ quote word, Pattern.isQuoteMark quote = true → IsWord word →
      P (quote :: (word ++ [quote])))
    (mark : ∀ c ∈ signs, c ≠ ')' → c ≠ '=' → P [c])
    (arrow : ∀ gap : Gap, P (')' :: (gap.text ++ ['=', '>'])))
    (type : TypeExpr IsWord part) : P type.text := by
  have sign {c : Char} {other : List Char} (mem : c ∈ signs ∧ c ≠ ')' ∧ c ≠ '=')
      (h : P other) : P (c :: other) :=
    append (mark c mem.1 mem.2.1 mem.2.2) h
  have nil : P [] := gap ⟨[], List.forall_mem_nil _⟩
  have label : ∀ label, P (labelText label) :=
    labelText_induction append name gap (sign (by decide) nil)
  induction type with
  | name id => exact name id
  | literal quote word isQuote isWord => exact literal quote word isQuote isWord
  | array item ih => exact append ih (sign (by decide) (sign (by decide) nil))
  | generic id arguments ih =>
      exact append (name id) (sign (by decide) (append ih (sign (by decide) nil)))
  | tuple items ih => exact sign (by decide) (append ih (sign (by decide) nil))
  | object members ih => exact sign (by decide) (append ih (sign (by decide) nil))
  | union left front back right ihl ihr =>
      exact append ihl (append (gap front) (sign (by decide) (append (gap back) ihr)))
  | function parameters front back result ihp ihr =>
      exact sign (by decide) (append ihp (append (arrow front) (append (gap back) ihr)))
  | nothing space => exact gap space
  | last front label' item back ih =>
      exact append (gap front) (append (label label') (append ih (gap back)))
  | @more separator front label' item back others ih ihs =>
      have separated : P (separator.mark :: others.text) := by
        cases separator <;> exact sign (by decide) ihs
      exact append (gap front) (append (label label') (append ih (append (gap back) separated)))

end TypeExpr

/-- Whenever a character occurs, what follows it is of a kind. -/
def Followed (c : Char) (Q : List Char → Prop) (text : List Char) : Prop :=
  ∀ front rest, text = front ++ c :: rest → Q rest

namespace Followed

variable {c d : Char} {Q : List Char → Prop} {text other : List Char}

theorem of_not_mem (absent : c ∉ text) : Followed c Q text := by
  rintro front rest rfl
  simp at absent

theorem tail (h : Followed c Q (d :: text)) : Followed c Q text := by
  rintro front rest rfl
  exact h (d :: front) rest rfl

theorem append (goes : ∀ {rest other}, Q rest → Q (rest ++ other)) (h : Followed c Q text)
    (h' : Followed c Q other) : Followed c Q (text ++ other) := by
  intro front rest whole
  rcases List.append_eq_append_iff.1 whole with ⟨more, rfl, eq⟩ | ⟨more, rfl, eq⟩
  · exact h' more rest eq
  · cases more with
    | nil => exact h' [] rest eq.symm
    | cons d more =>
        rw [List.cons_append, List.cons.injEq] at eq
        obtain ⟨rfl, rfl⟩ := eq
        exact goes (h front more rfl)

end Followed

/-- What follows a closing parenthesis, or an equals sign, is seen from the arrows. -/
theorem TypeExpr.followed {c : Char} {Q : List Char → Prop}
    (goes : ∀ {rest other}, Q rest → Q (rest ++ other)) (isArrow : c = ')' ∨ c = '=')
    (arrow : ∀ gap : Gap, Followed c Q (')' :: (gap.text ++ ['=', '>']))) (type : PlainType) :
    Followed c Q type.text := by
  have sign : c ∈ signs := by
    rcases isArrow with rfl | rfl <;> decide
  refine text_induction (.append goes) ?_ ?_ ?_ ?_ arrow type
  · exact fun id => .of_not_mem fun mem => id.not_mem_signs mem sign
  · exact fun gap => .of_not_mem fun mem => gap.not_mem_signs mem sign
  · exact fun quote word isQuote isWord => isWord.elim
  · intro d _ open' plain
    refine .of_not_mem fun mem => ?_
    rw [List.mem_singleton.1 mem] at isArrow
    exact isArrow.elim open' plain

end ComponentPreview
