import ComponentPreview.Proofs.Type.Return
import Mathlib.Data.List.Basic

/-!
# Conditional expressions

Behind a call a colon may begin a return type or the other branch of a conditional expression. The
rule for return types goes by what follows the colon, so it leaves an expression alone just if that
does not read as a type before a block (`conditional_unchanged_iff`).
-/

namespace ComponentPreview

open Pattern Annotation

namespace Annotation

variable {here : Cursor} {found : Match} {other : List Char}

/-- A conditional expression with a call in its first branch. -/
def conditionalText (condition function : Identifier) (other : List Char) : List Char :=
  condition.text ++ " ? ".toList ++ function.text ++ "(".toList ++ ')' :: (" : ".toList ++ other)

/-- A text begins with a name, and a brace opens before any other sign that ends a type. -/
def readsAsType (text : List Char) : Bool :=
  begins isNameStart (text.dropWhile isBlank) && text.find? (!isTypeChar ·) == some '\x7b'

theorem shorter_of_returnType (h : returnType.at? here = some found) :
    [')'].length < found.text.length := by
  have closes : ')' ∈ found.text :=
    (infix_of_at? [')'] rfl h).subset (List.mem_singleton_self _)
  have colon : ':' ∈ found.text :=
    (infix_of_at? [':'] rfl h).subset (List.mem_singleton_self _)
  match text : found.text with
  | [] =>
      rw [text] at closes
      cases closes
  | [c] =>
      rw [text, List.mem_singleton] at closes colon
      exact absurd (closes.trans colon.symm) (by decide)
  | c :: d :: rest => simp

theorem isTypeChar_of_isBlank {c : Char} (blank : isBlank c = true) : isTypeChar c = true :=
  TypeExpr.isTypeChar_of_not_mem_signs fun sign => by simp [not_isBlank_of_mem_signs sign] at blank

theorem isTypeChar_of_isNameStart {c : Char} (isStart : isNameStart c = true) :
    isTypeChar c = true :=
  TypeExpr.isTypeChar_of_not_mem_signs fun sign => by
    have isName := isNameChar_of_isNameStart c isStart
    simp [not_isNameChar_of_mem_signs sign] at isName

theorem exists_of_beginsAfterBlanks {mark : Char} {text : List Char}
    (h : beginsAfterBlanks mark text = true) :
    ∃ blanks rest, text = blanks ++ mark :: rest ∧ ∀ c ∈ blanks, isBlank c = true := by
  induction text with
  | nil => cases h
  | cons c text ih =>
      simp only [beginsAfterBlanks, Bool.or_eq_true, beq_iff_eq, Bool.and_eq_true] at h
      rcases h with rfl | ⟨blank, h⟩
      · exact ⟨[], text, rfl, List.forall_mem_nil _⟩
      · obtain ⟨blanks, rest, rfl, areBlank⟩ := ih h
        exact ⟨c :: blanks, rest, rfl, List.forall_mem_cons.2 ⟨blank, areBlank⟩⟩

theorem readsAsType_iff {text : List Char} :
    readsAsType text = true ↔ ∃ blanks c word rest, text = blanks ++ c :: (word ++ '\x7b' :: rest) ∧
      (∀ d ∈ blanks, isBlank d = true) ∧ isNameStart c = true ∧
      ∀ d ∈ word, isTypeChar d = true := by
  rw [readsAsType, Bool.and_eq_true, beq_iff_eq]
  constructor
  · rintro ⟨named, opens⟩
    have areBlank : ∀ d ∈ text.takeWhile isBlank, isBlank d = true :=
      List.all_eq_true.1 List.all_takeWhile
    have split := List.takeWhile_append_dropWhile (p := isBlank) (l := text)
    cases visible : text.dropWhile isBlank with
    | nil =>
        rw [visible] at named
        cases named
    | cons c tail =>
        rw [visible] at named split
        have isStart : isNameStart c = true := named
        have skipped : (text.takeWhile isBlank).find? (!isTypeChar ·) = none :=
          List.find?_eq_none.2 fun d mem => by simp [isTypeChar_of_isBlank (areBlank d mem)]
        rw [← split, List.find?_append, skipped, Option.none_or,
          List.find?_cons_of_neg (by simp [isTypeChar_of_isNameStart isStart]),
          List.find?_eq_some_iff_append] at opens
        obtain ⟨-, word, rest, rfl, plain⟩ := opens
        exact ⟨_, c, word, rest, split.symm, areBlank, isStart, by simpa using plain⟩
  · rintro ⟨blanks, c, word, rest, rfl, areBlank, isStart, plain⟩
    have shown := not_isBlank_of_isNameChar (isNameChar_of_isNameStart c isStart)
    rw [List.dropWhile_append_of_pos areBlank, List.dropWhile_cons_of_neg (by simp [shown])]
    refine ⟨isStart, List.find?_eq_some_iff_append.2 ⟨by decide, blanks ++ c :: word, rest, by simp,
      fun d mem => ?_⟩⟩
    have flat : isTypeChar d = true := by
      rcases List.mem_append.1 mem with mem | mem
      · exact isTypeChar_of_isBlank (areBlank d mem)
      · rcases List.mem_cons.1 mem with rfl | mem
        · exact isTypeChar_of_isNameStart isStart
        · exact plain d mem
    simp [flat]

/-- The pattern fits behind a call just if what follows the colon reads as a type. -/
theorem returnType_fits_iff (rest_eq : here.rest = ')' :: (" : ".toList ++ other)) :
    (∃ last, last ∈ returnType.ends ⟨here, []⟩) ↔ readsAsType other = true := by
  have space : isBlank ' ' = true := by decide
  rw [readsAsType_iff]
  constructor
  · rintro ⟨last, ends⟩
    obtain ⟨blanks, blanks', c, place, rest_eq', areBlank, areBlank', isStart, ends⟩ :=
      exists_of_mem_annotated ends
    obtain ⟨word, there, reads, plain, ended, -⟩ := mem_ends_few.1 ends
    obtain ⟨blanks'', rest, behind, areBlank''⟩ := exists_of_beginsAfterBlanks ended
    have shown := not_isBlank_of_isNameChar (isNameChar_of_isNameStart c isStart)
    rw [rest_eq, List.cons.injEq] at rest_eq'
    obtain ⟨-, -, behind_eq⟩ := Text.first_unique (!isBlank ·)
      (show [' '] ++ ':' :: (' ' :: other) = blanks ++ ':' :: (blanks' ++ c :: place.rest) from
        rest_eq'.2) (by simp [space]) (by decide) (by simpa using areBlank) (by decide)
    cases blanks' with
    | nil =>
        obtain ⟨rfl, -⟩ := List.cons.inj behind_eq
        rw [space] at shown
        cases shown
    | cons d blanks' =>
        rw [List.cons_append, List.cons.injEq] at behind_eq
        refine ⟨blanks', c, word ++ blanks'', rest, ?_,
          (List.forall_mem_cons.1 areBlank').2, isStart, List.forall_mem_append.2 ⟨plain, ?_⟩⟩
        · rw [behind_eq.2, reads.rest_eq, behind, List.append_assoc]
        · exact fun d mem => isTypeChar_of_isBlank (areBlank'' d mem)
  · rintro ⟨blanks, c, word, rest, rfl, areBlank, isStart, plain⟩
    have shown := not_isBlank_of_isNameChar (isNameChar_of_isNameStart c isStart)
    obtain ⟨place₁, reads₁, rest_eq₁⟩ := exists_reads ")".toList rest_eq
    obtain ⟨first, spaced, rest_eq₂⟩ := exists_spacing ⟨place₁, []⟩
      (show place₁.rest = [' '] ++ ':' :: (' ' :: (blanks ++ c :: (word ++ '\x7b' :: rest))) from
        rest_eq₁) (by simp [space]) (by decide)
    obtain ⟨place₃, reads₃, rest_eq₃⟩ := exists_reads ":".toList rest_eq₂
    obtain ⟨second, spaced', rest_eq₄⟩ := exists_spacing (first.moveTo place₃)
      (show place₃.rest = (' ' :: blanks) ++ c :: (word ++ '\x7b' :: rest) from rest_eq₃)
      (List.forall_mem_cons.2 ⟨space, areBlank⟩) shown
    obtain ⟨place₅, reads₅, rest_eq₅⟩ := exists_reads [c] rest_eq₄
    obtain ⟨place₆, reads₆, rest_eq₆⟩ := exists_reads word rest_eq₅
    have ended : beginsAfterBlanks '\x7b' place₆.rest = true := by
      rw [rest_eq₆]
      rfl
    rw [returnType_eq, annotated]
    exact ⟨_, mem_ends_append.2 ⟨_, mem_ends_lit.2 ⟨place₁, reads₁, rfl⟩, mem_ends_append.2
      ⟨first, spaced, mem_ends_append.2 ⟨_, mem_ends_lit.2 ⟨place₃, reads₃, rfl⟩,
        mem_ends_append.2 ⟨second, spaced', mem_ends_append.2
          ⟨_, mem_ends_one.2 ⟨c, place₅, isStart, reads₅, rfl⟩,
            mem_ends_few.2 ⟨word, place₆, reads₆, plain, ended, rfl⟩⟩⟩⟩⟩⟩⟩

/-- A conditional expression with a call in its first branch is left alone just if its other branch
does not read as a type before a block. -/
theorem conditional_unchanged_iff (condition function : Identifier) (closed : ')' ∉ other) :
    eraseReturnTypes (conditionalText condition function other) =
        conditionalText condition function other ↔
      readsAsType other = false := by
  have named (id : Identifier) : ')' ∉ id.text := fun mem => id.not_mem_signs mem (by decide)
  have unclosed : ')' ∉ condition.text ++ " ? ".toList ++ function.text ++ "(".toList := by
    simp [named]
  rw [eraseReturnTypes, replace_eq_self_iff fun _ _ => shorter_of_returnType, Bool.eq_false_iff,
    Bool.eq_false_iff]
  refine not_congr ?_
  rw [occursIn_iff, conditionalText]
  obtain ⟨place, reads, rest_eq⟩ := exists_reads_start
    (condition.text ++ " ? ".toList ++ function.text ++ "(".toList) (')' :: (" : ".toList ++ other))
  rw [← returnType_fits_iff rest_eq]
  constructor
  · rintro ⟨lead, here, last, reads', ends⟩
    -- The only closing parenthesis of the text is that of the call.
    obtain ⟨blanks, blanks', c, there, here_eq, -⟩ := exists_of_mem_annotated ends
    have behind : ')' ∉ " : ".toList ++ other := by simp [closed]
    have text_eq := reads'.rest_eq
    rw [here_eq] at text_eq
    obtain ⟨rfl, -⟩ := (List.append_cons_inj_of_notMem unclosed behind).1 text_eq
    rw [reads'.unique reads] at ends
    exact ⟨last, ends⟩
  · rintro ⟨last, ends⟩
    exact ⟨_, place, last, reads, ends⟩

theorem object_branch_unchanged :
    let other := "\x7b a: 1 \x7d".toList
    let ok : Identifier := .of 'o' ['k'] rfl rfl
    let f : Identifier := .of 'f' [] rfl rfl
    ')' ∉ other ∧ readsAsType other = false ∧
      conditionalText ok f other = "ok ? f() : \x7b a: 1 \x7d".toList ∧
      eraseReturnTypes (conditionalText ok f other) = conditionalText ok f other := by
  intro other ok f
  have closed : ')' ∉ other := by decide
  have other_reads : readsAsType other = false := by decide
  exact ⟨closed, other_reads, by decide, (conditional_unchanged_iff ok f closed).2 other_reads⟩

/-- The other branch begins with a name, and what comes before its object is lost. -/
theorem name_before_object_lost :
    let other := "g || \x7b a: 1 \x7d".toList
    let ok : Identifier := .of 'o' ['k'] rfl rfl
    let f : Identifier := .of 'f' [] rfl rfl
    ')' ∉ other ∧ conditionalText ok f other = "ok ? f() : g || \x7b a: 1 \x7d".toList ∧
      eraseReturnTypes (conditionalText ok f other) = "ok ? f() \x7b a: 1 \x7d".toList ∧
      eraseReturnTypes (conditionalText ok f other) ≠ conditionalText ok f other := by
  decide +kernel

end Annotation

end ComponentPreview
