import ComponentPreview.Proofs.Export.Listing
import ComponentPreview.Proofs.Text.Preference
import ComponentPreview.Proofs.Type.Expression
import ComponentPreview.Script.Annotation

/-!
# Return types

A return type is found if it begins with a name, and up to its first brace or parenthesis. So it is
erased if it holds neither an object type nor a function type, and an arrow function keeps its type
otherwise (`returnTypes_erased`).
-/

namespace ComponentPreview

open Pattern Annotation

/-! ## The text of a type -/

def BeginsArrow (rest : List Char) : Prop :=
  ∃ blanks more, rest = blanks ++ '=' :: more ∧ ∀ c ∈ blanks, isBlank c = true

theorem BeginsArrow.goes {rest other : List Char} (h : BeginsArrow rest) :
    BeginsArrow (rest ++ other) := by
  obtain ⟨blanks, more, rfl, areBlank⟩ := h
  exact ⟨blanks, more ++ other, by simp, areBlank⟩

namespace TypeExpr

variable {part : Part}

/-- A closing parenthesis of a type is followed by an arrow. -/
theorem beginsArrow (type : PlainType) : Followed ')' BeginsArrow type.text := by
  refine followed BeginsArrow.goes (.inl rfl) (fun gap front rest whole => ?_) type
  cases front with
  | nil =>
      obtain rfl := (List.cons.inj whole).2
      exact ⟨gap.text, ['>'], rfl, fun c mem => (gap.within c mem).1⟩
  | cons d front =>
      have only : ')' ∉ gap.text ++ ['=', '>'] := by
        simpa using fun mem => gap.not_mem_signs mem (by decide)
      rw [(List.cons.inj whole).2] at only
      simp at only

theorem exists_head (type : TypeExpr (fun _ => False) part) (isType : part = .type) :
    ∃ c rest, type.text = c :: rest ∧ isBlank c = false := by
  induction type with
  | name id =>
      obtain ⟨c, others, eq, -, shown⟩ := id.exists_head
      exact ⟨c, others, eq, shown⟩
  | literal quote word isQuote isWord => exact isWord.elim
  | array item ih =>
      obtain ⟨c, rest, eq, shown⟩ := ih rfl
      exact ⟨c, rest ++ ['[', ']'], by rw [text, eq]; rfl, shown⟩
  | generic id arguments =>
      obtain ⟨c, others, eq, -, shown⟩ := id.exists_head
      exact ⟨c, _, by rw [text, eq]; rfl, shown⟩
  | tuple items => exact ⟨'[', _, rfl, by decide⟩
  | object members => exact ⟨'\x7b', _, rfl, by decide⟩
  | union left front back right ihl =>
      obtain ⟨c, rest, eq, shown⟩ := ihl rfl
      exact ⟨c, _, by rw [text, eq]; rfl, shown⟩
  | function parameters front back result => exact ⟨'(', _, rfl, by decide⟩
  | nothing | last | more => cases isType

theorem exists_last (type : TypeExpr (fun _ => False) part) (isType : part = .type) :
    ∃ front c, type.text = front ++ [c] ∧ isBlank c = false := by
  induction type with
  | name id =>
      rcases List.eq_nil_or_concat id.text with empty | ⟨front, c, eq⟩
      · obtain ⟨_, _, eq, -⟩ := id.spelled
        cases eq.symm.trans empty
      · rw [List.concat_eq_append] at eq
        exact ⟨front, c, eq, not_isBlank_of_isNameChar (id.isNameChar_of_mem (by simp [eq]))⟩
  | literal quote word isQuote isWord => exact isWord.elim
  | array item => exact ⟨item.text ++ ['['], ']', by simp [text], by decide⟩
  | generic id arguments =>
      exact ⟨id.text ++ '<' :: arguments.text, '>', by simp [text], by decide⟩
  | tuple items => exact ⟨'[' :: items.text, ']', by simp [text], by decide⟩
  | object members => exact ⟨'\x7b' :: members.text, '\x7d', by simp [text], by decide⟩
  | union left front back right ihl ihr =>
      obtain ⟨lead, c, eq, shown⟩ := ihr rfl
      exact ⟨left.text ++ (front.text ++ '|' :: (back.text ++ lead)), c, by simp [text, eq], shown⟩
  | function parameters front back result ihp ihr =>
      obtain ⟨lead, c, eq, shown⟩ := ihr rfl
      exact ⟨'(' :: (parameters.text ++ (')' :: (front.text ++ ['=', '>']) ++ (back.text ++ lead))),
        c, by simp [text, eq], shown⟩
  | nothing | last | more => cases isType

/-- Up to its first brace or parenthesis a text holds only what a return type may hold. -/
def OpensPlain (text : List Char) : Prop :=
  ∀ front, front <+: text → (∀ c ∈ front, c ≠ '\x7b' ∧ c ≠ '(') →
    ∀ c ∈ front, isTypeChar c = true

theorem OpensPlain.append {text other : List Char} (h : OpensPlain text) (h' : OpensPlain other) :
    OpensPlain (text ++ other) := by
  intro front isPrefix flat
  rcases List.prefix_or_prefix_of_prefix isPrefix (List.prefix_append text other) with
    within | ⟨more, rfl⟩
  · exact h front within flat
  · have within := (List.prefix_append_right_inj text).1 isPrefix
    obtain ⟨flat, flat'⟩ := List.forall_mem_append.1 flat
    exact List.forall_mem_append.2 ⟨h text (List.prefix_refl _) flat, h' more within flat'⟩

theorem OpensPlain.of_isTypeChar {text : List Char} (h : ∀ c ∈ text, isTypeChar c = true) :
    OpensPlain text :=
  fun _ isPrefix _ c mem => h c (isPrefix.subset mem)

theorem OpensPlain.of_opener {c : Char} {text : List Char} (opener : c = '\x7b' ∨ c = '(') :
    OpensPlain (c :: text) := by
  intro front isPrefix flat
  rcases List.prefix_cons_iff.1 isPrefix with rfl | ⟨more, rfl, -⟩
  · simp
  · have plain := flat c List.mem_cons_self
    exact absurd opener (not_or.2 plain)

theorem isTypeChar_of_not_mem_signs {c : Char} (unsigned : c ∉ signs) : isTypeChar c = true := by
  have other {d : Char} (sign : d ∈ signs) : c ≠ d := by
    rintro rfl
    exact unsigned sign
  simp only [isTypeChar, Bool.not_eq_true', Bool.or_eq_false_iff, beq_eq_false_iff_ne]
  exact ⟨⟨⟨⟨⟨other (by decide), other (by decide)⟩, other (by decide)⟩, other (by decide)⟩,
    other (by decide)⟩, other (by decide)⟩

theorem opensPlain (type : TypeExpr (fun _ => False) part) (other : part ≠ .entries .semicolon) :
    OpensPlain type.text := by
  have unsigned {text : List Char} (h : ∀ c ∈ text, c ∉ signs) : OpensPlain text :=
    .of_isTypeChar fun c mem => isTypeChar_of_not_mem_signs (h c mem)
  have name (id : Identifier) : OpensPlain id.text := unsigned fun _ => id.not_mem_signs
  have gap (gap : Gap) : OpensPlain gap.text := unsigned fun _ => gap.not_mem_signs
  have mark {c : Char} {text : List Char} (plain : isTypeChar c = true) (h : OpensPlain text) :
      OpensPlain (c :: text) :=
    (OpensPlain.of_isTypeChar (by simpa using plain) : OpensPlain [c]).append h
  have nil : OpensPlain [] := unsigned (by simp)
  have label : ∀ label, OpensPlain (labelText label) :=
    labelText_induction OpensPlain.append name gap (mark (by decide) nil)
  induction type with
  | name id => exact name id
  | literal quote word isQuote isWord => exact isWord.elim
  | array item ih => exact (ih (by simp)).append (mark (by decide) (mark (by decide) nil))
  | generic id arguments ih =>
      exact (name id).append (mark (by decide) ((ih (by simp)).append (mark (by decide) nil)))
  | tuple items ih => exact mark (by decide) ((ih (by simp)).append (mark (by decide) nil))
  | object members => exact .of_opener (.inl rfl)
  | union left front back right ihl ihr =>
      exact (ihl (by simp)).append ((gap _).append (mark (by decide) ((gap _).append
        (ihr (by simp)))))
  | function parameters front back result => exact .of_opener (.inr rfl)
  | nothing space => exact gap space
  | last front label' item back ih =>
      exact (gap _).append ((label label').append ((ih (by simp)).append (gap _)))
  | @more separator front label' item back others ih ihs =>
      obtain rfl : separator = .comma := by
        cases separator with
        | comma => rfl
        | semicolon => exact absurd rfl other
      exact (gap _).append ((label label').append ((ih (by simp)).append ((gap _).append
        (mark (by decide) (ihs other)))))

end TypeExpr

namespace Annotation

variable {here middle there : Cursor} {first last : Progress} {tail : Pattern}
  {text word rest : List Char} {mark c : Char}

/-! ## A type behind a parenthesis -/

/-- A type behind a parenthesis as far as its first character. -/
def annotated (tail : Pattern) : Pattern :=
  lit ")" ++ (spacing ++ (lit ":" ++ (spacing ++ (one isNameStart ++ tail))))

theorem returnType_eq :
    returnType = annotated (few isTypeChar (beginsAfterBlanks '\x7b')) :=
  rfl

theorem arrowReturnType_eq : arrowReturnType =
    annotated (few isTypeChar (beginsAfterBlanks '=') ++ (spacing ++ lit "=>")) :=
  rfl

theorem exists_of_mem_annotated (h : last ∈ (annotated tail).ends ⟨here, []⟩) :
    ∃ blanks blanks' c place, here.rest = ')' :: (blanks ++ ':' :: (blanks' ++ c :: place.rest)) ∧
      (∀ d ∈ blanks, isBlank d = true) ∧ (∀ d ∈ blanks', isBlank d = true) ∧
      isNameStart c = true ∧ last ∈ tail.ends ⟨place, []⟩ := by
  obtain ⟨_, closes, ends⟩ := mem_ends_append.1 h
  obtain ⟨_, spaces, ends⟩ := mem_ends_append.1 ends
  obtain ⟨_, colons, ends⟩ := mem_ends_append.1 ends
  obtain ⟨_, spaces', ends⟩ := mem_ends_append.1 ends
  obtain ⟨_, starts, ends⟩ := mem_ends_append.1 ends
  obtain ⟨place₁, reads₁, rfl⟩ := mem_ends_lit.1 closes
  obtain ⟨blanks, place₂, reads₂, areBlank, -, rfl⟩ := mem_ends_every.1 spaces
  obtain ⟨place₃, reads₃, rfl⟩ := mem_ends_lit.1 colons
  obtain ⟨blanks', place₄, reads₄, areBlank', -, rfl⟩ := mem_ends_every.1 spaces'
  obtain ⟨c, place₅, isStart, reads₅, rfl⟩ := mem_ends_one.1 starts
  have whole := (reads₁.trans (reads₂.trans (reads₃.trans (reads₄.trans reads₅)))).rest_eq
  exact ⟨blanks, blanks', c, place₅, by simpa using whole, areBlank, areBlank', isStart, ends⟩

theorem annotated_heads (here : Cursor) (found : Match)
    (found_at : (annotated tail).at? here = some found) : here.rest.head? = some ')' := by
  obtain ⟨last, ends, -⟩ := exists_end_of_at? found_at
  obtain ⟨blanks, blanks', c, place, rest_eq, -⟩ := exists_of_mem_annotated ends
  rw [rest_eq]
  rfl

/-- A colon is not the first thing of an arrow. -/
theorem passes_arrows (reads : here.Reads word there) (arrows : Followed ')' BeginsArrow word) :
    (annotated tail).Passes here word := by
  intro lead middle reads' shorter
  rw [← Option.not_isSome_iff_eq_none, isSome_at?]
  rintro ⟨last, ends⟩
  obtain ⟨blanks, blanks', c, place, rest_eq, areBlank, -⟩ := exists_of_mem_annotated ends
  obtain ⟨d, others, rfl, ahead⟩ := reads.exists_ahead reads' shorter
  rw [rest_eq, List.cons.injEq] at ahead
  obtain ⟨rfl, behind⟩ := ahead
  -- The first visible character would have to be a colon and an equals sign.
  obtain ⟨spaces, more, rfl, areSpaces⟩ := arrows lead others rfl
  rw [List.append_assoc, List.cons_append] at behind
  have same := Text.first_unique (!isBlank ·) behind (by simpa using areBlank) (by decide)
    (by simpa using areSpaces) (by decide)
  exact absurd same.2.1 (by decide)

/-- The annotation of a type as it stands behind a parenthesis. -/
def typeNote (type : PlainType) : List Char :=
  ": ".toList ++ type.text

theorem arrows_typeNote (type : PlainType) : Followed ')' BeginsArrow (typeNote type) :=
  .append BeginsArrow.goes (.of_not_mem (by decide)) type.beginsArrow

/-- A type that is not found stays. -/
theorem replace_unfound (edit : Match → List Char) {front : List Char} (unclosed : ')' ∉ front)
    (arrows : Followed ')' BeginsArrow rest)
    (unfound : ∀ here : Cursor, here.rest = ')' :: rest →
      ∀ last, last ∉ (annotated tail).ends ⟨here, []⟩) :
    (annotated tail).replace edit (front ++ ')' :: rest) = front ++ ')' :: rest := by
  obtain ⟨place₁, reads₁, rest_eq₁⟩ := exists_reads_start front (')' :: rest)
  obtain ⟨place₂, reads₂, rest_eq₂⟩ := exists_reads [')'] rest_eq₁
  obtain ⟨place₃, reads₃, rest_eq₃⟩ := exists_reads_rest rest_eq₂
  have passes : (annotated tail).Passes place₁ [')'] := by
    intro lead middle reads shorter
    cases lead with
    | nil =>
        rw [Cursor.Reads.nil_iff.1 reads, ← Option.not_isSome_iff_eq_none, isSome_at?]
        rintro ⟨last, ends⟩
        exact unfound place₁ rest_eq₁ last ends
    | cons d lead => simp at shorter
  have rewrites : (annotated tail).Rewrites edit _ (front ++ ([')'] ++ rest)) place₃ :=
    (Rewrites.of_absent annotated_heads reads₁ unclosed).append
      ((Rewrites.of_passes reads₂ passes).append (.of_passes reads₃ (passes_arrows reads₃ arrows)))
  exact rewrites.replace_eq rest_eq₃

/-- What is found is replaced, and everything around it stays. -/
theorem replace_found {front out : List Char} (unclosed : ')' ∉ front) (unclosed' : ')' ∉ rest)
    (found : ∀ here there : Cursor, here.Reads (')' :: word) there → there.rest = rest →
      (annotated tail).Prefers here there) :
    (annotated tail).replace (fun _ => out) (front ++ (')' :: word ++ rest)) =
      front ++ (out ++ rest) := by
  obtain ⟨place₁, reads₁, rest_eq₁⟩ := exists_reads_start front (')' :: word ++ rest)
  obtain ⟨place₂, reads₂, rest_eq₂⟩ := exists_reads _ rest_eq₁
  obtain ⟨place₃, reads₃, rest_eq₃⟩ := exists_reads_rest rest_eq₂
  have middle : (annotated tail).Rewrites (fun _ => out) place₁ out place₂ :=
    .of_prefers (found place₁ place₂ reads₂ rest_eq₂) reads₂ (by simp) fun _ => rfl
  have rewrites := (Rewrites.of_absent annotated_heads reads₁ unclosed).append
    (middle.append (.of_absent annotated_heads reads₃ unclosed'))
  exact rewrites.replace_eq rest_eq₃

/-- Where the pattern looks for the type, it stands with its first character. -/
theorem exists_of_mem_typeNote (type : PlainType) (rest_eq : here.rest =
    ')' :: (typeNote type ++ rest)) (h : last ∈ (annotated tail).ends ⟨here, []⟩) :
    ∃ c others place, type.text = c :: others ∧ isNameStart c = true ∧
      place.rest = others ++ rest ∧ last ∈ tail.ends ⟨place, []⟩ := by
  obtain ⟨blanks, blanks', c, place, here_eq, areBlank, areBlank', isStart, ends⟩ :=
    exists_of_mem_annotated h
  obtain ⟨d, others, text_eq, shown⟩ := type.exists_head rfl
  have shown' := not_isBlank_of_isNameChar (isNameChar_of_isNameStart c isStart)
  have behind : blanks ++ ':' :: (blanks' ++ c :: place.rest) =
      [] ++ ':' :: ([' '] ++ d :: (others ++ rest)) := by
    rw [rest_eq, typeNote, text_eq] at here_eq
    exact (List.cons.inj here_eq).2.symm
  obtain ⟨-, -, behind⟩ := Text.first_unique (!isBlank ·) behind (by simpa using areBlank)
    (by decide) (by simp) (by decide)
  obtain ⟨-, rfl, place_eq⟩ := Text.first_unique (!isBlank ·) behind (by simpa using areBlank')
    (by simpa using shown') (by simp; decide) (by simpa using shown)
  exact ⟨c, others, place, text_eq, isStart, place_eq, ends⟩

theorem prefers_annotated (isStart : isNameStart c = true)
    (reads : here.Reads (")".toList ++ (":".toList ++ (" ".toList ++ [c]))) middle)
    (h : tail.Prefers middle there) : (annotated tail).Prefers here there := by
  obtain ⟨place₁, reads₁, reads⟩ := reads.exists_middle
  obtain ⟨place₂, reads₂, reads⟩ := reads.exists_middle
  obtain ⟨place₃, reads₃, reads₄⟩ := reads.exists_middle
  have unspaced : begins isBlank place₁.rest = false := by
    rw [reads₂.rest_eq]
    rfl
  have unspaced' : begins isBlank place₃.rest = false := by
    rw [reads₄.rest_eq]
    exact not_isBlank_of_isNameChar (isNameChar_of_isNameStart c isStart)
  have space : spacing.Prefers place₂ place₃ :=
    .every reads₃ (List.all_eq_true.1 (by decide)) unspaced'
  exact (Prefers.lit reads₁).append ((Prefers.every (.refl _) (by simp) unspaced).append
    ((Prefers.lit reads₂).append (space.append ((Prefers.one isStart reads₄).append h))))

/-! ## The end of a type -/

theorem beginsAfterBlanks_append (h : beginsAfterBlanks mark (text ++ rest) = true) :
    mark ∈ text ∨ (∀ d ∈ text, isBlank d = true) ∧ beginsAfterBlanks mark rest = true := by
  induction text with
  | nil => exact .inr ⟨by simp, h⟩
  | cons d text ih =>
      simp only [List.cons_append, beginsAfterBlanks, Bool.or_eq_true, Bool.and_eq_true,
        beq_iff_eq] at h
      rcases h with rfl | ⟨blank, h⟩
      · exact .inl List.mem_cons_self
      · rcases ih h with mem | ⟨blanks, h⟩
        · exact .inl (List.mem_cons_of_mem _ mem)
        · exact .inr ⟨List.forall_mem_cons.2 ⟨blank, blanks⟩, h⟩

/-- A brace or parenthesis stops the search, unless it is what is searched for. -/
theorem not_mem_ends_blocked {front : List Char} {opener : Char} (opens : isTypeChar opener = false)
    (plain : ∀ d ∈ front, isTypeChar d = true) (isMark : isTypeChar mark = false)
    (other : mark ≠ opener) (shown : isBlank opener = false)
    (rest_eq : here.rest = front ++ opener :: rest) :
    last ∉ (few isTypeChar (beginsAfterBlanks mark)).ends ⟨here, []⟩ := by
  intro ends
  obtain ⟨word, there, reads, within, ended, -⟩ := mem_ends_few.1 ends
  have whole := rest_eq.symm.trans reads.rest_eq
  obtain ⟨more, rfl, rest_eq'⟩ : ∃ more, front = word ++ more ∧
      there.rest = more ++ opener :: rest := by
    rcases List.append_eq_append_iff.1 whole with ⟨_ | ⟨d, more⟩, rfl, eq⟩ | parts
    · exact ⟨[], by simp, eq.symm⟩
    · rw [List.cons_append, List.cons.injEq] at eq
      obtain ⟨rfl, -⟩ := eq
      have inside := within opener (by simp)
      rw [opens] at inside
      cases inside
    · exact parts
  rw [rest_eq'] at ended
  rcases beginsAfterBlanks_append ended with mem | ⟨-, ended⟩
  · have inside := plain mark (List.mem_append_right _ mem)
    rw [isMark] at inside
    cases inside
  · simp [beginsAfterBlanks, shown, Ne.symm other] at ended

/-- The search goes on to the end of a type if the mark stands only behind it. -/
theorem prefers_rest {isIn : Char → Bool} (reads : here.Reads text there)
    (plain : ∀ d ∈ text, isIn d = true) (shown : ∀ d ∈ text.getLast?, isBlank d = false)
    (isMark : isIn mark = false) (rest_eq : there.rest = ' ' :: mark :: rest) :
    (few isIn (beginsAfterBlanks mark)).Prefers here there := by
  have space : isBlank ' ' = true := by decide
  have ended : beginsAfterBlanks mark there.rest = true := by
    rw [rest_eq]
    simp [beginsAfterBlanks, space]
  refine .few reads plain ended fun lead middle reads' shorter => ?_
  refine Bool.eq_false_iff.2 fun early => ?_
  obtain ⟨d, others, rfl, ahead⟩ := reads.exists_ahead reads' shorter
  rw [ahead, ← List.cons_append] at early
  rcases beginsAfterBlanks_append early with mem | ⟨areBlank, -⟩
  · have inside := plain mark (List.mem_append_right _ mem)
    rw [isMark] at inside
    cases inside
  · obtain ⟨front, e, eq⟩ := (d :: others).eq_nil_or_concat.resolve_left (by simp)
    rw [eq, List.concat_eq_append] at areBlank shown
    have visible := shown e (by simp)
    rw [areBlank e (by simp)] at visible
    cases visible

/-! ## Return types -/

/-- The first brace or parenthesis of a type. -/
def opener? (type : PlainType) : Option Char :=
  type.text.find? fun c => c == '\x7b' || c == '('

def functionText (name : Identifier) (note : List Char) : List Char :=
  "function ".toList ++ name.text ++ "(".toList ++ ')' :: (note ++ " \x7b".toList)

def arrowText (name value : Identifier) (note : List Char) : List Char :=
  "const ".toList ++ name.text ++ " = (".toList ++
    ')' :: (note ++ (" =>".toList ++ (" ".toList ++ value.text ++ ";".toList)))

variable {type : PlainType} {others : List Char}

/-- The search does not get past the first brace or parenthesis of a type. -/
theorem not_mem_ends_of_opener {opener : Char} (h : opener? type = some opener)
    (text_eq : type.text = c :: others) (isStart : isNameStart c = true)
    (rest_eq : here.rest = others ++ rest) (isMark : isTypeChar mark = false)
    (other : mark ≠ opener) : last ∉ (few isTypeChar (beginsAfterBlanks mark)).ends ⟨here, []⟩ := by
  obtain ⟨isOpener, front, behind, eq, flat⟩ := List.find?_eq_some_iff_append.1 h
  have opens : isTypeChar opener = false ∧ isBlank opener = false ∧ isNameStart opener = false := by
    simp only [Bool.or_eq_true, beq_iff_eq] at isOpener
    rcases isOpener with rfl | rfl <;> decide
  have flat' : ∀ d ∈ front, d ≠ '\x7b' ∧ d ≠ '(' := by simpa using flat
  have plain := type.opensPlain (by simp) front ⟨_, eq.symm⟩ flat'
  rw [text_eq] at eq
  cases front with
  | nil =>
      obtain ⟨rfl, -⟩ := List.cons.inj eq
      rw [opens.2.2] at isStart
      cases isStart
  | cons d front =>
      obtain ⟨-, rfl⟩ := List.cons.inj eq
      have behind_eq : here.rest = front ++ opener :: (behind ++ rest) := by simpa using rest_eq
      exact not_mem_ends_blocked opens.1 (fun d mem => plain d (List.mem_cons_of_mem _ mem)) isMark
        other opens.2.1 behind_eq

theorem prefers_type (h : opener? type = none) (text_eq : type.text = c :: others)
    (reads : here.Reads others there) (isMark : isTypeChar mark = false)
    (rest_eq : there.rest = ' ' :: mark :: rest) :
    (few isTypeChar (beginsAfterBlanks mark)).Prefers here there := by
  have flat : ∀ d ∈ type.text, d ≠ '\x7b' ∧ d ≠ '(' := by
    simpa [opener?] using h
  have plain := type.opensPlain (by simp) _ (List.prefix_refl _) flat
  obtain ⟨front, d, eq, shown⟩ := type.exists_last rfl
  refine prefers_rest reads (fun d mem => plain d (by simp [text_eq, mem])) ?_ isMark rest_eq
  intro d' last
  have whole : type.text.getLast? = some d' := by
    rw [text_eq, List.getLast?_cons, last]
    rfl
  rw [eq, List.getLast?_concat, Option.some.injEq] at whole
  rw [← whole]
  exact shown

theorem unclosed {front behind : List Char} (name : Identifier) (h : ')' ∉ front)
    (h' : ')' ∉ behind) : ')' ∉ front ++ name.text ++ behind := by
  rw [List.mem_append, List.mem_append, not_or, not_or]
  exact ⟨⟨h, fun mem => name.not_mem_signs mem (by decide)⟩, h'⟩

theorem eraseReturnTypes_stays (name : Identifier)
    (stays : begins isNameStart type.text = false ∨ opener? type = some '(') :
    eraseReturnTypes (functionText name (typeNote type)) =
      functionText name (typeNote type) := by
  refine replace_unfound _ (unclosed name (by decide) (by decide))
    ((arrows_typeNote type).append BeginsArrow.goes (.of_not_mem (by decide)))
    fun here rest_eq last ends => ?_
  obtain ⟨c, others, place, text_eq, isStart, place_eq, ends⟩ :=
    exists_of_mem_typeNote type rest_eq ends
  rcases stays with other | opener
  · rw [text_eq, begins, isStart] at other
    cases other
  · exact not_mem_ends_of_opener opener text_eq isStart place_eq (by decide) (by decide) ends

theorem eraseArrowReturnTypes_stays (name value : Identifier)
    (stays : begins isNameStart type.text = false ∨ opener? type ≠ none) :
    eraseArrowReturnTypes (arrowText name value (typeNote type)) =
      arrowText name value (typeNote type) := by
  have behind : ')' ∉ " =>".toList ++ (" ".toList ++ value.text ++ ";".toList) := by
    rw [List.mem_append, not_or]
    exact ⟨by decide, unclosed value (by decide) (by decide)⟩
  rw [eraseArrowReturnTypes, arrowReturnType_eq]
  refine replace_unfound _ (unclosed name (by decide) (by decide))
    ((arrows_typeNote type).append BeginsArrow.goes (.of_not_mem behind))
    fun here rest_eq last ends => ?_
  obtain ⟨c, others, place, text_eq, isStart, place_eq, ends⟩ :=
    exists_of_mem_typeNote type rest_eq ends
  obtain ⟨_, ends, -⟩ := mem_ends_append.1 ends
  rcases stays with other | some
  · rw [text_eq, begins, isStart] at other
    cases other
  · obtain ⟨opener, h⟩ := Option.ne_none_iff_exists'.1 some
    have other : '=' ≠ opener := by
      have isOpener := (List.find?_eq_some_iff_append.1 h).1
      rintro rfl
      exact absurd isOpener (by decide)
    exact not_mem_ends_of_opener h text_eq isStart place_eq (by decide) other ends

theorem reads_typeNote (text_eq : type.text = c :: others)
    (reads : here.Reads (')' :: (typeNote type ++ word)) there) :
    ∃ place₁ place₂, here.Reads (")".toList ++ (":".toList ++ (" ".toList ++ [c]))) place₁ ∧
      place₁.Reads others place₂ ∧ place₂.Reads word there := by
  have word_eq : ')' :: (typeNote type ++ word) =
      (")".toList ++ (":".toList ++ (" ".toList ++ [c]))) ++ (others ++ word) := by
    rw [typeNote, text_eq]
    rfl
  rw [word_eq] at reads
  obtain ⟨place₁, first, reads⟩ := reads.exists_middle
  obtain ⟨place₂, second, third⟩ := reads.exists_middle
  exact ⟨place₁, place₂, first, second, third⟩

theorem eraseReturnTypes_erases (name : Identifier) (named : begins isNameStart type.text = true)
    (plain : opener? type = none) :
    eraseReturnTypes (functionText name (typeNote type)) = functionText name [] := by
  obtain ⟨c, others, text_eq, -⟩ := type.exists_head rfl
  have isStart : isNameStart c = true := by rwa [text_eq, begins] at named
  have found (here there : Cursor) (reads : here.Reads (')' :: typeNote type) there)
      (rest_eq : there.rest = " \x7b".toList) : returnType.Prefers here there := by
    rw [← List.append_nil (typeNote type)] at reads
    obtain ⟨place₁, place₂, reads₁, reads₂, reads₃⟩ := reads_typeNote text_eq reads
    obtain rfl := Cursor.Reads.nil_iff.1 reads₃
    exact prefers_annotated isStart reads₁ (prefers_type plain text_eq reads₂ (by decide) rest_eq)
  exact replace_found (unclosed name (by decide) (by decide)) (by decide) found

theorem eraseArrowReturnTypes_erases (name value : Identifier)
    (named : begins isNameStart type.text = true) (plain : opener? type = none) :
    eraseArrowReturnTypes (arrowText name value (typeNote type)) = arrowText name value [] := by
  obtain ⟨c, others, text_eq, -⟩ := type.exists_head rfl
  have isStart : isNameStart c = true := by rwa [text_eq, begins] at named
  have behind : ')' ∉ " ".toList ++ value.text ++ ";".toList :=
    unclosed value (by decide) (by decide)
  rw [eraseArrowReturnTypes, arrowReturnType_eq]
  unfold arrowText
  rw [← List.append_assoc (typeNote type)]
  refine replace_found (unclosed name (by decide) (by decide)) behind fun here there reads _ => ?_
  obtain ⟨place₁, place₂, reads₁, reads₂, reads₃⟩ := reads_typeNote text_eq reads
  have parts : place₂.Reads (" ".toList ++ "=>".toList) there := reads₃
  obtain ⟨place₃, reads₃, reads₄⟩ := parts.exists_middle
  have unspaced : begins isBlank place₃.rest = false := by
    rw [reads₄.rest_eq]
    rfl
  have behind : place₂.rest = ' ' :: '=' :: '>' :: there.rest := by
    rw [reads₃.rest_eq, reads₄.rest_eq]
    rfl
  have space : spacing.Prefers place₂ place₃ :=
    .every reads₃ (List.all_eq_true.1 (by decide)) unspaced
  exact prefers_annotated isStart reads₁
    ((prefers_type plain text_eq reads₂ (by decide) behind).append (space.append (.lit reads₄)))

/-- A return type that begins with a name and holds no object type and no function type is erased.
One that begins otherwise stays, and so does one that holds a function type before any object type.
An arrow function keeps every type that holds either. -/
theorem returnTypes_erased (name value : Identifier) (type : PlainType) :
    (begins isNameStart type.text = true → opener? type = none →
        eraseReturnTypes (functionText name (typeNote type)) = functionText name [] ∧
        eraseArrowReturnTypes (arrowText name value (typeNote type)) = arrowText name value []) ∧
      (begins isNameStart type.text = false ∨ opener? type = some '(' →
        eraseReturnTypes (functionText name (typeNote type)) =
          functionText name (typeNote type)) ∧
      (begins isNameStart type.text = false ∨ opener? type ≠ none →
        eraseArrowReturnTypes (arrowText name value (typeNote type)) =
          arrowText name value (typeNote type)) := by
  refine ⟨fun named plain => ⟨?_, ?_⟩, ?_, ?_⟩
  · exact eraseReturnTypes_erases name named plain
  · exact eraseArrowReturnTypes_erases name value named plain
  · exact eraseReturnTypes_stays name
  · exact eraseArrowReturnTypes_stays name value

theorem generic_return_type_erased :
    let f : Identifier := .of 'f' [] rfl rfl
    let empty : Gap := ⟨[], List.forall_mem_nil _⟩
    let item : PlainType := .array (.name (.of 'A' [] rfl rfl))
    let type : PlainType := .generic (.of 'P' [] rfl rfl) (.last empty none item empty)
    typeNote type = ": P<A[]>".toList ∧ begins isNameStart type.text = true ∧
      opener? type = none ∧ eraseReturnTypes (functionText f (typeNote type)) = functionText f [] ∧
      eraseArrowReturnTypes (arrowText f f (typeNote type)) = arrowText f f [] := by
  intro f empty item type
  exact ⟨by decide, by decide, by decide, (returnTypes_erased f f type).1 (by decide) (by decide)⟩

/-- An object type begins with a brace, and so stays. -/
theorem object_return_type_stays :
    let f : Identifier := .of 'f' [] rfl rfl
    let space : Gap := ⟨[' '], List.forall_mem_singleton.2 ⟨rfl, by decide⟩⟩
    let label : Label := ⟨.of 'a' [] rfl rfl, ⟨[], List.forall_mem_nil _⟩, space⟩
    let member : PlainType := .name (.of 'A' [] rfl rfl)
    let type : PlainType := .object (.last space (some label) member space)
    functionText f (typeNote type) = "function f(): \x7b a: A \x7d \x7b".toList ∧
      eraseReturnTypes (functionText f (typeNote type)) = functionText f (typeNote type) ∧
      functionText f [] = "function f() \x7b".toList ∧
      eraseReturnTypes (functionText f (typeNote type)) ≠ functionText f [] := by
  decide +kernel

end Annotation

end ComponentPreview
