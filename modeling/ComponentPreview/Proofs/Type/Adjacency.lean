import ComponentPreview.Proofs.Type.Expression
import ComponentPreview.Script.Annotation

/-!
# Adjacency

What can stand next to what in a type. Each character is judged with the text behind it, up to what
follows the type (`TypeExpr.along`): white space between two names, a colon behind a bracket and a
parenthesis behind a list of type arguments do not occur, which keeps patterns for other syntax from
fitting inside of a type.
-/

namespace ComponentPreview

open Annotation

/-- Every character of a text fits what stands before it in the text and what follows it, where
`rest` comes behind the text. -/
def Along (Fits : Option Char → Char → List Char → Prop) (text rest : List Char) : Prop :=
  ∀ front c back, text = front ++ c :: back → Fits front.getLast? c (back ++ rest)

namespace Along

variable {Fits Fits' : Option Char → Char → List Char → Prop} {text other rest : List Char}

theorem mono (h : Along Fits text rest)
    (imp : ∀ before c rest, Fits before c rest → Fits' before c rest) : Along Fits' text rest :=
  fun front c back whole => imp _ _ _ (h front c back whole)

theorem of_forall (h : ∀ c ∈ text, ∀ before rest, Fits before c rest) : Along Fits text rest := by
  rintro front c back rfl
  exact h c (by simp) _ _

theorem single {c : Char} (h : Fits none c rest) : Along Fits [c] rest := by
  intro front d back whole
  cases front with
  | nil =>
      cases whole
      exact h
  | cons e front => simp at whole

/-- A text goes on with another one if nothing is asked of the beginning of a text. -/
theorem append (starts : ∀ before c rest, Fits none c rest → Fits before c rest)
    (h : Along Fits text (other ++ rest)) (h' : Along Fits other rest) :
    Along Fits (text ++ other) rest := by
  have within {more back : List Char} {c : Char} (whole : other = more ++ c :: back) :
      Fits (text ++ more).getLast? c (back ++ rest) := by
    have fits := h' more c back whole
    rw [List.getLast?_append]
    cases last : more.getLast? with
    | none =>
        rw [last] at fits
        exact starts _ _ _ fits
    | some d =>
        rw [last] at fits
        exact fits
  intro front c back whole
  rcases List.append_eq_append_iff.1 whole with ⟨more, rfl, eq⟩ | ⟨_ | ⟨d, more⟩, rfl, eq⟩
  · exact within eq
  · simpa using within (show other = [] ++ c :: back from eq.symm)
  · rw [List.cons_append, List.cons.injEq] at eq
    obtain ⟨rfl, rfl⟩ := eq
    simpa using h front c more rfl

end Along

/-! ## What follows -/

/-- The first character that is not blank. -/
def firstVisible? (text : List Char) : Option Char :=
  text.find? (!isBlank ·)

theorem firstVisible?_append {blanks : List Char} (areBlank : ∀ c ∈ blanks, isBlank c = true)
    (rest : List Char) : firstVisible? (blanks ++ rest) = firstVisible? rest := by
  have none : blanks.find? (!isBlank ·) = none := List.find?_eq_none.2 (by simpa using areBlank)
  rw [firstVisible?, List.find?_append, none, Option.none_or]
  rfl

theorem firstVisible?_cons {c : Char} (shown : isBlank c = false) (rest : List Char) :
    firstVisible? (c :: rest) = some c := by
  rw [firstVisible?, List.find?_cons_of_pos (by simp [shown])]

/-- White space before a name or an opening bracket. -/
structure OpensBinding (rest : List Char) : Prop where
  spaced : Pattern.begins isBlank rest = true
  opens : ∃ c ∈ firstVisible? rest, (isNameStart c || isOpener c) = true

theorem not_opensBinding_cons {c : Char} {rest : List Char} (shown : isBlank c = false) :
    ¬OpensBinding (c :: rest) := by
  intro opens
  have spaced : isBlank c = true := opens.spaced
  rw [shown] at spaced
  cases spaced

theorem not_opensBinding_colon {blanks : List Char} (areBlank : ∀ c ∈ blanks, isBlank c = true)
    (rest : List Char) : ¬OpensBinding (blanks ++ ':' :: rest) := by
  rintro ⟨-, c, mem, opens⟩
  rw [firstVisible?_append areBlank, firstVisible?_cons (by decide)] at mem
  cases mem
  exact absurd opens (by decide)

/-- What follows neither begins a binding, nor annotates what comes before it, nor calls it. -/
structure Stops (rest : List Char) : Prop where
  opens : ¬OpensBinding rest
  annotates : firstVisible? rest ≠ some ':'
  calls : firstVisible? rest ≠ some '('

/-- The signs that end an item, a type or a name. -/
def endSigns : List Char :=
  "|,;>]\x7d)=".toList

theorem not_start_of_mem_endSigns {c : Char} (sign : c ∈ endSigns) :
    isBlank c = false ∧ (isNameStart c || isOpener c) = false ∧ c ≠ ':' ∧ c ≠ '(' := by
  have all : endSigns.all (fun c => !isBlank c && !(isNameStart c || isOpener c) &&
      c != ':' && c != '(') = true := by decide
  simpa [and_assoc] using List.all_eq_true.1 all c sign

theorem Stops.of_mark {blanks more : List Char} {mark : Char}
    (areBlank : ∀ c ∈ blanks, isBlank c = true) (sign : mark ∈ endSigns) :
    Stops (blanks ++ mark :: more) := by
  obtain ⟨shown, closed, uncolon, uncalled⟩ := not_start_of_mem_endSigns sign
  have visible : firstVisible? (blanks ++ mark :: more) = some mark := by
    rw [firstVisible?_append areBlank, firstVisible?_cons shown]
  refine ⟨fun ⟨_, c, mem, opens⟩ => ?_, by simpa [visible], by simpa [visible]⟩
  rw [visible] at mem
  cases mem
  rw [closed] at opens
  cases opens

theorem Gap.areBlank (gap : Gap) : ∀ c ∈ gap.text, isBlank c = true :=
  fun c mem => (gap.within c mem).1

theorem Gap.stops (gap : Gap) {mark : Char} (sign : mark ∈ endSigns) (more : List Char) :
    Stops (gap.text ++ mark :: more) :=
  .of_mark gap.areBlank sign

/-- An opening bracket that follows without white space. -/
theorem Stops.of_square (more : List Char) : Stops ('[' :: more) := by
  have visible : firstVisible? ('[' :: more) = some '[' := firstVisible?_cons (by decide) more
  exact ⟨not_opensBinding_cons (by decide), by simp [visible], by simp [visible]⟩

/-- Behind a name no binding opens, and behind a list of type arguments stands no parenthesis. -/
structure FitsWord (before : Option Char) (c : Char) (rest : List Char) : Prop where
  name : isNameChar c = true → ¬OpensBinding rest
  arguments : c = '>' → before ≠ some '=' → firstVisible? rest ≠ some '('

/-- Moreover behind a bracket stands no colon. -/
structure FitsType (before : Option Char) (c : Char) (rest : List Char) : Prop extends
    FitsWord before c rest where
  bracket : isCloser c = true → firstVisible? rest ≠ some ':'

theorem FitsWord.starts (before : Option Char) (c : Char) (rest : List Char)
    (fits : FitsWord none c rest) : FitsWord before c rest :=
  ⟨fits.name, fun angle _ => fits.arguments angle (by simp)⟩

theorem FitsType.starts (before : Option Char) (c : Char) (rest : List Char)
    (fits : FitsType none c rest) : FitsType before c rest :=
  ⟨fits.toFitsWord.starts _ _ _, fits.bracket⟩

namespace Along

variable {text other rest : List Char} {c : Char}

theorem append_type (h : Along FitsType text (other ++ rest)) (h' : Along FitsType other rest) :
    Along FitsType (text ++ other) rest :=
  append FitsType.starts h h'

theorem to_word (h : Along FitsType text rest) : Along FitsWord text rest :=
  h.mono fun _ _ _ fits => fits.toFitsWord

theorem append_word (h : Along FitsWord text (other ++ rest)) (h' : Along FitsWord other rest) :
    Along FitsWord (text ++ other) rest :=
  append FitsWord.starts h h'

theorem of_plain (plain : ∀ c ∈ text, isNameChar c = false ∧ c ≠ '>' ∧ isCloser c = false) :
    Along FitsType text rest :=
  of_forall fun c mem before rest => by
    obtain ⟨noName, noAngle, open'⟩ := plain c mem
    exact ⟨⟨by simp [noName], fun angle => absurd angle noAngle⟩, by simp [open']⟩

theorem cons_plain (plain : isNameChar c = false ∧ c ≠ '>' ∧ isCloser c = false)
    (h : Along FitsType text rest) : Along FitsType (c :: text) rest := by
  have single : Along FitsType [c] (text ++ rest) := of_plain (by simpa using plain)
  exact append_type single h

theorem of_blank (areBlank : ∀ c ∈ text, isBlank c = true) (rest : List Char) :
    Along FitsType text rest :=
  of_plain fun c mem => by
    have other {d : Char} (h : isBlank d = false) : c ≠ d := by
      rintro rfl
      rw [areBlank c mem] at h
      cases h
    refine ⟨not_isNameChar_of_isBlank (areBlank c mem), other (by decide), ?_⟩
    simp [isCloser, other (show isBlank '\x7d' = false by decide),
      other (show isBlank ']' = false by decide)]

theorem of_stops (noName : isNameChar c = false) (stops : Stops rest) : Along FitsType [c] rest :=
  single ⟨⟨by simp [noName], fun _ _ => stops.calls⟩, fun _ => stops.annotates⟩

theorem arrow (rest : List Char) : Along FitsType ['=', '>'] rest := by
  have unnamed : ∀ c ∈ ['=', '>'], isNameChar c = false ∧ isCloser c = false :=
    List.forall_mem_cons.2 ⟨by decide, List.forall_mem_singleton.2 (by decide)⟩
  intro front c back whole
  obtain ⟨noName, open'⟩ := unnamed c (by simp [whole])
  refine ⟨⟨by simp [noName], fun angle before => ?_⟩, by simp [open']⟩
  -- The angle is that of the arrow, behind an equals sign.
  rcases front with _ | ⟨d, _ | ⟨e, front⟩⟩
  · cases whole
    exact absurd angle (by decide)
  · cases whole
    exact absurd rfl before
  · simp at whole

/-- A text without signs and white space, such as a name. -/
theorem of_solid (solid : ∀ c ∈ text, c ∉ signs ∧ isBlank c = false) (open' : ¬OpensBinding rest) :
    Along FitsType text rest := by
  rintro front c back rfl
  have sign {d : Char} (h : d ∈ signs) : c ≠ d := by
    rintro rfl
    exact (solid c (by simp)).1 h
  refine ⟨⟨fun _ => ?_, fun angle => absurd angle (sign (by decide))⟩, fun closes => ?_⟩
  · cases back with
    | nil => exact open'
    | cons d back => exact not_opensBinding_cons (solid d (by simp)).2
  · rw [isCloser, Bool.or_eq_true, beq_iff_eq, beq_iff_eq] at closes
    exact closes.elim (absurd · (sign (by decide))) (absurd · (sign (by decide)))

end Along

theorem Identifier.solid (id : Identifier) : ∀ c ∈ id.text, c ∉ signs ∧ isBlank c = false :=
  fun _ mem => ⟨id.not_mem_signs mem, not_isBlank_of_isNameChar (id.isNameChar_of_mem mem)⟩

theorem Gap.along (gap : Gap) (rest : List Char) : Along FitsType gap.text rest :=
  .of_blank gap.areBlank rest

namespace TypeExpr

/-- What may come behind a type, or behind the entries between two brackets. -/
def Ends : Part → List Char → Prop
  | .type, rest => Stops rest
  | .entries _, rest => ∀ gap : Gap, Stops (gap.text ++ rest)

theorem along_label (label : Option Label) (rest : List Char) :
    Along FitsType (labelText label) rest := by
  cases label with
  | none => exact .of_plain (by simp [labelText])
  | some label =>
      have colon : ¬OpensBinding ((label.front.text ++ ':' :: label.back.text) ++ rest) := by
        rw [List.append_assoc, List.cons_append]
        exact not_opensBinding_colon label.front.areBlank _
      exact .append_type (.of_solid label.name.solid colon) (.append_type (label.front.along _)
        (.cons_plain (by decide) (label.back.along _)))

variable {part : Part}

/-- Every character of a type fits what follows it. -/
theorem along (type : TypeExpr (fun _ => False) part) {rest : List Char} (ends : Ends part rest) :
    Along FitsType type.text rest := by
  have closed {text rest : List Char} {closer : Char} (sign : closer ∈ endSigns)
      (noName : isNameChar closer = false) (stops : Stops rest)
      (h : (∀ gap : Gap, Stops (gap.text ++ closer :: rest)) →
        Along FitsType text ([closer] ++ rest)) : Along FitsType (text ++ [closer]) rest :=
    .append_type (h fun gap => gap.stops sign rest) (.of_stops noName stops)
  induction type generalizing rest with
  | name id => exact .of_solid id.solid ends.opens
  | literal quote word isQuote isWord => exact isWord.elim
  | array item ih =>
      exact .append_type (ih (Stops.of_square _))
        (.cons_plain (by decide) (.of_stops (by decide) ends))
  | generic id arguments ih =>
      have bracketed : Along FitsType ('<' :: (arguments.text ++ ['>'])) rest :=
        .cons_plain (by decide) (closed (by decide) (by decide) ends fun h => ih h)
      exact .append_type (.of_solid id.solid (not_opensBinding_cons (by decide))) bracketed
  | tuple items ih =>
      exact .cons_plain (by decide) (closed (by decide) (by decide) ends fun h => ih h)
  | object members ih =>
      exact .cons_plain (by decide) (closed (by decide) (by decide) ends fun h => ih h)
  | union left front back right ihl ihr =>
      have separated : Along FitsType ('|' :: (back.text ++ right.text)) rest :=
        .cons_plain (by decide) (.append_type (back.along _) (ihr ends))
      have stops : Stops ((front.text ++ '|' :: (back.text ++ right.text)) ++ rest) := by
        simpa using front.stops (by decide) (back.text ++ (right.text ++ rest))
      exact .append_type (ihl stops) (.append_type (front.along _) separated)
  | function parameters front back result ihp ihr =>
      have behind :
          Along FitsType (front.text ++ (['=', '>'] ++ (back.text ++ result.text))) rest :=
        .append_type (front.along _) (.append_type (.arrow _)
          (.append_type (back.along _) (ihr ends)))
      have listed : Along FitsType (parameters.text ++ ')' :: (front.text ++
          (['=', '>'] ++ (back.text ++ result.text)))) rest :=
        .append_type (ihp fun gap => gap.stops (by decide) _) (.cons_plain (by decide) behind)
      simpa [text] using Along.cons_plain (c := '(') (by decide) listed
  | nothing gap => exact gap.along rest
  | last front label item back ih =>
      have item' : Along FitsType item.text (back.text ++ rest) := ih (ends back)
      exact .append_type (front.along _) (.append_type (along_label label _)
        (.append_type item' (back.along rest)))
  | @more separator front label item back others ih ihs =>
      have sign : separator.mark ∈ endSigns := by cases separator <;> decide
      have unnamed : isNameChar separator.mark = false ∧ separator.mark ≠ '>' ∧
          isCloser separator.mark = false := by cases separator <;> decide
      have stops : Stops ((back.text ++ separator.mark :: others.text) ++ rest) := by
        simpa using back.stops sign (others.text ++ rest)
      exact .append_type (front.along _) (.append_type (along_label label _)
        (.append_type (ih stops) (.append_type (back.along _) (.cons_plain unnamed (ihs ends)))))

end TypeExpr

end ComponentPreview
