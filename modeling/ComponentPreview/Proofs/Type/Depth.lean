import ComponentPreview.Proofs.Type.Expression
import ComponentPreview.Script.Brackets

/-!
# Depth along a type

A scan keeps one depth for brackets of all kinds. A type leaves the depth as it is, and has its
separators inside its own brackets (`TypeExpr.encloses`), unless a string literal holds a bracket
or a separator.
-/

namespace ComponentPreview

namespace Brackets

/-- The depth behind a text. -/
def depthAfter (previous : Option Char) (depth : Int) : List Char → Int
  | [] => depth
  | c :: rest => depthAfter (some c) (after previous depth c) rest

/-- Every character of a class stands at a positive depth. -/
def Within (isIn : Char → Bool) (previous : Option Char) (depth : Int) : List Char → Prop
  | [] => True
  | c :: rest => (isIn c = true → 0 < depth) ∧ Within isIn (some c) (after previous depth c) rest

def isBracket (c : Char) : Bool :=
  opens c || closes none c

variable {isIn : Char → Bool} {previous : Option Char} {depth least : Int} {c opener closer : Char}
  {text other : List Char}

theorem getLast?_cons_or (c : Char) (text : List Char) (previous : Option Char) :
    (c :: text).getLast?.or previous = text.getLast?.or (some c) := by
  rw [List.getLast?_cons]
  cases text.getLast? <;> rfl

theorem depthAfter_append (previous : Option Char) (depth : Int) (text other : List Char) :
    depthAfter previous depth (text ++ other) =
      depthAfter (text.getLast?.or previous) (depthAfter previous depth text) other := by
  induction text generalizing previous depth with
  | nil => rfl
  | cons c text ih => rw [List.cons_append, depthAfter, ih, depthAfter, getLast?_cons_or]

theorem within_append :
    Within isIn previous depth (text ++ other) ↔ Within isIn previous depth text ∧
      Within isIn (text.getLast?.or previous) (depthAfter previous depth text) other := by
  induction text generalizing previous depth with
  | nil => simp [Within, depthAfter]
  | cons c text ih => rw [List.cons_append, Within, ih, Within, depthAfter, getLast?_cons_or,
      and_assoc]

theorem mem_signs_of_isBracket (bracket : isBracket c = true) : c ∈ signs := by
  simp only [isBracket, opens, closes, Bool.or_eq_true, Bool.and_eq_true, beq_iff_eq] at bracket
  rcases bracket with (((rfl | rfl) | rfl) | rfl) | ⟨((rfl | rfl) | rfl) | rfl, -⟩ <;> decide

theorem after_of_opens (h : opens c = true) : after previous depth c = depth + 1 := by
  simp [after, h]

theorem after_of_closes (h : closes none c = true) (unarrowed : previous ≠ some '=') :
    after previous depth c = depth - 1 := by
  have closer : c = ')' ∨ c = ']' ∨ c = '\x7d' ∨ c = '>' := by
    simpa [closes, or_assoc] using h
  rcases closer with rfl | rfl | rfl | rfl <;> simp [after, opens, closes, unarrowed]

theorem after_of_not_isBracket (h : isBracket c = false) : after previous depth c = depth := by
  obtain ⟨unopened, unclosed⟩ := Bool.or_eq_false_iff.1 h
  have still : closes previous c = false := by
    simp only [closes] at unclosed ⊢
    simp_all
  simp [after, unopened, still]

theorem depthAfter_of_unbracketed (unbracketed : ∀ c ∈ text, isBracket c = false)
    (previous : Option Char) (depth : Int) : depthAfter previous depth text = depth := by
  induction text generalizing previous with
  | nil => rfl
  | cons c text ih =>
      obtain ⟨here, later⟩ := List.forall_mem_cons.1 unbracketed
      rw [depthAfter, after_of_not_isBracket here, ih later]

theorem within_of_unbracketed (unbracketed : ∀ c ∈ text, isBracket c = false)
    (enough : ∀ c ∈ text, isIn c = true → 0 < depth) : Within isIn previous depth text := by
  induction text generalizing previous with
  | nil => trivial
  | cons c text ih =>
      obtain ⟨here, later⟩ := List.forall_mem_cons.1 unbracketed
      obtain ⟨deep, deeper⟩ := List.forall_mem_cons.1 enough
      rw [Within, after_of_not_isBracket here]
      exact ⟨deep, ih later deeper⟩

/-- A text after which the depth is the same again, and in which the characters of a class stand
inside of brackets if it starts at some least depth. -/
structure Encloses (isIn : Char → Bool) (least : Int) (text : List Char) : Prop where
  level : ∀ previous depth, depthAfter previous depth text = depth
  within : ∀ previous depth, least ≤ depth → Within isIn previous depth text
  last : text.getLast? ≠ some '='

namespace Encloses

theorem mono {least' : Int} (h : Encloses isIn least text) (le : least ≤ least') :
    Encloses isIn least' text :=
  ⟨h.level, fun _ _ enough => h.within _ _ (Int.le_trans le enough), h.last⟩

theorem append (h : Encloses isIn least text) (h' : Encloses isIn least other) :
    Encloses isIn least (text ++ other) where
  level previous depth := by rw [depthAfter_append, h.level, h'.level]
  within previous depth enough := by
    rw [within_append, h.level]
    exact ⟨h.within _ _ enough, h'.within _ _ enough⟩
  last := by
    rw [List.getLast?_append]
    cases last : other.getLast? with
    | none => simpa using h.last
    | some c => simpa [last] using h'.last

/-- Characters without a meaning to the scan. -/
theorem flat (unbracketed : ∀ c ∈ text, isBracket c = false) (outside : ∀ c ∈ text, isIn c = false)
    (last : text.getLast? ≠ some '=') : Encloses isIn 0 text := by
  refine ⟨depthAfter_of_unbracketed unbracketed, fun previous depth _ => ?_, last⟩
  refine within_of_unbracketed unbracketed fun c mem inside => ?_
  simp [outside c mem] at inside

theorem of_all (plain : (text.all fun c => !isBracket c && !isIn c) = true)
    (last : text.getLast? ≠ some '=') : Encloses isIn 0 text := by
  have each {c : Char} (mem : c ∈ text) : isBracket c = false ∧ isIn c = false := by
    simpa using List.all_eq_true.1 plain c mem
  exact .flat (fun c mem => (each mem).1) (fun c mem => (each mem).2) last

theorem of_unsigned (marks : ∀ c, isIn c = true → c ∈ signs)
    (h : ∀ c ∈ text, c ∉ signs) : Encloses isIn 0 text := by
  refine .flat (fun c mem => ?_) (fun c mem => ?_) fun last => ?_
  · exact Bool.eq_false_iff.2 fun bracket => h c mem (mem_signs_of_isBracket bracket)
  · exact Bool.eq_false_iff.2 fun inside => h c mem (marks c inside)
  · exact h _ (List.mem_of_getLast? last) (by decide)

/-- Characters inside of brackets. -/
theorem inner (unbracketed : ∀ c ∈ text, isBracket c = false) (last : text.getLast? ≠ some '=') :
    Encloses isIn 1 text := by
  refine ⟨depthAfter_of_unbracketed unbracketed, fun previous depth enough => ?_, last⟩
  exact within_of_unbracketed unbracketed fun _ _ _ => by omega

theorem arrow (outside : ∀ c ∈ ['=', '>'], isIn c = false) : Encloses isIn 0 ['=', '>'] where
  level previous depth := by simp [depthAfter, after, opens, closes]
  within previous depth _ := by simp_all [Within]
  last := by decide

theorem wrap (h : Encloses isIn 1 text) (opened : opens opener = true)
    (closed : closes none closer = true) (outside : isIn opener = false)
    (outside' : isIn closer = false) : Encloses isIn 0 (opener :: (text ++ [closer])) := by
  have unarrowed : text.getLast?.or (some opener) ≠ some '=' := by
    cases last : text.getLast? with
    | none =>
        rintro ⟨⟩
        simp [opens] at opened
    | some c => simpa [last] using h.last
  refine ⟨fun previous depth => ?_, fun previous depth enough => ?_, ?_⟩
  · rw [depthAfter, depthAfter_append, h.level, depthAfter, depthAfter,
      after_of_closes closed unarrowed, after_of_opens opened, Int.add_sub_cancel]
  · have inner : Within isIn (some opener) (depth + 1) text := h.within _ _ (by omega)
    rw [Within, within_append, after_of_opens opened]
    exact ⟨by simp [outside], inner, by simp [Within, outside']⟩
  · have plain : closer ≠ '=' := by
      rintro rfl
      simp [closes] at closed
    rw [List.getLast?_cons]
    simpa using plain

end Encloses

end Brackets

namespace TypeExpr

open Brackets

variable {IsWord : List Char → Prop} {part : Part} {isIn : Char → Bool}

/-- Entries stand between brackets. -/
def leastDepth : Part → Int
  | .type => 0
  | .entries _ => 1

section Separating

variable (separates : ∀ c, isIn c = true → c = ',' ∨ c = ';')

include separates

theorem not_isIn {c : Char} (h : c ≠ ',' ∧ c ≠ ';') : isIn c = false := by
  rw [Bool.eq_false_iff]
  exact fun mem => (separates c mem).elim h.1 h.2

theorem encloses_unsigned {text : List Char} (h : ∀ c ∈ text, c ∉ signs) :
    Encloses isIn 0 text := by
  refine .of_unsigned (fun c mem => ?_) h
  rcases separates c mem with rfl | rfl <;> decide

theorem encloses_gap (gap : Gap) : Encloses isIn 0 gap.text :=
  encloses_unsigned separates fun _ => gap.not_mem_signs

theorem encloses_name (id : Identifier) : Encloses isIn 0 id.text :=
  encloses_unsigned separates fun _ => id.not_mem_signs

theorem encloses_mark {c : Char} (h : c ≠ ',' ∧ c ≠ ';' ∧ c ≠ '=' ∧ isBracket c = false) :
    Encloses isIn 0 [c] :=
  .flat (by simp [h]) (by simp [not_isIn separates ⟨h.1, h.2.1⟩]) (by simp [h])

theorem encloses_wrap {opener closer : Char} {text : List Char} (h : Encloses isIn 1 text)
    (pair : opens opener = true ∧ closes none closer = true ∧ (opener ≠ ',' ∧ opener ≠ ';') ∧
      closer ≠ ',' ∧ closer ≠ ';') : Encloses isIn 0 (opener :: (text ++ [closer])) :=
  h.wrap pair.1 pair.2.1 (not_isIn separates pair.2.2.1) (not_isIn separates pair.2.2.2)

theorem encloses_literal {quote : Char} {word : List Char} (isQuote : Pattern.isQuoteMark quote)
    (clean : ∀ c ∈ word, isBracket c = false ∧ isIn c = false) :
    Encloses isIn 0 (quote :: (word ++ [quote])) := by
  have marks : quote = '\'' ∨ quote = '"' := by
    simpa [Pattern.isQuoteMark] using isQuote
  have quoted : isBracket quote = false ∧ isIn quote = false ∧ quote ≠ '=' := by
    rcases marks with rfl | rfl <;>
      exact ⟨by decide, not_isIn separates (by decide), by decide⟩
  refine .flat ?_ ?_ ?_
  · simp only [List.forall_mem_cons, List.forall_mem_append]
    exact ⟨quoted.1, fun c mem => (clean c mem).1, by simp [quoted.1]⟩
  · simp only [List.forall_mem_cons, List.forall_mem_append]
    exact ⟨quoted.2.1, fun c mem => (clean c mem).2, by simp [quoted.2.1]⟩
  · simpa [List.getLast?_cons] using quoted.2.2

/-- A type is closed where it ends, and separates only inside of its brackets. -/
theorem encloses (type : TypeExpr IsWord part)
    (words : ∀ word ∈ type.words, ∀ c ∈ word, isBracket c = false ∧ isIn c = false) :
    Encloses isIn (leastDepth part) type.text := by
  have gap := encloses_gap separates
  have name := encloses_name separates
  have label : ∀ label, Encloses isIn 0 (labelText label) :=
    labelText_induction Encloses.append name gap (encloses_mark separates (by decide))
  have listed {text : List Char} (separator : Separator) (h : Encloses isIn 0 text) :
      Encloses isIn (leastDepth (.entries separator)) text :=
    h.mono Int.one_nonneg
  induction type with
  | name id => exact name id
  | literal quote word isQuote isWord =>
      exact encloses_literal separates isQuote (words word (by simp [TypeExpr.words]))
  | array item ih =>
      have brackets : Encloses isIn 0 ('[' :: ([] ++ [']'])) :=
        encloses_wrap separates
          ((encloses_unsigned separates (by simp)).mono Int.one_nonneg) (by decide)
      exact (ih words).append brackets
  | generic id arguments ih =>
      exact (name id).append (encloses_wrap separates (ih words) (by decide))
  | tuple items ih => exact encloses_wrap separates (ih words) (by decide)
  | object members ih => exact encloses_wrap separates (ih words) (by decide)
  | union left front back right ihl ihr =>
      obtain ⟨wordsl, wordsr⟩ := List.forall_mem_append.1 words
      have bar : Encloses isIn 0 ['|'] := encloses_mark separates (by decide)
      exact (ihl wordsl).append ((gap front).append (bar.append
        ((gap back).append (ihr wordsr))))
  | function parameters front back result ihp ihr =>
      obtain ⟨wordsp, wordsr⟩ := List.forall_mem_append.1 words
      have parameters : Encloses isIn 0 ('(' :: (parameters.text ++ [')'])) :=
        encloses_wrap separates (ihp wordsp) (by decide)
      have arrow : Encloses isIn 0 ['=', '>'] := .arrow (by simp [not_isIn separates])
      simpa [text, leastDepth] using parameters.append ((gap front).append (arrow.append
        ((gap back).append (ihr wordsr))))
  | nothing space => exact listed _ (gap space)
  | last front label' item back ih =>
      exact listed _ ((gap front).append ((label label').append ((ih words).append (gap back))))
  | @more separator front label' item back others ih ihs =>
      obtain ⟨wordsi, wordso⟩ := List.forall_mem_append.1 words
      have separated : Encloses isIn 1 [separator.mark] := by
        cases separator <;> exact .inner (by simp; decide) (by decide)
      have entry := (gap front).append ((label label').append ((ih wordsi).append (gap back)))
      simpa [text] using (listed separator entry).append (separated.append (ihs wordso))

end Separating

theorem words_eq_nil (type : TypeExpr (fun _ => False) part) : type.words = [] := by
  induction type with
  | literal quote word isQuote isWord => exact isWord.elim
  | name | nothing => rfl
  | array item ih | generic id arguments ih | tuple items ih | object members ih => exact ih
  | last front label item back ih => exact ih
  | union left front back right ihl ihr => simp [words, ihl, ihr]
  | function parameters front back result ihp ihr => simp [words, ihp, ihr]
  | more front label item back others ih ihs => simp [words, ih, ihs]

theorem encloses_plain (separates : ∀ c, isIn c = true → c = ',' ∨ c = ';') (type : PlainType) :
    Encloses isIn 0 type.text :=
  encloses separates type (by simp [words_eq_nil])

end TypeExpr

/-! ## The scans -/

namespace Brackets

variable {previous : Option Char} {depth : Int} {text : List Char}

/-- Commas inside of brackets cut nothing. -/
theorem cutFrom_append (within : Within (· == ',') previous depth text) (part : List Char)
    (parts : List (List Char)) (rest : List Char) :
    cutFrom previous depth part parts (text ++ rest) =
      cutFrom (text.getLast?.or previous) (depthAfter previous depth text)
        (text.reverse ++ part) parts rest := by
  induction text generalizing previous depth part with
  | nil => rfl
  | cons c text ih =>
      obtain ⟨deep, within⟩ := within
      have goes : (c == ',' && depth == 0) = false := by
        by_cases comma : c = ','
        · have := deep (by simpa using comma)
          simp [comma]
          omega
        · simp [comma]
      rw [List.cons_append, cutFrom, goes, if_neg Bool.false_ne_true, ih within, depthAfter,
        getLast?_cons_or, List.reverse_cons, List.append_assoc, List.singleton_append]

/-- A list is cut at the commas that join it. -/
theorem cutFrom_join {texts : List (List Char)}
    (encloses : ∀ other ∈ text :: texts, Encloses (· == ',') 0 other) (part : List Char)
    (parts : List (List Char)) :
    cutFrom previous 0 part parts (Text.join ", ".toList (text :: texts)) =
      parts.reverse ++ (part.reverse ++ text) :: texts.map (' ' :: ·) := by
  induction texts generalizing text previous part parts with
  | nil =>
      obtain ⟨first, -⟩ := List.forall_mem_cons.1 encloses
      have whole := cutFrom_append (first.within previous 0 (Int.le_refl _)) part parts []
      rw [List.append_nil] at whole
      rw [Text.join, whole, cutFrom]
      simp
  | cons other texts ih =>
      obtain ⟨first, others⟩ := List.forall_mem_cons.1 encloses
      have parts_eq : Text.join ", ".toList (text :: other :: texts) =
          text ++ ',' :: ' ' :: Text.join ", ".toList (other :: texts) := by
        simp [Text.join]
      rw [parts_eq, cutFrom_append (first.within previous 0 (Int.le_refl _)), first.level, cutFrom,
        if_pos (by decide), cutFrom, if_neg (by decide), after_of_not_isBracket (by decide),
        ih others]
      simp

end Brackets

/-- Every equals sign is that of an arrow. -/
def Arrowed (text : List Char) : Prop :=
  Followed '=' (·.head? = some '>') text

theorem Arrowed.goes {rest other : List Char} (head : rest.head? = some '>') :
    (rest ++ other).head? = some '>' := by
  rw [List.head?_append, head]
  rfl

theorem Arrowed.append {text other : List Char} (h : Arrowed text) (h' : Arrowed other) :
    Arrowed (text ++ other) :=
  Followed.append goes h h'

theorem TypeExpr.arrowed (type : PlainType) : Arrowed type.text := by
  refine followed Arrowed.goes (.inr rfl) (fun gap => ?_) type
  have before : Arrowed (')' :: gap.text) := Followed.of_not_mem (by
    simpa using fun mem => gap.not_mem_signs mem (by decide))
  have arrow : Arrowed ['=', '>'] := by
    intro front rest whole
    rcases front with _ | ⟨c, _ | ⟨d, front⟩⟩
    · cases whole
      rfl
    · cases whole
    · simp at whole
  exact before.append arrow

/-- The scan for a default passes over arrows. -/
theorem Brackets.fromAssignment?_append {text : List Char} (arrowed : Arrowed text)
    (previous : Option Char) (depth : Int) (rest : List Char) :
    fromAssignment? previous depth (text ++ rest) =
      fromAssignment? (text.getLast?.or previous) (depthAfter previous depth text) rest := by
  induction text generalizing previous depth with
  | nil => rfl
  | cons c text ih =>
      have goes : (c == '=' && depth == 0 && (text ++ rest).head? != some '>') = false := by
        by_cases equals : c = '='
        · subst equals
          simp [List.head?_append, arrowed [] text rfl]
        · simp [equals]
      rw [List.cons_append, fromAssignment?, goes, if_neg Bool.false_ne_true, ih arrowed.tail,
        depthAfter, getLast?_cons_or]

end ComponentPreview
