import ComponentPreview.Proofs.Script.Checked
import ComponentPreview.Proofs.Script.Residue
import ComponentPreview.Proofs.Source.Component
import ComponentPreview.Proofs.Text.Rewrite
import Mathlib.Computability.StateTransition

/-!
# Rounds of an erasure

Interfaces are erased one a round until the text holds none, and then type aliases in the same way.
Each round shortens the text, so that both come to an end. The second goes on without a look at what
the first was for: the text that is left holds an interface just if the erasure of an alias uncovers
one (`interface_left_iff_uncovers`).
-/

namespace ComponentPreview

namespace Declaration

open Pattern Edit StateTransition

/-! ## Steps until there is none -/

variable {step : List Char → Option (List Char)} {text first last middle : List Char}

/-- A step that shortens every text is made until it cannot be made any more. -/
theorem exhaust_mem_eval
    (shortens : ∀ {text shorter}, step text = some shorter → shorter.length < text.length)
    {bound : Nat} (enough : text.length ≤ bound) : exhaust step bound text ∈ eval step text := by
  induction bound generalizing text with
  | zero =>
      have done : step text = none := by
        cases made : step text with
        | none => rfl
        | some shorter =>
            have := shortens made
            omega
      exact mem_eval.2 ⟨.refl, done⟩
  | succ bound ih =>
      rw [exhaust]
      cases made : step text with
      | none => exact mem_eval.2 ⟨.refl, made⟩
      | some shorter =>
          have := shortens made
          have ends : exhaust step bound shorter ∈ eval step shorter := ih (by omega)
          obtain ⟨run, done⟩ := mem_eval.1 ends
          exact mem_eval.2 ⟨.head made run, done⟩

theorem length_le_of_reaches
    (shortens : ∀ {text shorter}, step text = some shorter → shorter.length < text.length)
    (run : Reaches step first last) : last.length ≤ first.length := by
  induction run with
  | refl => exact Nat.le_refl _
  | tail _ made ih => exact Nat.le_trans (Nat.le_of_lt (shortens made)) ih

theorem exhaust_of_none (none : step text = none) (bound : Nat) :
    exhaust step bound text = text := by
  cases bound <;> simp [exhaust, none]

theorem reaches_of_eval (ends : last ∈ eval step first) (run : Reaches step first middle) :
    Reaches step middle last := by
  obtain ⟨run', -⟩ := mem_eval.1 ends
  rcases reaches_total run run' with run | run
  · exact run
  · rw [(eval_maximal ends).1 run]
    exact .refl

/-- What holds where a run stops held all along, or there is a last step that brings it. -/
theorem always_or_brings {P : List Char → Prop} (ends : last ∈ eval step first) (h : P last) :
    (∀ later, Reaches step first later → P later) ∨
      ∃ middle shorter, Reaches step first middle ∧ step middle = some shorter ∧ ¬P middle ∧
        ∀ later, Reaches step shorter later → P later := by
  obtain ⟨run, done⟩ := mem_eval.1 ends
  -- From the end backwards: where the property held from the next text on but not in this one,
  -- the step between them is the last that brings it.
  induction run using Relation.ReflTransGen.head_induction_on with
  | refl =>
      refine .inl fun later run => ?_
      rwa [(eval_maximal ends).1 run]
  | @head text shorter made others ih =>
      rcases ih (mem_eval.2 ⟨others, done⟩) with all | ⟨middle, next, run, made', missing, all⟩
      · by_cases there : P text
        · refine .inl fun later run => ?_
          rcases Relation.ReflTransGen.cases_head run with rfl | ⟨other, made', others⟩
          · exact there
          · obtain rfl := Option.mem_unique made made'
            exact all later others
        · exact .inr ⟨text, shorter, .refl, made, there, all⟩
      · exact .inr ⟨middle, next, .head made run, made', missing, all⟩

/-! ## Interfaces as tokens -/

/-- A keyword with white space behind it, or nothing. -/
def IsModifier (keyword : String) (text : List Char) : Prop :=
  text = [] ∨ ∃ blanks, text = keyword.toList ++ blanks ∧ blanks ≠ [] ∧
    ∀ c ∈ blanks, isBlank c = true

/-- An interface as far as the brace that opens its body. -/
def SpellsInterface (word : List Char) : Prop :=
  ∃ indent «export» declare blanks c more,
    word = indent ++ («export» ++ (declare ++ ("interface".toList ++ (blanks ++ ([c] ++
      (more ++ ['\x7b'])))))) ∧
    (∀ c ∈ indent, isIndent c = true) ∧ IsModifier "export" «export» ∧
    IsModifier "declare" declare ∧ (blanks ≠ [] ∧ ∀ c ∈ blanks, isBlank c = true) ∧
    isNameChar c = true ∧ '\x7b' ∉ more

def interfaceToken : Token where
  follows previous := previous = none ∨ previous = some '\n'
  reads := SpellsInterface
  precedes _ := True

theorem interface_parts : interfaceHead =
    lineStart ++ (most isIndent (begins Char.isLower) ++ (optional (lit "export" ++ gap) ++
      (optional (lit "declare" ++ gap) ++ (lit "interface" ++ (gap ++ (one isNameChar ++
        (every (· != '\x7b') ++ lit "\x7b"))))))) :=
  rfl

theorem modifier_of_mem_ends {keyword : String} {first last : Progress}
    (h : last ∈ (optional (lit keyword ++ gap)).ends first) :
    ∃ text there, IsModifier keyword text ∧ first.here.Reads text there ∧
      last = first.moveTo there := by
  rcases mem_ends_optional.1 h with ends | rfl
  · obtain ⟨middle, keywords, gaps⟩ := mem_ends_append.1 ends
    obtain ⟨there, reads, rfl⟩ := mem_ends_lit.1 keywords
    obtain ⟨blanks, there', some, areBlank, reads', -, rfl⟩ := Component.mem_ends_gap.1 gaps
    exact ⟨_, there', .inr ⟨blanks, rfl, some, areBlank⟩, reads.trans reads', rfl⟩
  · exact ⟨[], last.here, .inl rfl, .refl _, rfl⟩

theorem mem_ends_of_modifier {keyword : String} {first : Progress} {there : Cursor}
    (modifier : IsModifier keyword text) (reads : first.here.Reads text there)
    (stop : begins isBlank there.rest = false) :
    first.moveTo there ∈ (optional (lit keyword ++ gap)).ends first := by
  rw [mem_ends_optional]
  rcases modifier with rfl | ⟨blanks, rfl, some, areBlank⟩
  · rw [Cursor.Reads.nil_iff.1 reads]
    exact .inr rfl
  · obtain ⟨middle, front, back⟩ := reads.exists_middle
    exact .inl (mem_ends_append.2 ⟨_, mem_ends_lit.2 ⟨middle, front, rfl⟩,
      Component.mem_ends_gap.2 ⟨blanks, there, some, areBlank, back, stop, rfl⟩⟩)

/-- What a modifier stands before is no white space, if that is so without it. -/
theorem IsModifier.begins_eq_false {keyword : String} {c : Char} {others rest : List Char}
    (modifier : IsModifier keyword text) (spelled : keyword.toList = c :: others)
    (shown : isBlank c = false) (stop : begins isBlank rest = false) :
    begins isBlank (text ++ rest) = false := by
  rcases modifier with rfl | ⟨blanks, rfl, -⟩
  · exact stop
  · simpa [spelled, begins] using shown

theorem spellsInterface_of_mem_ends {here : Cursor} {last : Progress}
    (ends : last ∈ interfaceHead.ends ⟨here, []⟩) :
    ∃ word rest, here.rest = word ++ rest ∧ interfaceToken.follows here.before ∧
      interfaceToken.reads word ∧ interfaceToken.precedes rest.head? := by
  rw [interface_parts] at ends
  obtain ⟨_, starts, ends⟩ := mem_ends_append.1 ends
  obtain ⟨_, indents, ends⟩ := mem_ends_append.1 ends
  obtain ⟨_, exports, ends⟩ := mem_ends_append.1 ends
  obtain ⟨_, declares, ends⟩ := mem_ends_append.1 ends
  obtain ⟨_, keywords, ends⟩ := mem_ends_append.1 ends
  obtain ⟨_, gaps, ends⟩ := mem_ends_append.1 ends
  obtain ⟨_, names, ends⟩ := mem_ends_append.1 ends
  obtain ⟨_, others, opens⟩ := mem_ends_append.1 ends
  obtain ⟨follows, rfl⟩ := mem_ends_lineStart.1 starts
  obtain ⟨indent, place₁, reads₁, isIndent, -, rfl⟩ := mem_ends_most.1 indents
  obtain ⟨«export», place₂, isExport, reads₂, rfl⟩ := modifier_of_mem_ends exports
  obtain ⟨declare, place₃, isDeclare, reads₃, rfl⟩ := modifier_of_mem_ends declares
  obtain ⟨place₄, reads₄, rfl⟩ := mem_ends_lit.1 keywords
  obtain ⟨blanks, place₅, some, areBlank, reads₅, -, rfl⟩ := Component.mem_ends_gap.1 gaps
  obtain ⟨c, place₆, isName, reads₆, rfl⟩ := mem_ends_one.1 names
  obtain ⟨more, place₇, reads₇, unopened, -, rfl⟩ := mem_ends_every.1 others
  obtain ⟨place₈, reads₈, rfl⟩ := mem_ends_lit.1 opens
  have whole := reads₁.trans (reads₂.trans (reads₃.trans (reads₄.trans (reads₅.trans
    (reads₆.trans (reads₇.trans reads₈))))))
  exact ⟨_, place₈.rest, whole.rest_eq, follows, ⟨indent, «export», declare, blanks, c, more, rfl,
    isIndent, isExport, isDeclare, ⟨some, areBlank⟩, isName,
    fun mem => by simpa using unopened _ mem⟩, trivial⟩

theorem mem_ends_of_spellsInterface {here there : Cursor} {word : List Char}
    (reads : here.Reads word there) (follows : interfaceToken.follows here.before)
    (spells : SpellsInterface word) : ⟨there, []⟩ ∈ interfaceHead.ends ⟨here, []⟩ := by
  obtain ⟨indent, «export», declare, blanks, c, more, rfl, isIndent, isExport, isDeclare,
    ⟨some, areBlank⟩, isName, unopened⟩ := spells
  obtain ⟨place₁, reads₁, reads⟩ := reads.exists_middle
  obtain ⟨place₂, reads₂, reads⟩ := reads.exists_middle
  obtain ⟨place₃, reads₃, reads⟩ := reads.exists_middle
  obtain ⟨place₄, reads₄, reads⟩ := reads.exists_middle
  obtain ⟨place₅, reads₅, reads⟩ := reads.exists_middle
  obtain ⟨place₆, reads₆, reads⟩ := reads.exists_middle
  obtain ⟨place₇, reads₇, reads₈⟩ := reads.exists_middle
  have unspaced₃ : begins isBlank place₃.rest = false := by
    rw [reads₄.rest_eq]
    rfl
  have unspaced₂ : begins isBlank place₂.rest = false := by
    rw [reads₃.rest_eq]
    exact isDeclare.begins_eq_false rfl rfl unspaced₃
  have unspaced₅ : begins isBlank place₅.rest = false := by
    rw [reads₆.rest_eq]
    exact Bool.eq_false_iff.2 fun blank => by
      simp [not_isNameChar_of_isBlank blank] at isName
  have lower : begins Char.isLower place₁.rest = true := by
    rw [reads₂.rest_eq, reads₃.rest_eq, reads₄.rest_eq]
    rcases isExport with rfl | ⟨_, rfl, -⟩
    · rcases isDeclare with rfl | ⟨_, rfl, -⟩ <;> rfl
    · rfl
  have opened : begins (· != '\x7b') place₇.rest = false := by
    rw [reads₈.rest_eq]
    rfl
  have clean : ∀ d ∈ more, (d != '\x7b') = true := by
    intro d mem
    simpa using ne_of_mem_of_not_mem mem unopened
  rw [interface_parts]
  refine mem_ends_append.2 ⟨_, mem_ends_lineStart.2 ⟨follows, rfl⟩, ?_⟩
  refine mem_ends_append.2 ⟨_, mem_ends_most.2 ⟨indent, place₁, reads₁, isIndent, lower, rfl⟩, ?_⟩
  refine mem_ends_append.2 ⟨_, mem_ends_of_modifier isExport reads₂ unspaced₂, ?_⟩
  refine mem_ends_append.2 ⟨_, mem_ends_of_modifier isDeclare reads₃ unspaced₃, ?_⟩
  refine mem_ends_append.2 ⟨_, mem_ends_lit.2 ⟨place₄, reads₄, rfl⟩, ?_⟩
  refine mem_ends_append.2 ⟨_, Component.mem_ends_gap.2
    ⟨blanks, place₅, some, areBlank, reads₅, unspaced₅, rfl⟩, ?_⟩
  refine mem_ends_append.2 ⟨_, mem_ends_one.2 ⟨c, place₆, isName, reads₆, rfl⟩, ?_⟩
  exact mem_ends_append.2 ⟨_, mem_ends_every.2 ⟨more, place₇, reads₇, clean, opened, rfl⟩,
    mem_ends_lit.2 ⟨there, reads₈, rfl⟩⟩

theorem exists_ends_interface (here : Cursor) :
    (∃ last, last ∈ interfaceHead.ends ⟨here, []⟩) ↔
      ∃ word rest, here.rest = word ++ rest ∧ interfaceToken.follows here.before ∧
        interfaceToken.reads word ∧ interfaceToken.precedes rest.head? := by
  constructor
  · rintro ⟨last, ends⟩
    exact spellsInterface_of_mem_ends ends
  · rintro ⟨word, rest, rest_eq, follows, spells, -⟩
    obtain ⟨stop, reads, -⟩ := exists_reads word rest_eq
    exact ⟨_, mem_ends_of_spellsInterface reads follows spells⟩

theorem interfaceHead_occursIn_iff (text : List Char) :
    interfaceHead.occursIn text = true ↔ interfaceToken.OccursIn text :=
  occursIn_iff_of_ends exists_ends_interface text

theorem eraseInterface?_eq_none_iff :
    eraseInterface? text = none ↔ ¬interfaceToken.OccursIn text := by
  rw [← interfaceHead_occursIn_iff, occursIn, eraseInterface?]
  cases interfaceHead.first? text <;> simp

theorem eraseAlias?_eq_none_iff :
    eraseAlias? text = none ↔ aliasHead.occursIn text = false := by
  rw [occursIn, eraseAlias?]
  cases aliasHead.first? text <;> simp

theorem SpellsInterface.ne_nil {word : List Char} (spells : SpellsInterface word) : word ≠ [] := by
  obtain ⟨indent, «export», declare, blanks, c, more, rfl, -⟩ := spells
  simp

/-! ## What the second loop leaves of the first -/

/-- The text that is left when interfaces are erased. -/
def withoutInterfaces (text : List Char) : List Char :=
  exhaust eraseInterface? text.length text

theorem withoutInterfaces_mem_eval (text : List Char) :
    withoutInterfaces text ∈ eval eraseInterface? text :=
  exhaust_mem_eval eraseInterface?_shortens (Nat.le_refl _)

theorem erase_mem_eval (text : List Char) :
    erase text ∈ eval eraseAlias? (withoutInterfaces text) :=
  exhaust_mem_eval eraseAlias?_shortens (Nat.le_refl _)

/-- The erasure of an alias puts an interface to the start of a line, right behind the alias or
reaching over the place where it was, and no later one takes the last interface away. -/
def Uncovers (text : List Char) : Prop :=
  ∃ middle edit, Reaches eraseAlias? (withoutInterfaces text) middle ∧
    Pass.aliasEdit? middle = some edit ∧ Joins edit interfaceToken ∧
    ∀ later, Reaches eraseAlias? (after edit) later → interfaceToken.OccursIn later

theorem aliasEdit?_map (text : List Char) :
    (Pass.aliasEdit? text).map after = eraseAlias? text := by
  rw [Pass.aliasEdit?, eraseAlias?, Option.map_map]
  congr 1
  funext head
  exact Pass.after_cutOut _ _ _

theorem occursIn_erase_iff (text : List Char) :
    interfaceToken.OccursIn (erase text) ↔ Uncovers text := by
  have ends := erase_mem_eval text
  constructor
  · intro left
    have none : ¬interfaceToken.OccursIn (withoutInterfaces text) :=
      eraseInterface?_eq_none_iff.1 (mem_eval.1 (withoutInterfaces_mem_eval text)).2
    rcases always_or_brings ends left with all | ⟨middle, shorter, run, made, missing, all⟩
    · exact absurd (all _ .refl) none
    · rw [← aliasEdit?_map, Option.map_eq_some_iff] at made
      obtain ⟨edit, made, rfl⟩ := made
      have joins := (joins_or_occursIn (fun _ => SpellsInterface.ne_nil) (fun _ => trivial)
        (all _ .refl)).resolve_right fun earlier =>
          missing (Pass.before_aliasEdit? made ▸ earlier)
      exact ⟨middle, edit, run, made, joins, all⟩
  · rintro ⟨middle, edit, run, made, -, all⟩
    have step : eraseAlias? middle = some (after edit) := by
      rw [← aliasEdit?_map, made, Option.map_some]
    exact all _ (reaches_of_eval ends (.tail run step))

/-- The erasure has nothing more to do just if it leaves no interface. -/
theorem erase_erase_iff (text : List Char) :
    erase (erase text) = erase text ↔ ¬interfaceToken.OccursIn (erase text) := by
  rw [← eraseInterface?_eq_none_iff]
  constructor
  · intro same
    cases made : eraseInterface? (erase text) with
    | none => rfl
    | some shorter =>
        have less := eraseInterface?_shortens made
        have interfaces : (withoutInterfaces (erase text)).length ≤ shorter.length :=
          length_le_of_reaches eraseInterface?_shortens
            (reaches_of_eval (withoutInterfaces_mem_eval _) (.single made))
        have aliases : (erase (erase text)).length ≤ (withoutInterfaces (erase text)).length :=
          length_le_of_reaches eraseAlias?_shortens (mem_eval.1 (erase_mem_eval _)).1
        rw [same] at aliases
        omega
  · intro none
    have interfaces : withoutInterfaces (erase text) = erase text := exhaust_of_none none _
    change exhaust eraseAlias? (withoutInterfaces (erase text)).length
      (withoutInterfaces (erase text)) = erase text
    rw [interfaces]
    exact exhaust_of_none (mem_eval.1 (erase_mem_eval text)).2 _

/-- Either loop comes to an end, as each of its rounds shortens the text. No alias is left, and an
interface just if the erasure of an alias uncovers it, which is also when there is more to do. -/
theorem interface_left_iff_uncovers (text : List Char) :
    (∀ shorter, eraseInterface? text = some shorter → shorter.length < text.length) ∧
      (∀ shorter, eraseAlias? text = some shorter → shorter.length < text.length) ∧
      withoutInterfaces text ∈ eval eraseInterface? text ∧
      erase text ∈ eval eraseAlias? (withoutInterfaces text) ∧
      aliasHead.occursIn (erase text) = false ∧
      (interfaceHead.occursIn (erase text) = true ↔ Uncovers text) ∧
      (erase (erase text) = erase text ↔ ¬Uncovers text) := by
  have ends := erase_mem_eval text
  have left : interfaceHead.occursIn (erase text) = true ↔ Uncovers text := by
    rw [interfaceHead_occursIn_iff]
    exact occursIn_erase_iff text
  have settled : erase (erase text) = erase text ↔ ¬Uncovers text := by
    rw [erase_erase_iff, occursIn_erase_iff]
  have noAlias : aliasHead.occursIn (erase text) = false :=
    eraseAlias?_eq_none_iff.1 (mem_eval.1 ends).2
  exact ⟨fun _ => eraseInterface?_shortens, fun _ => eraseAlias?_shortens,
    withoutInterfaces_mem_eval text, ends, noAlias, left, settled⟩

/-- The interface behind an alias is no interface yet when interfaces are looked for. -/
theorem interface_behind_alias_left :
    let text := "type A = 1; interface B \x7b b: A \x7d\n".toList
    interfaceHead.occursIn (erase text) = true ∧ erase (erase text) ≠ erase text := by
  decide +kernel

end Declaration

end ComponentPreview
