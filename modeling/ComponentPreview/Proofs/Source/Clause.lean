import ComponentPreview.Proofs.Text.Collect
import ComponentPreview.Proofs.Text.Preference
import ComponentPreview.Proofs.Type.Expression
import ComponentPreview.Source.Import

/-!
# The clause of an import

A clause is cut at braces and commas, and each piece is reduced to the local name that it binds.
That gives back the names of the clause (`Clause.boundNames_text`), but for a specifier that gives
an alias to something called `type`: the name is taken for a modifier, and what is left is no name.
-/

namespace ComponentPreview

namespace Text

variable {isCut drop : Char → Bool} {part rest left word right : List Char} {c : Char}

theorem cut_cons (isCut : Char → Bool) (c : Char) (rest : List Char) : cut isCut (c :: rest) =
    if isCut c then [] :: cut isCut rest
    else (c :: (cut isCut rest).headD []) :: (cut isCut rest).tail := by
  cases parts : cut isCut rest with
  | nil => exact absurd parts (cut_ne_nil isCut rest)
  | cons part others =>
      rw [cut] at parts ⊢
      rw [List.foldr_cons, parts]
      rfl

theorem cut_of_clean (clean : ∀ c ∈ part, isCut c = false) : cut isCut part = [part] := by
  induction part with
  | nil => rfl
  | cons c part ih =>
      obtain ⟨kept, clean⟩ := List.forall_mem_cons.1 clean
      simp [cut_cons, ih clean, kept]

theorem cut_append_cons (clean : ∀ c ∈ part, isCut c = false) (mark : isCut c = true) :
    cut isCut (part ++ c :: rest) = part :: cut isCut rest := by
  induction part with
  | nil => simp [cut_cons, mark]
  | cons d part ih =>
      obtain ⟨kept, clean⟩ := List.forall_mem_cons.1 clean
      simp [cut_cons, ih clean, kept]

/-- What begins and ends otherwise is what trimming leaves. -/
theorem trim_around (dropLeft : ∀ c ∈ left, drop c = true) (dropRight : ∀ c ∈ right, drop c = true)
    (first : ∀ c ∈ word.head?, drop c = false) (last : ∀ c ∈ word.getLast?, drop c = false) :
    trim drop (left ++ word ++ right) = word := by
  have trimmed {text : List Char} (head : ∀ c ∈ text.head?, drop c = false) :
      text.dropWhile drop = text := by
    cases text with
    | nil => rfl
    | cons c text => exact List.dropWhile_cons_of_neg (by simpa using head c rfl)
  cases word with
  | nil =>
      have all : ∀ c ∈ left ++ [] ++ right, drop c = true := by
        simpa [or_imp, forall_and] using ⟨dropLeft, dropRight⟩
      rw [trim, trimStart, ← List.append_nil (left ++ [] ++ right),
        List.dropWhile_append_of_pos all]
      rfl
  | cons c word =>
      have front : trimStart drop (left ++ (c :: word) ++ right) = c :: word ++ right := by
        rw [trimStart, List.append_assoc, List.dropWhile_append_of_pos dropLeft]
        exact trimmed first
      have back : (c :: word ++ right).reverse.dropWhile drop = (c :: word).reverse := by
        rw [List.reverse_append, List.dropWhile_append_of_pos (by simpa using dropRight)]
        exact trimmed (by rwa [List.head?_reverse])
      rw [trim, front, trimEnd, back, List.reverse_reverse]

end Text

theorem Identifier.not_isBlank_of_mem (id : Identifier) {c : Char} (mem : c ∈ id.text) :
    isBlank c = false :=
  not_isBlank_of_isNameChar (id.isNameChar_of_mem mem)

theorem Identifier.text_ne_nil (id : Identifier) : id.text ≠ [] := by
  obtain ⟨c, others, eq, -⟩ := id.exists_head
  simp [eq]

namespace Import

open Pattern

/-! ## One specifier -/

/-- One name of a list in braces, with what it is called here. -/
structure Specifier where
  isType : Bool
  name : Identifier
  alias? : Option Identifier

namespace Specifier

variable (specifier : Specifier)

def aliased : Option Identifier → List Char
  | none => []
  | some renamed => " as ".toList ++ renamed.text

def bare : List Char :=
  specifier.name.text ++ aliased specifier.alias?

def text : List Char :=
  (if specifier.isType then "type ".toList else []) ++ specifier.bare

def bound : List Char :=
  (specifier.alias?.getD specifier.name).text

/-- An alias for something that is called like the modifier. -/
def IsMisread : Prop :=
  specifier.isType = false ∧ specifier.name.text = "type".toList ∧ specifier.alias? ≠ none

instance : Decidable specifier.IsMisread :=
  inferInstanceAs (Decidable (_ ∧ _ ∧ _))

/-- The name that the scan takes to be bound. -/
def read : List Char :=
  if specifier.IsMisread then "as ".toList ++ specifier.bound else specifier.bound

theorem read_eq_bound_iff : specifier.read = specifier.bound ↔ ¬specifier.IsMisread := by
  rw [read]
  split
  · next misread =>
      refine iff_of_false (fun same => ?_) (not_not_intro misread)
      have longer := congrArg List.length same
      have three : "as ".toList.length = 3 := rfl
      rw [List.length_append] at longer
      omega
  · next other => exact iff_of_true rfl other

end Specifier

/-! ## Reading one piece -/

section

variable {text rest word front back left right name : List Char}

theorem dropOpening_of_not_mem {pattern : Pattern}
    (none : ∀ last, last ∉ pattern.ends ⟨.start text, []⟩) : dropOpening pattern text = text := by
  rw [dropOpening, opening?, at?_eq, List.eq_nil_iff_forall_not_mem.2 none]
  rfl

theorem prefers_space {here there : Cursor} (reads : here.Reads [' '] there)
    (stop : begins isBlank there.rest = false) : gap.Prefers here there :=
  .gap reads (by simp) (by simp [isBlank]) stop

theorem dropOpening_modifier (stop : begins isBlank rest = false) :
    dropOpening (lit "type" ++ gap) ("type ".toList ++ rest) = rest := by
  obtain ⟨middle, reads, middle_eq⟩ := exists_reads_start "type".toList (' ' :: rest)
  obtain ⟨last, reads', last_eq⟩ := exists_reads [' '] middle_eq
  obtain ⟨found, found_at, rfl⟩ := at?_of_prefers
    ((Prefers.lit reads).append (prefers_space reads' (last_eq ▸ stop)))
  have opening : (lit "type" ++ gap).opening? ("type ".toList ++ rest) = some found := found_at
  rw [dropOpening, opening]
  exact last_eq

/-- A modifier stands before white space. -/
theorem not_mem_ends_modifier
    (h : ∀ c rest, text = "type".toList ++ c :: rest → isBlank c = false) (last : Progress) :
    last ∉ (lit "type" ++ gap).ends ⟨.start text, []⟩ := by
  intro ends
  obtain ⟨middle, word, spaced⟩ := mem_ends_append.1 ends
  obtain ⟨_ | ⟨c, blanks⟩, there, some, areBlank, reads, -⟩ := Component.mem_ends_gap.1 spaced
  · exact some rfl
  · have solid := h c _ (((reads_of_lit word).trans reads).rest_eq.trans (by simp; rfl))
    rw [areBlank c List.mem_cons_self] at solid
    cases solid

theorem aliasMark_parts : aliasMark = gap ++ (lit "as" ++ gap) := rfl

/-- An alias has white space before and behind its mark. -/
theorem countP_of_aliasMark {here : Cursor} {found : Match}
    (h : aliasMark.at? here = some found) : 2 ≤ here.rest.countP isBlank := by
  obtain ⟨last, ends, -⟩ := exists_end_of_at? h
  rw [aliasMark_parts] at ends
  obtain ⟨_, front, ends⟩ := mem_ends_append.1 ends
  obtain ⟨_, word, back⟩ := mem_ends_append.1 ends
  obtain ⟨blanks, there, some, areBlank, reads, -, rfl⟩ := Component.mem_ends_gap.1 front
  obtain ⟨blanks', there', some', areBlank', reads', -, rfl⟩ := Component.mem_ends_gap.1 back
  have positive : 0 < blanks.length := List.length_pos_iff.2 some
  have positive' : 0 < blanks'.length := List.length_pos_iff.2 some'
  rw [((reads.trans (reads_of_lit word)).trans reads').rest_eq]
  simp only [List.countP_append, List.countP_eq_length.2 areBlank,
    List.countP_eq_length.2 areBlank']
  omega

theorem cut_aliasMark_of_few (few : text.countP isBlank < 2) : aliasMark.cut text = [text] := by
  refine cut_of_passes fun lead middle reads _ => ?_
  rw [Option.eq_none_iff_forall_ne_some]
  intro found found_at
  have blanks := countP_of_aliasMark found_at
  have whole : text.countP isBlank = lead.countP isBlank + middle.rest.countP isBlank := by
    rw [← List.countP_append, ← reads.rest_eq]
    rfl
  omega

theorem cut_aliasMark {front back : List Char} (solid : ∀ c ∈ front, isBlank c = false)
    (solid' : ∀ c ∈ back, isBlank c = false) :
    aliasMark.cut (front ++ (" as ".toList ++ back)) = [front, back] := by
  obtain ⟨middle, reads, middle_eq⟩ := exists_reads_start front (" as ".toList ++ back)
  obtain ⟨spaced, reads₁, spaced_eq⟩ := exists_reads [' '] middle_eq
  obtain ⟨marked, reads₂, marked_eq⟩ := exists_reads "as".toList spaced_eq
  obtain ⟨last, reads₃, last_eq⟩ := exists_reads [' '] marked_eq
  obtain ⟨there, reads', ended⟩ := exists_reads_rest last_eq
  have shown : begins isBlank last.rest = false := by
    rw [last_eq, Component.begins_eq_false]
    exact fun c head => solid' c (List.mem_of_mem_head? head)
  obtain ⟨found, found_at, rfl⟩ := at?_of_prefers
    ((prefers_space reads₁ (spaced_eq ▸ rfl)).append
      ((Prefers.lit reads₂).append (prefers_space reads₃ shown)))
  have found_eq := (reads_of_at? found_at).word_unique (reads₁.trans (reads₂.trans reads₃))
  have heads (here : Cursor) (found : Match) (h : aliasMark.at? here = some found) :
      begins isBlank here.rest = true := by
    obtain ⟨last, ends, -⟩ := exists_end_of_at? h
    rw [aliasMark_parts] at ends
    obtain ⟨_, front, -⟩ := mem_ends_append.1 ends
    obtain ⟨_ | ⟨c, blanks⟩, there, some, areBlank, reads, -⟩ := Component.mem_ends_gap.1 front
    · exact absurd rfl some
    · rw [reads.rest_eq]
      exact areBlank c List.mem_cons_self
  exact cut_of_at? reads (.of_heads heads reads solid) found_at (by simp [found_eq]) reads' ended
    (.of_heads heads reads' solid')

/-- Whether a text begins and ends with something visible, if it is not empty. -/
def IsTrim (word : List Char) : Prop :=
  (∀ c ∈ word.head?, isBlank c = false) ∧ ∀ c ∈ word.getLast?, isBlank c = false

theorem isTrim_of_solid (solid : ∀ c ∈ word, isBlank c = false) : IsTrim word :=
  ⟨fun c head => solid c (List.mem_of_mem_head? head),
    fun c last => solid c (List.mem_of_getLast? last)⟩

theorem isTrim_append (solid : ∀ c ∈ front, isBlank c = false) (some : front ≠ [])
    (solid' : ∀ c ∈ back, isBlank c = false) (some' : back ≠ []) (middle : List Char) :
    IsTrim (front ++ (middle ++ back)) := by
  obtain ⟨c, front, rfl⟩ := List.exists_cons_of_ne_nil some
  obtain ⟨back, d, rfl⟩ : ∃ others d, back = others ++ [d] :=
    ⟨_, _, (List.dropLast_concat_getLast some').symm⟩
  constructor
  · simpa using solid c List.mem_cons_self
  · rw [← List.append_assoc, ← List.append_assoc, List.getLast?_concat]
    simpa using solid' d (by simp)

theorem trim_eq (trimmed : IsTrim word) : Text.trim isBlank word = word := by
  have around : Text.trim isBlank ([] ++ word ++ []) = word :=
    Text.trim_around (List.forall_mem_nil _) (List.forall_mem_nil _) trimmed.1 trimmed.2
  rwa [List.nil_append, List.append_nil] at around

/-- A piece gives the last part of what is left of it behind a modifier. -/
theorem localName_around (areBlank : ∀ c ∈ left, isBlank c = true)
    (areBlank' : ∀ c ∈ right, isBlank c = true) (trimmed : IsTrim word)
    (last : (aliasMark.cut (dropOpening (lit "type" ++ gap) word)).getLastD [] = name)
    (trimmed' : IsTrim name) (visible : name ≠ ['*']) :
    localName (left ++ word ++ right) = name := by
  rw [localName, Text.trim_around areBlank areBlank' trimmed.1 trimmed.2, last, trim_eq trimmed']
  simp [visible]

end

namespace Specifier

variable (specifier : Specifier)

theorem cut_bare : (aliasMark.cut specifier.bare).getLastD [] = specifier.bound := by
  obtain ⟨isType, name, _ | renamed⟩ := specifier
  · have none : name.text.countP isBlank = 0 :=
      List.countP_eq_zero.2 fun c mem => by simp [name.not_isBlank_of_mem mem]
    have few : name.text.countP isBlank < 2 := by omega
    rw [bare, aliased, List.append_nil, cut_aliasMark_of_few few]
    rfl
  · rw [bare, aliased, cut_aliasMark (fun c => name.not_isBlank_of_mem)
      fun c => renamed.not_isBlank_of_mem]
    rfl

theorem begins_bare : begins isBlank specifier.bare = false := by
  obtain ⟨isType, name, alias?⟩ := specifier
  obtain ⟨c, others, eq, -, shown⟩ := name.exists_head
  simp [bare, eq, begins, shown]

/-- Only a modifier is dropped, and what is taken for one. -/
theorem dropOpening_text : dropOpening (lit "type" ++ gap) specifier.text =
    if specifier.IsMisread then "as ".toList ++ specifier.bound else specifier.bare := by
  obtain ⟨_ | _, name, alias?⟩ := specifier
  · cases alias? with
    | none =>
        rw [if_neg (by simp [IsMisread])]
        refine dropOpening_of_not_mem (not_mem_ends_modifier fun c rest eq => ?_)
        have named : name.text = "type".toList ++ c :: rest := by
          rw [← eq, text, bare, aliased, List.append_nil]
          rfl
        exact name.not_isBlank_of_mem (by simp [named])
    | some renamed =>
        by_cases named : name.text = "type".toList
        · rw [if_pos ⟨rfl, named, by simp⟩]
          have whole : text ⟨false, name, some renamed⟩ =
              "type ".toList ++ ("as ".toList ++ renamed.text) := by
            simp [text, bare, aliased, named]
          rw [whole, dropOpening_modifier rfl]
          rfl
        · rw [if_neg fun misread => named misread.2.1]
          refine dropOpening_of_not_mem (not_mem_ends_modifier fun c rest eq => ?_)
          refine Bool.eq_false_iff.2 fun blank => named ?_
          have solid : ∀ d ∈ "type".toList, isBlank d = false := by simp [isBlank]
          have same : name.text ++ ' ' :: ("as ".toList ++ renamed.text) =
              "type".toList ++ c :: rest := by
            simpa [text, bare, aliased] using eq
          exact (Text.first_unique isBlank same (fun d => name.not_isBlank_of_mem) (by decide)
            solid blank).1
  · rw [if_neg (by simp [IsMisread])]
    exact dropOpening_modifier (begins_bare _)

theorem bound_solid {c : Char} (mem : c ∈ specifier.bound) : isBlank c = false :=
  Identifier.not_isBlank_of_mem _ mem

theorem bound_ne_nil : specifier.bound ≠ [] :=
  Identifier.text_ne_nil _

theorem read_ne_nil : specifier.read ≠ [] := by
  rw [read]
  split <;> simp [bound_ne_nil]

theorem isTrim_text : IsTrim specifier.text := by
  have keyword : ∀ c ∈ "type".toList, isBlank c = false := by simp [isBlank]
  obtain ⟨_ | _, name, _ | renamed⟩ := specifier
  · have whole : text ⟨false, name, none⟩ = name.text := by simp [text, bare, aliased]
    rw [whole]
    exact isTrim_of_solid fun c => name.not_isBlank_of_mem
  · exact isTrim_append (fun c => name.not_isBlank_of_mem) name.text_ne_nil
      (fun c => renamed.not_isBlank_of_mem) renamed.text_ne_nil _
  · have whole : text ⟨true, name, none⟩ = "type".toList ++ ([' '] ++ name.text) := by
      simp [text, bare, aliased]
    rw [whole]
    exact isTrim_append keyword (by decide) (fun c => name.not_isBlank_of_mem) name.text_ne_nil _
  · have whole : text ⟨true, name, some renamed⟩ =
        "type".toList ++ ((' ' :: (name.text ++ " as ".toList)) ++ renamed.text) := by
      simp [text, bare, aliased]
    rw [whole]
    exact isTrim_append keyword (by decide) (fun c => renamed.not_isBlank_of_mem)
      renamed.text_ne_nil _

theorem isTrim_read : IsTrim specifier.read := by
  have solid : ∀ c ∈ "as".toList, isBlank c = false := by simp [isBlank]
  rw [read]
  split
  · exact isTrim_append solid (by decide) (fun c => specifier.bound_solid) specifier.bound_ne_nil
      [' ']
  · exact isTrim_of_solid fun c => specifier.bound_solid

theorem localName_text {left right : List Char} (areBlank : ∀ c ∈ left, isBlank c = true)
    (areBlank' : ∀ c ∈ right, isBlank c = true) :
    localName (left ++ specifier.text ++ right) = specifier.read := by
  refine localName_around areBlank areBlank' specifier.isTrim_text ?_ specifier.isTrim_read ?_
  · rw [dropOpening_text, read]
    split
    · have none : specifier.bound.countP isBlank = 0 :=
        List.countP_eq_zero.2 fun c mem => by simp [specifier.bound_solid mem]
      have few : ("as ".toList ++ specifier.bound).countP isBlank < 2 := by
        rw [List.countP_append, none]
        decide
      rw [cut_aliasMark_of_few few]
      rfl
    · exact specifier.cut_bare
  · have named : '*' ∉ specifier.bound := fun mem =>
      absurd (Identifier.isNameChar_of_mem _ mem) (by decide)
    rw [read]
    split
    · exact nofun
    · exact fun same => named (same ▸ List.mem_singleton_self _)

end Specifier

/-! ## A clause -/

/-- What an import binds: the default export, all of a module, or a list in braces, which may have
white space within the braces. -/
inductive Clause
  | single (name : Identifier)
  | whole (first? : Option Identifier) (name : Identifier)
  | items (first? : Option Identifier) (pad : Gap) (items : List Specifier)

namespace Clause

def leading : Option Identifier → List Char
  | none => []
  | some name => name.text ++ ", ".toList

def text : Clause → List Char
  | single name => name.text
  | whole first? name => leading first? ++ ("* as ".toList ++ name.text)
  | items first? pad listed => leading first? ++
      '\x7b' :: (pad.text ++ (Text.join ", ".toList (listed.map Specifier.text) ++
        (pad.text ++ ['\x7d'])))

/-- The local names that a clause binds. -/
def bound : Clause → List (List Char)
  | single name => [name.text]
  | whole first? name => first?.toList.map Identifier.text ++ [name.text]
  | items first? _ listed => first?.toList.map Identifier.text ++ listed.map Specifier.bound

/-- The names that the scan takes to be bound. -/
def read : Clause → List (List Char)
  | items first? _ listed => first?.toList.map Identifier.text ++ listed.map Specifier.read
  | clause => clause.bound

/-- The names in braces. -/
def specifiers : Clause → List Specifier
  | items _ _ listed => listed
  | _ => []

theorem read_eq_bound_iff (clause : Clause) :
    clause.read = clause.bound ↔ ∀ specifier ∈ clause.specifiers, ¬specifier.IsMisread := by
  cases clause with
  | single | whole => exact iff_of_true rfl (List.forall_mem_nil _)
  | items first? pad listed =>
      simp only [read, bound, specifiers, List.append_cancel_left_eq, List.map_inj_left,
        Specifier.read_eq_bound_iff]

end Clause

/-! ## Reading the pieces -/

section

variable {c : Char} {piece left right name : List Char} {pieces : List (List Char)}

/-- The names of the pieces that bind one. -/
def kept (pieces : List (List Char)) : List (List Char) :=
  (pieces.map localName).filter (!·.isEmpty)

theorem kept_named (reads : localName piece = name) (some : name ≠ []) :
    kept (piece :: pieces) = name :: kept pieces := by
  simp [kept, reads, some]

theorem localName_blank (areBlank : ∀ c ∈ piece, isBlank c = true) : localName piece = [] := by
  have nothing : dropOpening (lit "type" ++ gap) [] = [] :=
    dropOpening_of_not_mem (not_mem_ends_modifier nofun)
  have last : (aliasMark.cut (dropOpening (lit "type" ++ gap) [])).getLastD [] = [] := by
    rw [nothing, cut_aliasMark_of_few (by decide)]
    rfl
  have empty : IsTrim [] := isTrim_of_solid nofun
  have around := localName_around areBlank (List.forall_mem_nil _) empty last empty nofun
  rwa [List.append_nil, List.append_nil] at around

theorem kept_blank (areBlank : ∀ c ∈ piece, isBlank c = true) :
    kept (piece :: pieces) = kept pieces := by
  simp [kept, localName_blank areBlank]

theorem localName_identifier (id : Identifier) (areBlank : ∀ c ∈ left, isBlank c = true)
    (areBlank' : ∀ c ∈ right, isBlank c = true) :
    localName (left ++ id.text ++ right) = id.text := by
  have reads := Specifier.localName_text ⟨false, id, none⟩ areBlank areBlank'
  rw [Specifier.read, if_neg (by simp [Specifier.IsMisread])] at reads
  simpa [Specifier.text, Specifier.bare, Specifier.aliased, Specifier.bound] using reads

theorem localName_whole (id : Identifier) (areBlank : ∀ c ∈ left, isBlank c = true) :
    localName (left ++ ("* as ".toList ++ id.text)) = id.text := by
  have star : ∀ c ∈ ['*'], isBlank c = false := by simp [isBlank]
  have trimmed : IsTrim ("* as ".toList ++ id.text) :=
    isTrim_append star (by simp) (fun c => id.not_isBlank_of_mem) id.text_ne_nil " as ".toList
  have same : dropOpening (lit "type" ++ gap) ("* as ".toList ++ id.text) =
      "* as ".toList ++ id.text :=
    dropOpening_of_not_mem (not_mem_ends_modifier nofun)
  have last : (aliasMark.cut (dropOpening (lit "type" ++ gap)
      ("* as ".toList ++ id.text))).getLastD [] = id.text := by
    rw [same]
    exact congrArg (·.getLastD []) (cut_aliasMark star fun c => id.not_isBlank_of_mem)
  have visible : id.text ≠ ['*'] := by
    intro named
    exact absurd (id.isNameChar_of_mem (c := '*') (by simp [named])) (by decide)
  have around := localName_around areBlank (List.forall_mem_nil _) trimmed last
    (isTrim_of_solid fun c => id.not_isBlank_of_mem) visible
  rwa [List.append_nil] at around

theorem mem_signs_of_isSpecifierCut (cut : isSpecifierCut c = true) : c ∈ signs := by
  simp only [isSpecifierCut, Bool.or_eq_true, beq_iff_eq] at cut
  rcases cut with (rfl | rfl) | rfl <;> decide

theorem not_isSpecifierCut_of_isBlank (blank : isBlank c = true) : isSpecifierCut c = false := by
  refine Bool.eq_false_iff.2 fun cut => ?_
  rw [not_isBlank_of_mem_signs (mem_signs_of_isSpecifierCut cut)] at blank
  cases blank

theorem not_isSpecifierCut_of_identifier (id : Identifier) (mem : c ∈ id.text) :
    isSpecifierCut c = false :=
  Bool.eq_false_iff.2 fun cut => id.not_mem_signs mem (mem_signs_of_isSpecifierCut cut)

theorem isSpecifierChar_of_isBlank (blank : isBlank c = true) : isSpecifierChar c = true := by
  simp [isSpecifierChar, blank]

theorem isSpecifierChar_of_identifier (id : Identifier) (mem : c ∈ id.text) :
    isSpecifierChar c = true := by
  simp [isSpecifierChar, id.isNameChar_of_mem mem]

theorem Specifier.isBlank_or_isNameChar (specifier : Specifier) (mem : c ∈ specifier.text) :
    isBlank c = true ∨ isNameChar c = true := by
  have keyword := List.all_eq_true.1
    (show "type ".toList.all (fun c => isBlank c || isNameChar c) = true by decide)
  have mark := List.all_eq_true.1
    (show " as ".toList.all (fun c => isBlank c || isNameChar c) = true by decide)
  rw [text, bare, List.mem_append, List.mem_append] at mem
  rcases mem with modifier | named | aliased
  · split at modifier
    · exact Bool.or_eq_true_iff.1 (keyword c modifier)
    · cases modifier
  · exact .inr (Identifier.isNameChar_of_mem _ named)
  · cases renamed : specifier.alias? with
    | none => simp [renamed, Specifier.aliased] at aliased
    | some id =>
        rw [renamed, Specifier.aliased, List.mem_append] at aliased
        rcases aliased with marked | named
        · exact Bool.or_eq_true_iff.1 (mark c marked)
        · exact .inr (id.isNameChar_of_mem named)

theorem Specifier.clean (specifier : Specifier) (mem : c ∈ specifier.text) :
    isSpecifierCut c = false := by
  rcases specifier.isBlank_or_isNameChar mem with blank | named
  · exact not_isSpecifierCut_of_isBlank blank
  · refine Bool.eq_false_iff.2 fun cut => ?_
    rw [not_isNameChar_of_mem_signs (mem_signs_of_isSpecifierCut cut)] at named
    cases named

theorem Specifier.isSpecifierChar_text (specifier : Specifier) (mem : c ∈ specifier.text) :
    isSpecifierChar c = true := by
  rcases specifier.isBlank_or_isNameChar mem with blank | named
  · exact isSpecifierChar_of_isBlank blank
  · simp [isSpecifierChar, named]

end

/-- The names in braces, read up to the brace behind them. -/
theorem kept_items (listed : List Specifier) (pad : Gap) {left : List Char}
    (areBlank : ∀ c ∈ left, isBlank c = true) :
    kept (Text.cut isSpecifierCut (left ++ (Text.join ", ".toList (listed.map Specifier.text) ++
      (pad.text ++ ['\x7d'])))) = listed.map Specifier.read := by
  have padded : ∀ c ∈ pad.text, isBlank c = true := fun c mem => (pad.within c mem).1
  have plain {word : List Char} (areBlank : ∀ c ∈ word, isBlank c = true) :
      ∀ c ∈ word, isSpecifierCut c = false :=
    fun c mem => not_isSpecifierCut_of_isBlank (areBlank c mem)
  have last : kept (Text.cut isSpecifierCut []) = [] := kept_blank (List.forall_mem_nil _)
  induction listed generalizing left with
  | nil =>
      have whole : left ++ (Text.join ", ".toList [] ++ (pad.text ++ ['\x7d'])) =
          (left ++ pad.text) ++ '\x7d' :: [] := by simp [Text.join]
      have blank : ∀ c ∈ left ++ pad.text, isBlank c = true :=
        List.forall_mem_append.2 ⟨areBlank, padded⟩
      rw [List.map_nil, whole, Text.cut_append_cons (plain blank) rfl, kept_blank blank, last]
      rfl
  | cons specifier listed ih =>
      cases listed with
      | nil =>
          have whole : left ++ (Text.join ", ".toList [specifier.text] ++ (pad.text ++ ['\x7d'])) =
              (left ++ specifier.text ++ pad.text) ++ '\x7d' :: [] := by simp [Text.join]
          have clean : ∀ c ∈ left ++ specifier.text ++ pad.text, isSpecifierCut c = false :=
            List.forall_mem_append.2 ⟨List.forall_mem_append.2
              ⟨plain areBlank, fun _ => specifier.clean⟩, plain padded⟩
          rw [List.map_singleton, whole, Text.cut_append_cons clean rfl,
            kept_named (specifier.localName_text areBlank padded) specifier.read_ne_nil, last]
          rfl
      | cons other listed =>
          have whole : left ++ (Text.join ", ".toList (specifier.text :: other.text ::
              listed.map Specifier.text) ++ (pad.text ++ ['\x7d'])) =
              (left ++ specifier.text) ++ ',' :: ([' '] ++ (Text.join ", ".toList
                (other.text :: listed.map Specifier.text) ++ (pad.text ++ ['\x7d']))) := by
            simp [Text.join]
          have clean : ∀ c ∈ left ++ specifier.text, isSpecifierCut c = false :=
            List.forall_mem_append.2 ⟨plain areBlank, fun _ => specifier.clean⟩
          have reads := specifier.localName_text areBlank (List.forall_mem_nil _)
          rw [List.append_nil] at reads
          rw [List.map_cons, List.map_cons, whole, Text.cut_append_cons clean rfl,
            kept_named reads specifier.read_ne_nil, ← List.map_cons, ih (by simp [isBlank])]
          rfl

namespace Clause

/-- The default name of a clause is the first one, and white space is left before what follows. -/
theorem exists_kept_leading (first? : Option Identifier) (body : List Char) :
    ∃ left, (∀ c ∈ left, isBlank c = true) ∧
      kept (Text.cut isSpecifierCut (leading first? ++ body)) =
        first?.toList.map Identifier.text ++ kept (Text.cut isSpecifierCut (left ++ body)) := by
  cases first? with
  | none => exact ⟨[], List.forall_mem_nil _, rfl⟩
  | some id =>
      have whole : leading (some id) ++ body = id.text ++ ',' :: ([' '] ++ body) := by
        simp [leading]
      have reads := localName_identifier id (List.forall_mem_nil _) (List.forall_mem_nil _)
      rw [List.nil_append, List.append_nil] at reads
      refine ⟨[' '], by simp [isBlank], ?_⟩
      rw [whole, Text.cut_append_cons (fun _ => not_isSpecifierCut_of_identifier id) rfl,
        kept_named reads id.text_ne_nil]
      rfl

/-- What a clause begins with: a name up to its end or a comma, or a sign. -/
theorem text_cases (clause : Clause) :
    (∃ (id : Identifier) (body : List Char), clause.text = id.text ++ body ∧
      ∀ c ∈ body.head?, c = ',') ∨
    ∃ c rest, clause.text = c :: rest ∧ (c = '*' ∨ c = '\x7b') := by
  have leads (first? : Option Identifier) {c : Char} (rest : List Char)
      (sign : c = '*' ∨ c = '\x7b') :
      (∃ (id : Identifier) (body : List Char), leading first? ++ c :: rest = id.text ++ body ∧
        ∀ c ∈ body.head?, c = ',') ∨
      ∃ d others, leading first? ++ c :: rest = d :: others ∧ (d = '*' ∨ d = '\x7b') := by
    cases first? with
    | none => exact .inr ⟨c, rest, rfl, sign⟩
    | some id => exact .inl ⟨id, ", ".toList ++ c :: rest, by simp [leading], by simp⟩
  cases clause with
  | single id => exact .inl ⟨id, [], (List.append_nil _).symm, nofun⟩
  | whole first? id => exact leads first? _ (.inl rfl)
  | items first? pad listed => exact leads first? _ (.inr rfl)

theorem exists_head (clause : Clause) : ∃ c rest, clause.text = c :: rest ∧ isBlank c = false := by
  rcases clause.text_cases with ⟨id, body, eq, -⟩ | ⟨c, rest, eq, rfl | rfl⟩
  · obtain ⟨c, others, id_eq, -, shown⟩ := id.exists_head
    exact ⟨c, others ++ body, by rw [eq, id_eq, List.cons_append], shown⟩
  · exact ⟨_, _, eq, by decide⟩
  · exact ⟨_, _, eq, by decide⟩

theorem exists_last (clause : Clause) :
    ∃ front c, clause.text = front ++ [c] ∧ isBlank c = false := by
  have named (front : List Char) (id : Identifier) :
      ∃ others c, front ++ id.text = others ++ [c] ∧ isBlank c = false := by
    obtain ⟨others, c, eq⟩ : ∃ others c, id.text = others ++ [c] :=
      ⟨_, _, (List.dropLast_concat_getLast id.text_ne_nil).symm⟩
    exact ⟨front ++ others, c, by rw [eq, List.append_assoc], id.not_isBlank_of_mem (by simp [eq])⟩
  cases clause with
  | single id => exact named [] id
  | whole first? id =>
      rw [text, ← List.append_assoc]
      exact named _ id
  | items first? pad listed =>
      refine ⟨leading first? ++ '\x7b' :: (pad.text ++
        (Text.join ", ".toList (listed.map Specifier.text) ++ pad.text)), '\x7d', ?_, by decide⟩
      simp [text]

theorem isSpecifierChar_comma : ∀ c ∈ ", ".toList, isSpecifierChar c = true :=
  List.all_eq_true.1 (by decide)

theorem isSpecifierChar_leading (first? : Option Identifier) :
    ∀ c ∈ leading first?, isSpecifierChar c = true := by
  cases first? with
  | none => exact List.forall_mem_nil _
  | some id =>
      exact List.forall_mem_append.2
        ⟨fun _ => isSpecifierChar_of_identifier id, isSpecifierChar_comma⟩

theorem isSpecifierChar_text (clause : Clause) : ∀ c ∈ clause.text, isSpecifierChar c = true := by
  have star := List.all_eq_true.1 (show "* as ".toList.all isSpecifierChar = true by decide)
  cases clause with
  | single id => exact fun _ => isSpecifierChar_of_identifier id
  | whole first? id =>
      exact List.forall_mem_append.2 ⟨isSpecifierChar_leading first?, List.forall_mem_append.2
        ⟨star, fun _ => isSpecifierChar_of_identifier id⟩⟩
  | items first? pad listed =>
      have padded : ∀ c ∈ pad.text, isSpecifierChar c = true :=
        fun c mem => isSpecifierChar_of_isBlank (pad.within c mem).1
      have names : ∀ c ∈ Text.join ", ".toList (listed.map Specifier.text),
          isSpecifierChar c = true := by
        refine Text.join_induction (P := fun text => ∀ c ∈ text, isSpecifierChar c = true)
          (List.forall_mem_nil _) (fun h h' => List.forall_mem_append.2 ⟨h, h'⟩)
          isSpecifierChar_comma ?_
        rintro _ mem
        obtain ⟨specifier, -, rfl⟩ := List.mem_map.1 mem
        exact fun _ => specifier.isSpecifierChar_text
      exact List.forall_mem_append.2 ⟨isSpecifierChar_leading first?, List.forall_mem_cons.2
        ⟨by decide, List.forall_mem_append.2 ⟨padded, List.forall_mem_append.2
          ⟨names, List.forall_mem_append.2 ⟨padded, by simp [isSpecifierChar]⟩⟩⟩⟩⟩

/-- No clause begins with a modifier. -/
theorem dropOpening_text (clause : Clause) :
    dropOpening (spacing ++ lit "type" ++ gap) clause.text = clause.text := by
  have parts : spacing ++ lit "type" ++ gap = spacing ++ (lit "type" ++ gap) := rfl
  have plain (c : Char) (rest : List Char) (eq : clause.text = "type".toList ++ c :: rest) :
      isBlank c = false := by
    refine Bool.eq_false_iff.2 fun blank => ?_
    rcases clause.text_cases with ⟨id, body, text_eq, comma⟩ | ⟨d, others, text_eq, sign⟩
    · rw [text_eq] at eq
      cases body with
      | nil =>
          rw [List.append_nil] at eq
          rw [id.not_isBlank_of_mem (by simp [eq])] at blank
          cases blank
      | cons mark body =>
          obtain rfl := comma mark rfl
          have clean : ∀ d ∈ id.text, (isBlank d || d == ',') = false := fun d mem =>
            Bool.or_eq_false_iff.2 ⟨id.not_isBlank_of_mem mem, beq_eq_false_iff_ne.2 fun comma =>
              id.not_mem_signs mem (comma ▸ by decide)⟩
          have keyword : ∀ d ∈ "type".toList, (isBlank d || d == ',') = false := by
            simp [isBlank]
          obtain ⟨-, rfl, -⟩ := Text.first_unique (fun d => isBlank d || d == ',') eq clean
            (by simp) keyword (by simp [blank])
          exact absurd blank (by decide)
    · rw [text_eq] at eq
      obtain rfl : d = 't' := (List.cons.inj eq).1
      exact absurd sign (by decide)
  refine dropOpening_of_not_mem fun last ends => ?_
  rw [parts] at ends
  obtain ⟨_, spaced, ends⟩ := mem_ends_append.1 ends
  obtain ⟨_ | ⟨c, blanks⟩, there, reads, areBlank, -, rfl⟩ := mem_ends_every.1 spaced
  · rw [Cursor.Reads.nil_iff.1 reads] at ends
    exact not_mem_ends_modifier plain last ends
  · obtain ⟨d, rest, eq, shown⟩ := clause.exists_head
    have same : d :: rest = c :: blanks ++ there.rest := eq.symm.trans reads.rest_eq
    rw [(List.cons.inj same).1, areBlank c List.mem_cons_self] at shown
    cases shown

theorem boundNames_text (clause : Clause) :
    boundNames clause.text = clause.read.map String.ofList := by
  have pieces : kept (Text.cut isSpecifierCut clause.text) = clause.read := by
    cases clause with
    | single id =>
        have reads := localName_identifier id (List.forall_mem_nil _) (List.forall_mem_nil _)
        rw [List.nil_append, List.append_nil] at reads
        rw [text, Text.cut_of_clean fun _ => not_isSpecifierCut_of_identifier id,
          kept_named reads id.text_ne_nil]
        rfl
    | whole first? id =>
        obtain ⟨left, areBlank, eq⟩ := exists_kept_leading first? ("* as ".toList ++ id.text)
        have star : ∀ c ∈ "* as ".toList, isSpecifierCut c = false := by simp [isSpecifierCut]
        have clean : ∀ c ∈ left ++ ("* as ".toList ++ id.text), isSpecifierCut c = false :=
          List.forall_mem_append.2
            ⟨fun c mem => not_isSpecifierCut_of_isBlank (areBlank c mem),
              List.forall_mem_append.2 ⟨star, fun _ => not_isSpecifierCut_of_identifier id⟩⟩
        rw [text, eq, Text.cut_of_clean clean, kept_named (localName_whole id areBlank)
          id.text_ne_nil]
        rfl
    | items first? pad listed =>
        obtain ⟨left, areBlank, eq⟩ := exists_kept_leading first? ('\x7b' :: (pad.text ++
          (Text.join ", ".toList (listed.map Specifier.text) ++ (pad.text ++ ['\x7d']))))
        rw [text, eq, Text.cut_append_cons (fun c mem =>
          not_isSpecifierCut_of_isBlank (areBlank c mem)) rfl, kept_blank areBlank,
          kept_items listed pad fun c mem => (pad.within c mem).1]
        rfl
  rw [← pieces, boundNames, dropOpening_text]
  rfl

end Clause

end Import

end ComponentPreview
