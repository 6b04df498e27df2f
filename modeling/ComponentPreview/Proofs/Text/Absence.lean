import ComponentPreview.Proofs.Text.Dissection
import ComponentPreview.Text.Basic

/-!
# Absence

A pattern that spells a word out describes no stretch of a text in which the word does not stand.
Replacing what a pattern describes leaves a text as it is where there is no match, or where each
match is replaced by itself.
-/

namespace ComponentPreview

theorem Text.occurs_iff {needle text : List Char} :
    Text.occurs needle text = true ↔ needle <:+: text := by
  induction text with
  | nil => simp [Text.occurs]
  | cons c rest ih => simp [Text.occurs, ih, List.infix_cons_iff]

theorem Text.not_infix_of_mentions {text : List Char} {needle : String}
    (h : Text.mentions text needle = false) : ¬needle.toList <:+: text := by
  rw [← Text.occurs_iff]
  exact Bool.eq_false_iff.1 h

theorem Text.infix_join (separator : List Char) {parts : List (List Char)} {part : List Char}
    (h : part ∈ parts) : part <:+: Text.join separator parts := by
  fun_induction Text.join separator parts with
  | case1 => cases h
  | case2 only => exact List.mem_singleton.1 h ▸ List.infix_refl _
  | case3 first others more ih =>
      rcases List.mem_cons.1 h with rfl | later
      · exact ⟨[], separator ++ Text.join separator others, by simp⟩
      · exact (ih later).trans (List.suffix_append _ _).isInfix

/-- What holds of the parts and the separator, and of what is put together, holds of the whole. -/
theorem Text.join_induction {P : List Char → Prop} {separator : List Char}
    {texts : List (List Char)} (nil : P [])
    (append : ∀ {text other}, P text → P other → P (text ++ other)) (separated : P separator)
    (h : ∀ text ∈ texts, P text) : P (Text.join separator texts) := by
  fun_induction Text.join separator texts with
  | case1 => exact nil
  | case2 text => exact h text (by simp)
  | case3 text others more ih =>
      obtain ⟨first, later⟩ := List.forall_mem_cons.1 h
      exact append (append first separated) (ih later)

namespace Pattern

variable {pattern : Pattern} {text word : List Char}

/-- Whether each stretch that a pattern describes holds a word, as can be told from its parts. -/
def spells (word : List Char) : Pattern → Bool
  | .word text => Text.occurs word text
  | both left right => left.spells word || right.spells word
  | either left right => left.spells word && right.spells word
  | capture body => body.spells word
  | _ => false

theorem reads_of_spells {first last : Progress} (spelled : pattern.spells word = true)
    (h : last ∈ pattern.ends first) :
    ∃ stretch, first.here.Reads stretch last.here ∧ word <:+: stretch := by
  induction pattern generalizing first last with
  | word text =>
      obtain ⟨there, reads, rfl⟩ := mem_ends_word.1 h
      exact ⟨text, reads, Text.occurs_iff.1 spelled⟩
  | both left right ihl ihr =>
      obtain ⟨middle, leads, ends⟩ := List.mem_flatMap.1 h
      rw [spells, Bool.or_eq_true] at spelled
      rcases spelled with spelled | spelled
      · obtain ⟨stretch, reads, inside⟩ := ihl spelled leads
        obtain ⟨others, reads'⟩ := reads_of_mem_ends ends
        exact ⟨stretch ++ others, reads.trans reads',
          inside.trans (List.prefix_append _ _).isInfix⟩
      · obtain ⟨others, reads⟩ := reads_of_mem_ends leads
        obtain ⟨stretch, reads', inside⟩ := ihr spelled ends
        exact ⟨others ++ stretch, reads.trans reads',
          inside.trans (List.suffix_append _ _).isInfix⟩
  | either left right ihl ihr =>
      rw [spells, Bool.and_eq_true] at spelled
      exact (mem_ends_either.1 h).elim (ihl spelled.1) (ihr spelled.2)
  | capture body ih =>
      obtain ⟨later, ends, rfl⟩ := mem_ends_capture.1 h
      obtain ⟨stretch, reads, inside⟩ := ih spelled ends
      exact ⟨stretch, reads, inside⟩
  | _ => cases spelled

theorem infix_of_at? {here : Cursor} {found : Match} (word : List Char)
    (spelled : pattern.spells word = true) (found_at : pattern.at? here = some found) :
    word <:+: found.text := by
  have whole := reads_of_at? found_at
  obtain ⟨last, ends, rfl⟩ := exists_end_of_at? found_at
  obtain ⟨stretch, reads, inside⟩ := reads_of_spells spelled ends
  rwa [whole.word_unique reads]

theorem occursIn_of_spells (word : List Char) (spelled : pattern.spells word = true)
    (absent : ¬word <:+: text) :
    pattern.occursIn text = false := by
  rw [Bool.eq_false_iff, Ne, occursIn_iff]
  rintro ⟨lead, here, last, reads, ends⟩
  obtain ⟨stretch, reads', inside⟩ := reads_of_spells spelled ends
  have whole : text = lead ++ stretch ++ last.here.rest := (reads.trans reads').rest_eq
  exact absent (inside.trans ⟨lead, last.here.rest, whole.symm⟩)

theorem first?_of_spells (word : List Char) (spelled : pattern.spells word = true)
    (absent : ¬word <:+: text) :
    pattern.first? text = none := by
  simpa [occursIn] using occursIn_of_spells word spelled absent

theorem findAll_eq_nil (absent : pattern.occursIn text = false) : pattern.findAll text = [] := by
  rw [List.eq_nil_iff_forall_not_mem]
  intro found mem
  obtain ⟨lead, here, reads, found_at⟩ := at?_of_mem_findAll mem
  obtain ⟨last, ends, -⟩ := exists_end_of_at? found_at
  rw [Bool.eq_false_iff, Ne, occursIn_iff] at absent
  exact absent ⟨lead, here, last, reads, ends⟩

/-! ## What replacing leaves -/

theorem mem_findAll {found : Match} :
    found ∈ pattern.findAll text ↔ .found found ∈ pattern.dissect text := by
  rw [findAll, List.mem_filterMap]
  constructor
  · rintro ⟨_ | other, mem, eq⟩
    · cases eq
    · cases eq
      exact mem
  · exact fun mem => ⟨_, mem, rfl⟩

/-- A text reads as the characters outside every match and the matches. -/
theorem replace_text (pattern : Pattern) (text : List Char) :
    pattern.replace Match.text text = text := by
  let changes (found : Match) : List Change := [.put found.text found.text]
  have covers : pattern.Covers changes := fun _ _ _ => List.append_nil _
  have after : pattern.replace Match.text text = Edit.after (pattern.edit changes text) :=
    (after_edit (fun _ => List.append_nil _) text).symm
  rw [after]
  refine Eq.trans ?_ (before_edit covers text)
  refine congrArg List.flatten (List.map_congr_left fun change mem => ?_)
  obtain ⟨piece, -, mem⟩ := List.mem_flatMap.1 mem
  cases piece with
  | kept c => exact List.mem_singleton.1 mem ▸ rfl
  | found found => exact List.mem_singleton.1 mem ▸ rfl

theorem replace_eq_self {change : Match → List Char}
    (h : ∀ found ∈ pattern.findAll text, change found = found.text) :
    pattern.replace change text = text := by
  refine Eq.trans ?_ (pattern.replace_text text)
  refine congrArg List.flatten (List.map_congr_left fun piece mem => ?_)
  cases piece with
  | kept c => rfl
  | found found => exact h found (mem_findAll.2 mem)

theorem replace_of_absent (absent : pattern.occursIn text = false) (change : Match → List Char) :
    pattern.replace change text = text := by
  refine replace_eq_self fun found mem => ?_
  rw [findAll_eq_nil absent] at mem
  cases mem

private theorem length_pieces_add_le {change : Match → List Char} (pieces : List Piece)
    (shorter : ∀ found, .found found ∈ pieces → (change found).length < found.text.length) :
    (pieces.flatMap fun | .kept c => [c] | .found found => change found).length +
        (pieces.filterMap fun | .kept _ => none | .found found => some found).length ≤
      (pieces.flatMap fun | .kept c => [c] | .found found => found.text).length := by
  induction pieces with
  | nil => exact Nat.le_refl _
  | cons piece pieces ih =>
      have others := ih fun found mem => shorter found (List.mem_cons_of_mem _ mem)
      cases piece with
      | kept c =>
          simp only [List.flatMap_cons, List.length_append, List.filterMap_cons,
            List.length_singleton]
          omega
      | found found =>
          have first := shorter found List.mem_cons_self
          simp only [List.flatMap_cons, List.length_append, List.filterMap_cons, List.length_cons]
          omega

/-- A text grows shorter by at least one character with each match that gives way to a shorter
text. -/
theorem length_replace_add_le (change : Match → List Char)
    (shorter : ∀ found ∈ pattern.findAll text, (change found).length < found.text.length) :
    (pattern.replace change text).length + (pattern.findAll text).length ≤ text.length := by
  have pieces := length_pieces_add_le (pattern.dissect text) fun found mem =>
    shorter found (mem_findAll.2 mem)
  have whole : (pattern.replace Match.text text).length = text.length := by rw [replace_text]
  exact Nat.le_trans pieces (Nat.le_of_eq whole)

theorem Dissects.size_eq_zero {here there middle : Cursor} {pieces : List Piece} {found : Match}
    (dissects : pattern.Dissects here pieces there) (ended : there.rest = [])
    (none : ∀ found, .found found ∉ pieces) (reads : here.Reads word middle)
    (found_at : pattern.at? middle = some found) : found.whole.size = 0 := by
  induction dissects generalizing word with
  | nil =>
      rw [reads.rest_eq] at ended
      obtain ⟨rfl, rest⟩ := List.append_eq_nil_iff.1 ended
      have empty := (reads_of_at? found_at).rest_eq
      rw [rest, eq_comm] at empty
      rw [size_of_at? found_at, (List.append_eq_nil_iff.1 empty).1, List.length_nil]
  | kept alone others ih =>
      cases word with
      | nil =>
          rw [Cursor.Reads.nil_iff.1 reads] at found_at
          exact alone found found_at
      | cons c word =>
          exact ih ended (fun found mem => none found (List.mem_cons_of_mem _ mem))
            (Cursor.Reads.cons_iff.1 reads).2
  | found => exact absurd List.mem_cons_self (none _)

/-- A pattern that describes no empty stretch occurs in a text just if the text has a match. -/
theorem findAll_eq_nil_iff
    (size : ∀ here found, pattern.at? here = some found → found.whole.size ≠ 0) :
    pattern.findAll text = [] ↔ pattern.occursIn text = false := by
  refine ⟨fun none => ?_, findAll_eq_nil⟩
  rw [Bool.eq_false_iff, Ne, occursIn_iff]
  rintro ⟨lead, here, last, reads, ends⟩
  obtain ⟨found, found_at⟩ := Option.isSome_iff_exists.1 (isSome_at?.2 ⟨last, ends⟩)
  obtain ⟨stop, dissects, ended⟩ := pattern.dissects text
  refine size here found found_at (dissects.size_eq_zero ended (fun found mem => ?_) reads found_at)
  have mem' := mem_findAll.2 mem
  rw [none] at mem'
  cases mem'

/-- Where every match gives way to a shorter text, a text without a match is the only one that
stays. -/
theorem replace_eq_self_iff {change : Match → List Char}
    (shorter : ∀ here found, pattern.at? here = some found →
      (change found).length < found.text.length) :
    pattern.replace change text = text ↔ pattern.occursIn text = false := by
  refine ⟨fun same => ?_, fun absent => replace_of_absent absent change⟩
  have size (here : Cursor) (found : Match) (found_at : pattern.at? here = some found) :
      found.whole.size ≠ 0 := by
    have := shorter here found found_at
    rw [size_of_at? found_at]
    omega
  have sizes := length_replace_add_le change fun found (mem : found ∈ pattern.findAll text) => by
    obtain ⟨lead, here, -, found_at⟩ := at?_of_mem_findAll mem
    exact shorter here found found_at
  rw [same] at sizes
  rw [← findAll_eq_nil_iff size]
  exact List.length_eq_zero_iff.1 (by omega)

end Pattern

end ComponentPreview
