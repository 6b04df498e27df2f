import ComponentPreview.Proofs.Stub.Declared
import ComponentPreview.Proofs.Text.Preference

/-!
# Markup tags

A tag names a component if its name begins with a capital. Tags do not overlap, so the scan for them
finds every one that stands in the text (`mem_markupNames_iff`).
-/

namespace ComponentPreview

open Pattern Component

namespace Source

/-- What stands before a comparison or a generic call rather than before a tag. -/
def continues (c : Char) : Bool :=
  isNameChar c || c == '.'

/-- A name as it stands in a tag: all of it, behind an angle bracket that opens the tag. -/
structure Tag (before : Option Char) (word right : List Char) : Prop where
  opens : ∀ c ∈ before, continues c = false
  capital : ∃ c others, word = c :: others ∧ c.isUpper = true ∧ ∀ d ∈ others, isNameChar d = true
  whole : ∀ c ∈ right.head?, isNameChar c = false

/-- A tag of a text names a component. -/
def TagOccurs (text : List Char) (name : String) : Prop :=
  ∃ left right, text = left ++ '<' :: (name.toList ++ right) ∧ Tag left.getLast? name.toList right

variable {here : Cursor} {found : Match} {word right : List Char}

theorem markupTag_parts : markupTag = notAfter continues ++ (lit "<" ++
    capture (one Char.isUpper ++ many isNameChar)) :=
  rfl

theorem isNameStart_of_isUpper {c : Char} (upper : c.isUpper = true) : isNameStart c = true := by
  have alpha : c.isAlpha = true := Bool.or_eq_true_iff.2 (.inl upper)
  simp [isNameStart, alpha]

theorem Tag.isIdentifier {before : Option Char} (h : Tag before word right) :
    IsIdentifier word := by
  obtain ⟨c, others, rfl, upper, areName⟩ := h.capital
  exact ⟨c, others, rfl, isNameStart_of_isUpper upper, areName⟩

theorem Tag.not_mem_angle {before : Option Char} (h : Tag before word right) : '<' ∉ word := by
  obtain ⟨c, others, rfl, upper, areName⟩ := h.capital
  intro mem
  rcases List.mem_cons.1 mem with rfl | mem
  · exact absurd upper (by decide)
  · exact absurd (areName _ mem) (by decide)

/-- The pattern reads a tag as far as its name goes. -/
theorem Tag.exists_at? (h : Tag here.before word right)
    (rest_eq : here.rest = '<' :: (word ++ right)) :
    ∃ found, markupTag.at? here = some found ∧ found.group 0 = word ∧
      found.text = '<' :: word := by
  obtain ⟨place, reads, rest_eq'⟩ := exists_reads "<".toList rest_eq
  obtain ⟨stop, reads', rest_eq''⟩ := exists_reads word rest_eq'
  obtain ⟨c, others, rfl, upper, areName⟩ := h.capital
  obtain ⟨second, reads₁, reads₂⟩ := Cursor.Reads.exists_middle
    (show place.Reads ([c] ++ others) stop from reads')
  have named : (one Char.isUpper ++ many isNameChar).Prefers place stop := by
    refine (Prefers.one upper reads₁).append (.many reads₂ areName ?_)
    rw [rest_eq'', begins_eq_false]
    exact h.whole
  have starts : (notAfter continues).Prefers here here :=
    .of_unique (mem_ends_notAfter.2 ⟨follows_eq_false.2 h.opens, rfl⟩)
      fun _ ends => (mem_ends_notAfter.1 ends).2
  obtain ⟨found, found_at, group, rfl⟩ := exists_at?_of_head?
    (markupTag_parts ▸ starts.head?_append ((Prefers.lit reads).head?_append named.head?_captured))
    reads'
  exact ⟨found, found_at, group, (reads_of_at? found_at).word_unique (reads.trans reads')⟩

/-- What the pattern reads is a tag. -/
theorem tag_of_at? (h : markupTag.at? here = some found) :
    ∃ right, here.rest = '<' :: (found.group 0 ++ right) ∧ found.text = '<' :: found.group 0 ∧
      Tag here.before (found.group 0) right := by
  obtain ⟨last, ends, -⟩ := exists_end_of_at? h
  rw [markupTag_parts] at ends
  obtain ⟨_, starts, ends⟩ := mem_ends_append.1 ends
  obtain ⟨opens, rfl⟩ := mem_ends_notAfter.1 starts
  obtain ⟨_, angle, ends⟩ := mem_ends_append.1 ends
  obtain ⟨place, reads, rfl⟩ := mem_ends_lit.1 angle
  obtain ⟨_, named, -⟩ := mem_ends_capture.1 ends
  obtain ⟨_, first, -⟩ := mem_ends_append.1 named
  obtain ⟨c, second, upper, reads', -⟩ := mem_ends_one.1 first
  have split := List.takeWhile_append_dropWhile (p := isNameChar) (l := second.rest)
  have rest_eq : here.rest = '<' :: ((c :: second.rest.takeWhile isNameChar) ++
      second.rest.dropWhile isNameChar) := by
    rw [List.cons_append, split]
    exact (reads.trans reads').rest_eq
  have tag : Tag here.before (c :: second.rest.takeWhile isNameChar)
      (second.rest.dropWhile isNameChar) := by
    refine ⟨follows_eq_false.1 opens, ⟨c, _, rfl, upper, fun d mem => ?_⟩, fun d head => ?_⟩
    · exact List.all_eq_true.1 List.all_takeWhile d mem
    · have stopped := List.head?_dropWhile_not isNameChar second.rest
      rw [Option.mem_def.1 head] at stopped
      simpa using stopped
  obtain ⟨other, other_at, group, text⟩ := tag.exists_at? rest_eq
  obtain rfl := Option.some.inj (h.symm.trans other_at)
  rw [group]
  exact ⟨_, rest_eq, text, tag⟩

theorem mem_markupNames_iff {text : List Char} {name : String} :
    name ∈ markupNames text ↔ TagOccurs text name := by
  rw [markupNames, Text.mem_distinct, List.mem_map]
  constructor
  · rintro ⟨found, mem, rfl⟩
    obtain ⟨left, here, reads, found_at⟩ := at?_of_mem_findAll mem
    obtain ⟨right, rest_eq, -, tag⟩ := tag_of_at? found_at
    have before : here.before = left.getLast? := reads.before_eq.trans Option.or_none
    rw [before] at tag
    refine ⟨left, right, ?_, ?_⟩
    · rw [String.toList_ofList, ← rest_eq]
      exact reads.rest_eq
    · rwa [String.toList_ofList]
  · rintro ⟨left, right, text_eq, tag⟩
    obtain ⟨place, reads, rest_eq⟩ := exists_reads left
      (show (Cursor.start text).rest = _ from text_eq)
    have before : left.getLast? = place.before := by
      rw [reads.before_eq]
      exact Option.or_none.symm
    obtain ⟨found, found_at, group, found_eq⟩ := (before ▸ tag).exists_at? rest_eq
    obtain ⟨stop, dissects, ended⟩ := markupTag.dissects text
    have uncut : markupTag.Uncut (.start text) place := by
      refine .of_head (c := '<') (by rw [rest_eq]; rfl) ?_
      intro lead start other inner outer _ other_at _ eq
      obtain ⟨_, -, other_eq, tag'⟩ := tag_of_at? other_at
      rw [other_eq] at eq
      cases inner with
      | nil => rfl
      | cons d inner =>
          have within : '<' ∈ other.group 0 := by simp [(List.cons.inj eq).2]
          exact absurd within tag'.not_mem_angle
    obtain ⟨front, back, pieces_eq, -⟩ :=
      dissects.exists_piece ended reads uncut found_at (by simp [found_eq])
    have mem : found ∈ markupTag.findAll text := by
      rw [mem_findAll, pieces_eq]
      simp
    exact ⟨found, mem, by rw [group, String.ofList_toList]⟩

end Source

end ComponentPreview
