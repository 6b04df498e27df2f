import ComponentPreview.Proofs.Source.Component
import ComponentPreview.Proofs.Text.Collect
import ComponentPreview.Proofs.Text.Preference
import ComponentPreview.Script.Balance
import Mathlib.Data.List.TakeWhile

/-!
# Balanced markup

There are no findings exactly if the opening tags and the closing tags that are counted have the
same names (`findings_eq_nil_iff_perm`). In the text of a tree of elements each scan counts its own
selection of the tags: the scan for opening tags passes over void names and over what stands
directly behind a name, the scan for closing tags over neither. So elements that are balanced give
findings unless what the scans pass over evens out (`findings_nodes_iff`).
-/

namespace ComponentPreview.Balance

open Pattern

/-! ## Counts -/

namespace Count

variable {name other : String} {count : Nat} {counts others : Count}

theorem of_cons : Count.of name ((other, count) :: counts) =
    if other = name then count else counts.of name := by
  by_cases same : other = name <;> simp [Count.of, same]

theorem of_add : (counts.add name).of other = counts.of other + if name = other then 1 else 0 := by
  induction counts with
  | nil => by_cases same : name = other <;> simp [Count.add, Count.of, same]
  | cons entry counts ih =>
      obtain ⟨first, count⟩ := entry
      simp only [Count.add, beq_iff_eq]
      split
      · next same =>
          subst same
          simp only [of_cons]
          split <;> simp
      · next differs =>
          simp only [of_cons, ih]
          split
          · next same =>
              subst same
              simp [Ne.symm differs]
          · rfl

/-- Each name has one entry. -/
def Distinct (counts : Count) : Prop :=
  (counts.map Prod.fst).Nodup

theorem map_fst_add : (counts.add name).map Prod.fst =
    if name ∈ counts.map Prod.fst then counts.map Prod.fst
    else counts.map Prod.fst ++ [name] := by
  induction counts with
  | nil => rfl
  | cons entry counts ih =>
      simp only [Count.add, beq_iff_eq]
      split
      · next same => simp [same]
      · next differs =>
          rw [List.map_cons, ih, List.map_cons]
          simp only [List.mem_cons, Ne.symm differs, false_or]
          split <;> rfl

theorem Distinct.add (distinct : counts.Distinct) : (counts.add name).Distinct := by
  rw [Distinct, map_fst_add]
  split
  · exact distinct
  · next absent =>
      refine List.nodup_append.2 ⟨distinct, by simp, fun other mem added same => ?_⟩
      obtain rfl := List.mem_singleton.1 same
      rintro rfl
      exact absent mem

theorem Distinct.of_eq (distinct : counts.Distinct) (mem : (name, count) ∈ counts) :
    counts.of name = count := by
  induction counts with
  | nil => cases mem
  | cons entry counts ih =>
      obtain ⟨first, number⟩ := entry
      obtain ⟨absent, distinct⟩ := List.nodup_cons.1 distinct
      rw [of_cons]
      rcases List.mem_cons.1 mem with same | mem
      · cases same
        exact if_pos rfl
      · rw [if_neg, ih distinct mem]
        rintro rfl
        exact absent (List.mem_map.2 ⟨_, mem, rfl⟩)

theorem mem_of_pos (positive : 0 < counts.of name) : (name, counts.of name) ∈ counts := by
  induction counts with
  | nil => cases positive
  | cons entry counts ih =>
      obtain ⟨first, number⟩ := entry
      rw [of_cons] at positive ⊢
      split at positive
      · next same => simp [same]
      · next differs =>
          rw [if_neg differs]
          exact List.mem_cons_of_mem _ (ih positive)

/-- No entry goes beyond another count exactly if no name occurs more often. -/
theorem Distinct.forall_mem_iff (distinct : counts.Distinct) :
    (∀ entry ∈ counts, ¬others.of entry.1 < entry.2) ↔
      ∀ name, counts.of name ≤ others.of name := by
  constructor
  · intro within name
    rcases Nat.eq_zero_or_pos (counts.of name) with zero | positive
    · exact zero ▸ Nat.zero_le _
    · exact Nat.le_of_not_lt (within _ (mem_of_pos positive))
  · rintro within ⟨name, count⟩ mem
    rw [← distinct.of_eq mem]
    exact Nat.not_lt_of_le (within name)

end Count

theorem distinct_tally (names : List (List Char)) : (tally names).Distinct := by
  have keeps (counts : Count) (distinct : counts.Distinct) :
      Count.Distinct
        (names.foldl (fun counts name => counts.add (String.ofList name)) counts) := by
    induction names generalizing counts with
    | nil => exact distinct
    | cons name names ih => exact ih _ distinct.add
  exact keeps [] List.nodup_nil

theorem of_tally (names : List (List Char)) (name : List Char) :
    (tally names).of (String.ofList name) = names.count name := by
  have adds (counts : Count) :
      Count.of (String.ofList name)
        (names.foldl (fun counts name => counts.add (String.ofList name)) counts) =
        counts.of (String.ofList name) + names.count name := by
    induction names generalizing counts with
    | nil => rfl
    | cons other names ih =>
        rw [List.foldl_cons, ih, Count.of_add, List.count_cons]
        simp only [String.ofList_inj, beq_iff_eq]
        omega
  exact (adds []).trans (Nat.zero_add _)

/-- What an opening tag counts for. -/
def shownOpening (tag : Match) : Option (List Char) :=
  if isOpening tag then some (tag.group 0) else none

def shownClosing (tag : Match) : Option (List Char) :=
  some (tag.group 0)

theorem opened_eq (text : List Char) :
    opened text = tally ((openTag.findAll text).filterMap shownOpening) := by
  rw [opened, ← List.filterMap_eq_map, List.filterMap_filter]
  rfl

theorem closed_eq (text : List Char) :
    closed text = tally ((closeTag.findAll text).filterMap shownClosing) := by
  rw [closed, ← List.filterMap_eq_map]
  rfl

theorem findings_eq_nil_iff_perm (text : List Char) :
    findings text = [] ↔ ((openTag.findAll text).filterMap shownOpening).Perm
      ((closeTag.findAll text).filterMap shownClosing) := by
  have within {counts others : Count} {finding : String × Nat → Finding}
      (distinct : counts.Distinct) :
      (counts.filterMap fun entry =>
        if others.of entry.1 < entry.2 then some (finding entry) else none) = [] ↔
        ∀ name, counts.of name ≤ others.of name := by
    rw [← distinct.forall_mem_iff, List.filterMap_eq_nil_iff]
    simp
  have same : findings text = [] ↔ ∀ name, (opened text).of name = (closed text).of name := by
    have opened_distinct : (opened text).Distinct := distinct_tally _
    have closed_distinct : (closed text).Distinct := distinct_tally _
    simp only [findings, List.append_eq_nil_iff]
    rw [within opened_distinct, within closed_distinct, ← forall_and]
    exact forall_congr' fun name => Nat.le_antisymm_iff.symm
  rw [same, List.perm_iff_count, opened_eq, closed_eq]
  constructor
  · intro same name
    simpa [of_tally] using same (String.ofList name)
  · intro same name
    rw [← String.ofList_toList (s := name), of_tally, of_tally, same]

/-! ## Trees of elements -/

/-- What makes a difference to where a tag ends. -/
def marks : List Char :=
  "'\"\x60\x7b\x7d<>".toList

structure Attribute where
  blanks : List Char
  name : List Char
  value : List Char
  apart : blanks ≠ []
  areBlank : ∀ c ∈ blanks, isBlank c = true
  plain : ∀ c ∈ name, c ∉ marks
  quoted : ∀ c ∈ value, c ≠ '"' ∧ c ≠ '<'

def Attribute.text (given : Attribute) : List Char :=
  given.blanks ++ given.name ++ "=\"".toList ++ given.value ++ "\"".toList

structure Tag where
  name : List Char
  attributes : List Attribute
  blanks : List Char
  named : name ≠ []
  plain : ∀ c ∈ name, c ∉ marks ∧ isBlank c = false ∧ c ≠ '/'
  areBlank : ∀ c ∈ blanks, isBlank c = true

/-- How a tag ends. -/
def ending (closed : Bool) : List Char :=
  (if closed then "/>" else ">").toList

namespace Tag

/-- A tag up to where it ends. -/
def text (tag : Tag) : List Char :=
  '<' :: (tag.name ++ tag.attributes.flatMap Attribute.text ++ tag.blanks)

def closing (tag : Tag) : List Char :=
  "</".toList ++ tag.name ++ ">".toList

/-- What the scans read of a name. -/
def seen (tag : Tag) : List Char :=
  tag.name.takeWhile isTagChar

/-- Whether a name begins as the scans ask for. -/
def isLegible (tag : Tag) : Bool :=
  tag.name.head?.any Char.isAlpha

/-- Whether the opening tag of a pair counts, behind a character. -/
def opens (tag : Tag) (before : Option Char) : Bool :=
  tag.isLegible && !before.any isNameChar && !isVoid tag.seen

/-- Whether the closing tag of a pair counts. -/
def closes (tag : Tag) : Bool :=
  tag.isLegible && tag.name.all isTagChar

end Tag

/-- What stands in an element: texts and elements one after the other. An element is a single tag,
which closes itself or is void, or a pair of tags with nodes in between. -/
inductive Nodes
  | nothing
  | words (content : List Char) (clean : '<' ∉ content) (next : Nodes)
  | single (tag : Tag) (closed : Bool) (ends : closed = true ∨ isVoid tag.name = true)
      (next : Nodes)
  | paired (tag : Tag) (inner next : Nodes)

namespace Nodes

def text : Nodes → List Char
  | nothing => []
  | words content _ next => content ++ next.text
  | single tag closed _ next => tag.text ++ ending closed ++ next.text
  | paired tag inner next => tag.text ++ ending false ++ inner.text ++ tag.closing ++ next.text

/-- The pairs of tags behind a character, each with the character before its opening tag. -/
def pairs (before : Option Char) : Nodes → List (Option Char × Tag)
  | nothing => []
  | words content _ next => next.pairs (content.getLast?.or before)
  | single _ _ _ next => next.pairs (some '>')
  | paired tag inner next =>
      (before, tag) :: (inner.pairs (some '>') ++ next.pairs (some '>'))

/-- The names whose closing tags count without their opening tags. -/
def unopened (nodes : Nodes) : List (List Char) :=
  ((nodes.pairs none).filter fun (before, tag) => tag.closes && !tag.opens before).map (·.2.seen)

/-- The names whose opening tags count without their closing tags. -/
def unclosed (nodes : Nodes) : List (List Char) :=
  ((nodes.pairs none).filter fun (before, tag) => tag.opens before && !tag.closes).map (·.2.seen)

end Nodes

theorem not_mem_marks_of_isBlank {c : Char} (blank : isBlank c = true) : c ∉ marks := by
  intro mark
  exact absurd blank (List.any_eq_false.1 (by decide) c mark)

/-! ## The end of a tag -/

variable {previous : Char} {word rest : List Char}

/-- Behind a word the end of the tag is looked for with `last` as the character before it. -/
def Leads (previous : Char) (word : List Char) (last : Char) : Prop :=
  ∀ rest, lastOfTag? none 0 previous (word ++ rest) = lastOfTag? none 0 last rest

theorem Leads.append {middle last : Char} {other : List Char} (front : Leads previous word middle)
    (back : Leads middle other last) : Leads previous (word ++ other) last := by
  intro rest
  rw [List.append_assoc, front, back]

theorem leads_plain (plain : ∀ c ∈ word, c ∉ marks) :
    Leads previous word (word.getLast?.getD previous) := by
  intro rest
  induction word generalizing previous with
  | nil => rfl
  | cons c word ih =>
      obtain ⟨plain_c, plain⟩ := List.forall_mem_cons.1 plain
      have onward : lastOfTag? none 0 previous (c :: (word ++ rest)) =
          lastOfTag? none 0 c (word ++ rest) := by
        simp_all [marks, lastOfTag?, isQuoteMark]
      rw [List.cons_append, onward, ih plain, List.getLast?_cons]
      rfl

theorem lastOfTag?_quoted (quoted : ∀ c ∈ word, c ≠ '"') :
    lastOfTag? (some '"') 0 previous (word ++ '"' :: rest) = lastOfTag? none 0 '"' rest := by
  induction word generalizing previous with
  | nil => rfl
  | cons c word ih =>
      obtain ⟨differs, quoted⟩ := List.forall_mem_cons.1 quoted
      rw [List.cons_append, lastOfTag?, if_neg (by simpa using differs), ih quoted]

theorem leads_attribute (given : Attribute) : Leads previous given.text '"' := by
  intro rest
  have plain : ∀ c ∈ given.blanks ++ given.name ++ ['='], c ∉ marks := by
    simp only [List.mem_append, List.mem_singleton]
    rintro c ((blank | named) | rfl)
    · exact not_mem_marks_of_isBlank (given.areBlank c blank)
    · exact given.plain c named
    · decide
  have parts : given.text ++ rest = (given.blanks ++ given.name ++ ['=']) ++
      '"' :: (given.value ++ '"' :: rest) := by
    simp [Attribute.text]
  have opened (previous : Char) (rest : List Char) : lastOfTag? none 0 previous ('"' :: rest) =
      lastOfTag? (some '"') 0 '"' rest := by
    simp [lastOfTag?, isQuoteMark]
  rw [parts, leads_plain plain, opened,
    lastOfTag?_quoted fun c mem => (given.quoted c mem).1]

theorem getLast?_getD_ne {c : Char} (absent : c ∉ word) (differs : previous ≠ c) :
    word.getLast?.getD previous ≠ c := by
  cases last : word.getLast? with
  | none => exact differs
  | some d =>
      rintro rfl
      exact absent (List.mem_of_getLast? last)

namespace Tag

variable {tag : Tag}

/-- What stands behind what is read of the name, up to where the tag ends. -/
def tail (tag : Tag) : List Char :=
  tag.name.dropWhile isTagChar ++ tag.attributes.flatMap Attribute.text ++ tag.blanks

theorem text_eq (tag : Tag) : tag.text = '<' :: (tag.seen ++ tag.tail) := by
  rw [text, tail, seen, ← List.append_assoc, ← List.append_assoc,
    List.takeWhile_append_dropWhile]

theorem not_mem_seen (tag : Tag) : '/' ∉ tag.seen := fun mem =>
  (tag.plain _ ((List.takeWhile_sublist _).mem mem)).2.2 rfl

/-- A tag ends at the first angle bracket behind it, and it does not seem to close itself. -/
theorem leads_tail (tag : Tag) (differs : previous ≠ '/') :
    ∃ last, last ≠ '/' ∧ Leads previous tag.tail last := by
  have hidden : ∀ c ∈ tag.name.dropWhile isTagChar, c ∉ marks ∧ isBlank c = false ∧ c ≠ '/' :=
    fun c mem => tag.plain c ((List.dropWhile_sublist _).mem mem)
  have blank : ∀ c ∈ tag.blanks, c ∉ marks ∧ c ≠ '/' := fun c mem =>
    ⟨not_mem_marks_of_isBlank (tag.areBlank c mem), by
      rintro rfl
      exact absurd (tag.areBlank _ mem) (by decide)⟩
  have through (attributes : List Attribute) {previous : Char} (differs : previous ≠ '/') :
      ∃ last, last ≠ '/' ∧ Leads previous (attributes.flatMap Attribute.text) last := by
    induction attributes generalizing previous with
    | nil => exact ⟨previous, differs, fun _ => rfl⟩
    | cons given attributes ih =>
        obtain ⟨last, other, leads⟩ := @ih '"' (by decide)
        exact ⟨last, other, (leads_attribute given).append leads⟩
  obtain ⟨middle, other, leads⟩ := through tag.attributes
    (getLast?_getD_ne (fun mem => (hidden _ mem).2.2 rfl) differs)
  exact ⟨_, getLast?_getD_ne (fun mem => (blank _ mem).2 rfl) other,
    ((leads_plain fun c mem => (hidden c mem).1).append leads).append
      (leads_plain fun c mem => (blank c mem).1)⟩

theorem not_mem_tail (tag : Tag) : '<' ∉ tag.tail := by
  intro mem
  simp only [tail, List.mem_append, List.mem_flatMap] at mem
  have mark : '<' ∈ marks := by decide
  rcases mem with (hidden | ⟨given, -, mem⟩) | blank
  · exact (tag.plain _ ((List.dropWhile_sublist _).mem hidden)).1 mark
  · simp only [Attribute.text, List.mem_append] at mem
    rcases mem with (((blank | named) | sign) | valued) | sign
    · exact not_mem_marks_of_isBlank (given.areBlank _ blank) mark
    · exact given.plain _ named mark
    · exact absurd sign (by decide)
    · exact (given.quoted _ valued).2 rfl
    · exact absurd sign (by decide)
  · exact not_mem_marks_of_isBlank (tag.areBlank _ blank) mark

theorem not_mem_angle (tag : Tag) (closed : Bool) :
    '<' ∉ tag.seen ++ tag.tail ++ ending closed := by
  simp only [List.mem_append, not_or]
  exact ⟨⟨fun mem => (tag.plain _ ((List.takeWhile_sublist _).mem mem)).1 (by decide),
    tag.not_mem_tail⟩, by cases closed <;> decide⟩

theorem not_isTagChar_of_isBlank {c : Char} (blank : isBlank c = true) : isTagChar c = false := by
  refine Bool.or_eq_false_iff.2 ⟨isWord_of_isBlank blank, beq_eq_false_iff_ne.2 ?_⟩
  rintro rfl
  exact absurd blank (by decide)

/-- The name is read as far as the scans can read it. -/
theorem begins_tail (tag : Tag) {rest : List Char} (stop : begins isTagChar rest = false) :
    begins isTagChar (tag.tail ++ rest) = false := by
  have blanks_stop (blanks : List Char) (areBlank : ∀ c ∈ blanks, isBlank c = true) :
      begins isTagChar (blanks ++ rest) = false := by
    cases blanks with
    | nil => exact stop
    | cons c blanks => exact not_isTagChar_of_isBlank (areBlank c List.mem_cons_self)
  rw [tail, List.append_assoc, List.append_assoc]
  cases hidden : tag.name.dropWhile isTagChar with
  | cons c others =>
      have stopped := List.head?_dropWhile_not isTagChar tag.name
      rw [hidden] at stopped
      simpa [begins] using stopped
  | nil =>
      cases tag.attributes with
      | nil => exact blanks_stop tag.blanks tag.areBlank
      | cons given attributes =>
          obtain ⟨c, others, blanks_eq⟩ := List.exists_cons_of_ne_nil given.apart
          have blank := given.areBlank c (by simp [blanks_eq])
          simp [Attribute.text, blanks_eq, begins, not_isTagChar_of_isBlank blank]

end Tag

/-! ## The scans -/

variable {here there : Cursor} {found : Match} {tag : Tag}

theorem closeTag_parts :
    closeTag = lit "</" ++ (capture tagName ++ (spacing ++ lit ">")) := rfl

theorem openTag_heads (here : Cursor) (found : Match) :
    openTag.at? here = some found → here.rest.head? = some '<' :=
  head?_of_lit rfl here found

theorem closeTag_heads (here : Cursor) (found : Match) :
    closeTag.at? here = some found → here.rest.head? = some '<' :=
  closeTag_parts ▸ head?_of_lit rfl here found

theorem isLegible_iff : tag.isLegible = true ↔
    ∃ c others, tag.name = c :: others ∧ c.isAlpha = true := by
  obtain ⟨c, others, eq⟩ := List.exists_cons_of_ne_nil tag.named
  simp [Tag.isLegible, eq]

theorem isTagChar_of_isAlpha {c : Char} (alpha : c.isAlpha = true) : isTagChar c = true := by
  have named := isNameChar_of_isNameStart c (by simp [isNameStart, alpha])
  rw [isNameChar, Bool.or_eq_true, beq_iff_eq] at named
  rcases named with word | rfl
  · exact Bool.or_eq_true_iff.2 (.inl word)
  · exact absurd alpha (by decide)

/-- What a scan reads of a legible name. -/
theorem Tag.prefers_seen (legible : tag.isLegible = true) (reads : here.Reads tag.seen there)
    (stop : begins isTagChar there.rest = false) : tagName.Prefers here there := by
  obtain ⟨c, others, name_eq, alpha⟩ := isLegible_iff.1 legible
  have seen_eq : tag.seen = [c] ++ others.takeWhile isTagChar := by
    rw [Tag.seen, name_eq, List.takeWhile_cons_of_pos (isTagChar_of_isAlpha alpha)]
    rfl
  rw [seen_eq] at reads
  obtain ⟨second, reads₁, reads₂⟩ := reads.exists_middle
  exact (Prefers.one alpha reads₁).append
    (.many reads₂ (fun d mem => List.all_eq_true.1 List.all_takeWhile d mem) stop)

/-- A legible name is read as the name of an opening tag. -/
theorem exists_openTag {rest : List Char} (legible : tag.isLegible = true)
    (rest_eq : here.rest = '<' :: (tag.seen ++ rest)) (stop : begins isTagChar rest = false) :
    ∃ found, openTag.at? here = some found ∧ found.whole.first = here ∧ found.group 0 = tag.seen ∧
      here.Reads ('<' :: tag.seen) found.stop ∧ found.stop.rest = rest := by
  obtain ⟨place, reads, place_eq⟩ := exists_reads "<".toList rest_eq
  obtain ⟨last, reads', last_eq⟩ := exists_reads tag.seen place_eq
  have named := tag.prefers_seen legible reads' (last_eq.symm ▸ stop)
  obtain ⟨found, found_at, group, rfl⟩ :=
    exists_at?_of_head? ((Prefers.lit reads).head?_append named.head?_captured) reads'
  obtain ⟨last, -, found_eq⟩ := exists_end_of_at? found_at
  exact ⟨found, found_at, by rw [found_eq]; rfl, group, reads.trans reads', last_eq⟩

theorem openTag_eq_none {rest : List Char} (rest_eq : here.rest = '<' :: rest)
    (other : begins Char.isAlpha rest = false) : openTag.at? here = none := by
  rw [Option.eq_none_iff_forall_ne_some]
  intro found found_at
  obtain ⟨last, ends, -⟩ := exists_end_of_at? found_at
  obtain ⟨place, bracket, ends⟩ := mem_ends_append.1 ends
  obtain ⟨_, named, -⟩ := mem_ends_capture.1 ends
  obtain ⟨_, first, -⟩ := mem_ends_append.1 named
  obtain ⟨c, second, alpha, reads, -⟩ := mem_ends_one.1 first
  have same := ((reads_of_lit bracket).trans reads).rest_eq.symm.trans rest_eq
  obtain rfl : c :: second.rest = rest := (List.cons.inj same).2
  rw [begins, alpha] at other
  cases other

theorem isTagChar_of_isVoid {name : List Char} (void : isVoid name = true) {c : Char}
    (mem : c ∈ name) : isTagChar c = true := by
  have letters : (voidElements.all fun word => word.toList.all Char.isAlpha) = true := by decide
  obtain ⟨word, listed, same⟩ : ∃ word ∈ voidElements, word.toList = name.map asciiLower :=
    ⟨_, List.contains_iff_mem.1 void, String.toList_ofList⟩
  have lowered : (asciiLower c).isAlpha = true :=
    List.all_eq_true.1 (List.all_eq_true.1 letters word listed) _
      (same ▸ List.mem_map_of_mem mem)
  by_cases kelvin : c = '\u212a'
  · subst kelvin
    decide +kernel
  · rw [asciiLower, if_neg (by simpa using kelvin)] at lowered
    refine isTagChar_of_isAlpha ?_
    by_cases upper : c.isUpper = true
    · exact Bool.or_eq_true_iff.2 (.inl upper)
    · unfold Char.toLower at lowered
      rwa [dif_neg fun bounds => upper (decide_eq_true bounds)] at lowered

theorem Tag.seen_eq_of_all (all : tag.name.all isTagChar = true) : tag.seen = tag.name :=
  List.takeWhile_eq_self_iff.2 (List.all_eq_true.1 all)

/-- A stretch with one bracket, at which no match starts, holds none. -/
theorem collects_nothing {α : Type} {pattern : Pattern} {view : Match → Option α}
    {word : List Char}
    (heads : ∀ here found, pattern.at? here = some found → here.rest.head? = some '<')
    (none : pattern.at? here = none) (absent : '<' ∉ word)
    (reads : here.Reads ('<' :: word) there) : pattern.Collects view here [] there := by
  obtain ⟨middle, first, last⟩ :=
    Cursor.Reads.exists_middle (show here.Reads (['<'] ++ word) there from reads)
  refine (Collects.of_passes first fun lead place reads' shorter => ?_).append
    (.of_absent heads last absent)
  obtain rfl := List.length_eq_zero_iff.1 (Nat.lt_one_iff.1 shorter)
  rw [Cursor.Reads.nil_iff.1 reads', none]

theorem begins_ending (closed : Bool) (rest : List Char) :
    begins isTagChar (ending closed ++ rest) = false := by
  cases closed <;> rfl

theorem lastOfTag?_ending (last : Char) (closed : Bool) (rest : List Char) :
    lastOfTag? none 0 last (ending closed ++ rest) = some (if closed then '/' else last) := by
  cases closed <;> simp [ending, lastOfTag?, isQuoteMark]

theorem Tag.begins_name (tag : Tag) (rest : List Char) :
    begins Char.isAlpha (tag.name ++ rest) = tag.isLegible := by
  obtain ⟨c, others, eq⟩ := List.exists_cons_of_ne_nil tag.named
  simp [isLegible, eq, begins]

theorem Tag.exists_rest (tag : Tag) {word : List Char}
    (reads : here.Reads (tag.text ++ word) there) :
    ∃ rest, here.rest = '<' :: (tag.name ++ rest) :=
  ⟨tag.attributes.flatMap Attribute.text ++ tag.blanks ++ word ++ there.rest, by
    simpa [text] using reads.rest_eq⟩

/-- A legible tag opens a pair if it does not close itself. -/
theorem Tag.isOpening_eq (legible : tag.isLegible = true) (closed : Bool)
    (first : found.whole.first = here) (group : found.group 0 = tag.seen)
    (reads : here.Reads ('<' :: tag.seen) found.stop)
    (stop_eq : found.stop.rest = tag.tail ++ (ending closed ++ there.rest)) :
    isOpening found = (tag.opens here.before && !closed) := by
  have other : found.stop.before.getD '<' ≠ '/' := by
    have absent : '/' ∉ '<' :: tag.seen := by simp [tag.not_mem_seen]
    rw [reads.before_eq, List.getLast?_cons]
    exact getLast?_getD_ne tag.not_mem_seen (by decide)
  obtain ⟨last, differs, leads⟩ := tag.leads_tail other
  have follows : here.follows isNameChar = here.before.any isNameChar := by
    unfold Cursor.follows
    cases here.before <;> rfl
  rw [isOpening, first, group, stop_eq, leads, lastOfTag?_ending, follows, opens, legible]
  cases closed <;> simp [differs]

/-- The scan for opening tags counts a tag that does not close itself if it opens a pair. -/
theorem Tag.collects_opening (tag : Tag) (closed : Bool)
    (reads : here.Reads (tag.text ++ ending closed) there) :
    openTag.Collects shownOpening here
      (if tag.opens here.before && !closed then [tag.seen] else []) there := by
  have absent := tag.not_mem_angle closed
  by_cases legible : tag.isLegible = true
  · have parts : tag.text ++ ending closed = '<' :: tag.seen ++ (tag.tail ++ ending closed) := by
      simp [text_eq]
    rw [parts] at reads
    have rest_eq : here.rest =
        '<' :: (tag.seen ++ (tag.tail ++ (ending closed ++ there.rest))) := by
      simpa using reads.rest_eq
    obtain ⟨found, found_at, first, group, seen, stop_eq⟩ :=
      exists_openTag legible rest_eq (tag.begins_tail (begins_ending closed there.rest))
    have shown : (shownOpening found).toList =
        if tag.opens here.before && !closed then [tag.seen] else [] := by
      rw [shownOpening, isOpening_eq legible closed first group seen stop_eq, group]
      split <;> rfl
    have some : found.text ≠ [] := (reads_of_at? found_at).word_unique seen ▸ List.cons_ne_nil _ _
    rw [← List.append_nil (ite _ _ _), ← shown]
    exact (Collects.of_at? found_at some).append
      (.of_absent openTag_heads (reads.of_append seen) (by simp_all))
  · obtain ⟨rest, rest_eq⟩ := tag.exists_rest reads
    have none := openTag_eq_none rest_eq (by simpa [begins_name] using legible)
    rw [if_neg (by simp [opens, legible])]
    rw [text_eq] at reads
    exact collects_nothing openTag_heads none absent reads

/-! ## Closing tags -/

theorem Tag.not_mem_name (tag : Tag) {c : Char} (mark : c ∈ marks) : c ∉ tag.name :=
  fun mem => (tag.plain c mem).1 mark

/-- A closing tag does not open anything. -/
theorem Tag.passes_closing (tag : Tag) (reads : here.Reads tag.closing there) :
    openTag.Collects shownOpening here [] there := by
  have parts : tag.closing = '<' :: ('/' :: (tag.name ++ ">".toList)) := by simp [closing]
  rw [parts] at reads
  refine collects_nothing openTag_heads (openTag_eq_none reads.rest_eq rfl) ?_ reads
  simp [tag.not_mem_name (c := '<') (by decide)]

/-- An opening tag does not close anything. -/
theorem Tag.passes_opening (tag : Tag) (closed : Bool)
    (reads : here.Reads (tag.text ++ ending closed) there) :
    closeTag.Collects shownClosing here [] there := by
  obtain ⟨rest, rest_eq⟩ := tag.exists_rest reads
  have none : closeTag.at? here = none := by
    rw [Option.eq_none_iff_forall_ne_some]
    intro found found_at
    obtain ⟨last, ends, -⟩ := exists_end_of_at? found_at
    rw [closeTag_parts] at ends
    obtain ⟨place, bracket, -⟩ := mem_ends_append.1 ends
    have same := (reads_of_lit bracket).rest_eq.symm.trans rest_eq
    obtain ⟨c, others, name_eq⟩ := List.exists_cons_of_ne_nil tag.named
    rw [name_eq] at same
    obtain rfl : '/' = c := (List.cons.inj (List.cons.inj same).2).1
    exact (tag.plain '/' (by simp [name_eq])).2.2 rfl
  rw [text_eq] at reads
  exact collects_nothing closeTag_heads none (tag.not_mem_angle closed) reads

theorem Tag.exists_closeTag (closes : tag.closes = true) (reads : here.Reads tag.closing there) :
    ∃ found, closeTag.at? here = some found ∧ found.group 0 = tag.seen ∧ found.stop = there := by
  obtain ⟨legible, all⟩ := Bool.and_eq_true_iff.1 closes
  rw [closing, ← seen_eq_of_all all] at reads
  obtain ⟨behind, front, bracket⟩ := reads.exists_middle
  obtain ⟨place, slash, named⟩ := front.exists_middle
  have stop : begins isTagChar behind.rest = false := by
    rw [bracket.rest_eq]
    rfl
  have blanks : spacing.Prefers behind behind := by
    refine .every (.refl behind) (by simp) ?_
    rw [bracket.rest_eq]
    rfl
  have tail : (spacing ++ lit ">").Prefers behind there := blanks.append (.lit bracket)
  have whole : (closeTag.ends ⟨here, []⟩).head? = some ⟨there, [Span.between place behind]⟩ :=
    (Prefers.lit slash).head?_append ((tag.prefers_seen legible named stop).head?_capture tail)
  exact exists_at?_of_head? whole named

/-- A closing tag is read only if all of its name can be read. -/
theorem Tag.closes_of_at? (reads : here.Reads tag.closing there)
    (found_at : closeTag.at? here = some found) : tag.closes = true := by
  obtain ⟨last, ends, -⟩ := exists_end_of_at? found_at
  rw [closeTag_parts] at ends
  obtain ⟨_, slash, ends⟩ := mem_ends_append.1 ends
  obtain ⟨_, captured, ends⟩ := mem_ends_append.1 ends
  obtain ⟨_, named, rfl⟩ := mem_ends_capture.1 captured
  obtain ⟨_, first, more⟩ := mem_ends_append.1 named
  obtain ⟨c, _, alpha, reads₁, rfl⟩ := mem_ends_one.1 first
  obtain ⟨others, _, reads₂, areTagChars, rfl⟩ := mem_ends_many.1 more
  obtain ⟨_, spaced, bracket⟩ := mem_ends_append.1 ends
  obtain ⟨blanks, _, reads₃, areBlank, -, rfl⟩ := mem_ends_every.1 spaced
  have whole := ((((reads_of_lit slash).trans reads₁).trans reads₂).trans reads₃).trans
    (reads_of_lit bracket)
  have same : tag.name ++ '>' :: there.rest = (c :: others ++ blanks) ++ '>' :: last.here.rest := by
    simpa [closing] using reads.rest_eq.symm.trans whole.rest_eq
  have areTagChars : ∀ d ∈ c :: others, isTagChar d = true :=
    List.forall_mem_cons.2 ⟨isTagChar_of_isAlpha alpha, areTagChars⟩
  have clean : ∀ d ∈ c :: others ++ blanks, (d == '>') = false := by
    intro d mem
    rw [beq_eq_false_iff_ne]
    rintro rfl
    rcases List.mem_append.1 mem with mem | mem
    · exact absurd (areTagChars _ mem) (by decide)
    · exact absurd (areBlank _ mem) (by decide)
  have clean' : ∀ d ∈ tag.name, (d == '>') = false := by
    intro d mem
    rw [beq_eq_false_iff_ne]
    rintro rfl
    exact tag.not_mem_name (by decide) mem
  have name_eq := (Text.first_unique (· == '>') same clean' rfl clean rfl).1
  obtain rfl : blanks = [] := List.eq_nil_iff_forall_not_mem.2 fun d mem => by
    have solid := (tag.plain d (name_eq ▸ List.mem_append_right _ mem)).2.1
    rw [areBlank d mem] at solid
    cases solid
  rw [List.append_nil] at name_eq
  exact Bool.and_eq_true_iff.2 ⟨isLegible_iff.2 ⟨c, others, name_eq, alpha⟩,
    List.all_eq_true.2 (name_eq ▸ areTagChars)⟩

theorem Tag.collects_closing (tag : Tag) (reads : here.Reads tag.closing there) :
    closeTag.Collects shownClosing here (if tag.closes then [tag.seen] else []) there := by
  by_cases closes : tag.closes = true
  · obtain ⟨found, found_at, group, rfl⟩ := exists_closeTag closes reads
    have some : found.text ≠ [] :=
      (reads_of_at? found_at).word_unique reads ▸ List.cons_ne_nil _ _
    rw [if_pos closes, ← group]
    exact Collects.of_at? found_at some
  · have none : closeTag.at? here = none :=
      Option.eq_none_iff_forall_ne_some.2 fun _ found_at => closes (closes_of_at? reads found_at)
    have absent : '<' ∉ '/' :: (tag.name ++ ">".toList) := by
      simp [tag.not_mem_name (c := '<') (by decide)]
    rw [if_neg closes]
    exact collects_nothing closeTag_heads none absent reads

/-! ## The scans over a tree -/

theorem Tag.opens_of_isVoid (void : isVoid tag.name = true) (before : Option Char) :
    tag.opens before = false := by
  have all : tag.name.all isTagChar = true :=
    List.all_eq_true.2 fun c mem => isTagChar_of_isVoid void mem
  simp [opens, seen_eq_of_all all, void]

theorem map_filter_cons {α β : Type} (keeps : α → Bool) (view : α → β) (first : α)
    (others : List α) : ((first :: others).filter keeps).map view =
      (if keeps first then [view first] else []) ++ (others.filter keeps).map view := by
  rw [List.filter_cons]
  split <;> rfl

namespace Nodes

variable {nodes : Nodes}

theorem collects_openings (nodes : Nodes) (reads : here.Reads nodes.text there) :
    openTag.Collects shownOpening here
      (((nodes.pairs here.before).filter fun (before, tag) => tag.opens before).map (·.2.seen))
      there := by
  induction nodes generalizing here there with
  | nothing =>
      rw [Cursor.Reads.nil_iff.1 reads]
      exact .refl here
  | words content clean next ih =>
      obtain ⟨middle, first, last⟩ := Cursor.Reads.exists_middle reads
      have front : openTag.Collects shownOpening here [] middle :=
        .of_absent openTag_heads first clean
      rw [pairs, ← first.before_eq]
      exact front.append (ih last)
  | single tag closed ends next ih =>
      obtain ⟨middle, first, last⟩ := Cursor.Reads.exists_middle reads
      have front := tag.collects_opening closed first
      have before : middle.before = some '>' := by
        rw [first.before_eq]
        cases closed <;> simp [ending]
      rw [if_neg] at front
      · rw [pairs, ← before]
        exact front.append (ih last)
      · rcases ends with rfl | void
        · simp
        · simp [tag.opens_of_isVoid void]
  | paired tag inner next ih₁ ih₂ =>
      obtain ⟨closed, first, last⟩ := Cursor.Reads.exists_middle reads
      obtain ⟨closing, first, reads₃⟩ := Cursor.Reads.exists_middle first
      obtain ⟨middle, reads₁, reads₂⟩ := Cursor.Reads.exists_middle first
      have before₁ : middle.before = some '>' := by simp [reads₁.before_eq, ending]
      have before₂ : closed.before = some '>' := by
        simp [reads₃.before_eq, Tag.closing, List.getLast?_cons]
      have front := tag.collects_opening false reads₁
      rw [Bool.not_false, Bool.and_true] at front
      have back := (ih₁ reads₂).append ((tag.passes_closing reads₃).append (ih₂ last))
      rw [before₁, before₂, List.nil_append, ← List.map_append, ← List.filter_append] at back
      rw [pairs, map_filter_cons]
      exact front.append back

theorem collects_closings (nodes : Nodes) (before : Option Char)
    (reads : here.Reads nodes.text there) :
    ∃ names, closeTag.Collects shownClosing here names there ∧
      names.Perm (((nodes.pairs before).filter fun (_, tag) => tag.closes).map (·.2.seen)) := by
  induction nodes generalizing here there before with
  | nothing =>
      rw [Cursor.Reads.nil_iff.1 reads]
      exact ⟨[], .refl here, .nil⟩
  | words content clean next ih =>
      obtain ⟨middle, first, last⟩ := Cursor.Reads.exists_middle reads
      have front : closeTag.Collects shownClosing here [] middle :=
        .of_absent closeTag_heads first clean
      obtain ⟨names, back, perm⟩ := ih _ last
      exact ⟨names, front.append back, perm⟩
  | single tag closed ends next ih =>
      obtain ⟨middle, first, last⟩ := Cursor.Reads.exists_middle reads
      obtain ⟨names, back, perm⟩ := ih _ last
      exact ⟨names, (tag.passes_opening closed first).append back, perm⟩
  | paired tag inner next ih₁ ih₂ =>
      obtain ⟨closed, first, last⟩ := Cursor.Reads.exists_middle reads
      obtain ⟨closing, first, reads₃⟩ := Cursor.Reads.exists_middle first
      obtain ⟨middle, reads₁, reads₂⟩ := Cursor.Reads.exists_middle first
      obtain ⟨names₁, inner_reads, perm₁⟩ := ih₁ _ reads₂
      obtain ⟨names₂, next_reads, perm₂⟩ := ih₂ _ last
      refine ⟨_, (tag.passes_opening false reads₁).append
        (inner_reads.append ((tag.collects_closing reads₃).append next_reads)), ?_⟩
      rw [pairs, map_filter_cons, List.filter_append, List.map_append, List.nil_append]
      exact (perm₁.append (perm₂.append_left _)).trans (List.perm_append_comm_assoc _ _ _)

theorem findings_eq_nil_iff (nodes : Nodes) :
    findings nodes.text = [] ↔
      (((nodes.pairs none).filter fun (before, tag) => tag.opens before).map (·.2.seen)).Perm
        (((nodes.pairs none).filter fun (_, tag) => tag.closes).map (·.2.seen)) := by
  obtain ⟨there, reads, ended⟩ :=
    exists_reads_rest (show (Cursor.start nodes.text).rest = nodes.text from rfl)
  obtain ⟨names, closings, perm⟩ := nodes.collects_closings none reads
  rw [findings_eq_nil_iff_perm, (nodes.collects_openings reads).filterMap_eq ended,
    closings.filterMap_eq ended]
  exact perm.congr_right _

end Nodes

/-- What two selections of a list have in common makes no difference to whether they show the
same. -/
theorem perm_filter_iff {α β : Type} (keeps keeps' : α → Bool) (view : α → β) (list : List α) :
    ((list.filter keeps).map view).Perm ((list.filter keeps').map view) ↔
      ((list.filter fun a => keeps' a && !keeps a).map view).Perm
        ((list.filter fun a => keeps a && !keeps' a).map view) := by
  have parts (keeps keeps' : α → Bool) : ((list.filter keeps).map view).Perm
      ((list.filter fun a => keeps a && keeps' a).map view ++
        (list.filter fun a => keeps a && !keeps' a).map view) := by
    have split := (List.filter_append_perm keeps' (list.filter keeps)).symm.map view
    simpa [List.filter_filter, Bool.and_comm] using split
  have same : (list.filter fun a => keeps' a && keeps a) =
      list.filter fun a => keeps a && keeps' a := by
    simp [Bool.and_comm]
  rw [(parts keeps keeps').congr_left, (parts keeps' keeps).congr_right, same,
    List.perm_append_left_iff, List.perm_comm]

/-- The markup of a tree gives no findings exactly if the names whose closing tags alone count are,
in some order, the names whose opening tags alone count. -/
theorem findings_nodes_iff (nodes : Nodes) :
    findings nodes.text = [] ↔ nodes.unopened.Perm nodes.unclosed :=
  nodes.findings_eq_nil_iff.trans (perm_filter_iff _ _ _ _)

-- An opening tag behind a letter is passed over, and the closing tag of a name with a hyphen.
example : findings "<p>a<b>c</b></p>".toList = [.unopened "b"] ∧
    findings "<x-tab>a</x-tab>".toList = [.unclosed "x" 1 0] := by
  decide +kernel

/-- A pair of tags whose name is a void one in lower case. -/
def linkPair : Nodes :=
  .paired
    { name := "Link".toList, attributes := [], blanks := [], named := by decide,
      plain := by simp [marks, isBlank], areBlank := by simp }
    (.words "Home".toList (by decide) .nothing) .nothing

theorem link_pair_unopened :
    linkPair.text = "<Link>Home</Link>".toList ∧
      findings linkPair.text = [.unopened "Link"] := by
  decide +kernel

end ComponentPreview.Balance
