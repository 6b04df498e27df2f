import ComponentPreview.Proofs.Text.Rewrite
import ComponentPreview.Source.Basic
import Mathlib.Logic.Relation

/-!
# The first end

A match is as long as the first end of its pattern says. Where each part of a pattern has a first
end, the whole has the last of them (`Prefers.append`).

A repetition ends at first where its body has no end any more, and a stretch that is as short as
can be ends at the first place that passes the test. What was captured before makes no difference
to where a pattern ends (`ends_behind`), so that the first end of a pattern that captures is found
part by part too, and what it captures is what its body prefers (`Prefers.head?_capture`).
-/

namespace ComponentPreview

/-- The first character of a kind stands in one place. -/
theorem Text.first_unique (kind : Char → Bool) {front front' later later' : List Char}
    {mark mark' : Char} (h : front ++ mark :: later = front' ++ mark' :: later')
    (clean : ∀ c ∈ front, kind c = false) (isMark : kind mark = true)
    (clean' : ∀ c ∈ front', kind c = false) (isMark' : kind mark' = true) :
    front = front' ∧ mark = mark' ∧ later = later' := by
  have first {front later : List Char} {mark : Char} (clean : ∀ c ∈ front, kind c = false)
      (isMark : kind mark = true) : (front ++ mark :: later).takeWhile (!kind ·) = front := by
    rw [List.takeWhile_append_of_pos (by simpa using clean), List.takeWhile_cons_of_neg (by simpa),
      List.append_nil]
  obtain rfl : front = front' := by rw [← first clean isMark, h, first clean' isMark']
  exact ⟨rfl, List.cons.inj (List.append_cancel_left h)⟩

/-- Where a text is cut in two, a mark in it is behind the cut or before it. -/
theorem Text.append_eq_append_cons {front later left right : List Char} {mark : Char}
    (h : front ++ later = left ++ mark :: right) :
    (∃ more, left = front ++ more ∧ later = more ++ mark :: right) ∨
      ∃ more, front = left ++ mark :: more ∧ right = more ++ later := by
  rcases List.append_eq_append_iff.1 h with ⟨more, eq, eq'⟩ | ⟨_ | ⟨c, more⟩, eq, eq'⟩
  · exact .inl ⟨more, eq, eq'⟩
  · exact .inl ⟨[], by simpa using eq.symm, eq'.symm⟩
  · obtain ⟨rfl, rest_eq⟩ := List.cons.inj eq'
    exact .inr ⟨more, eq, rest_eq⟩

namespace Cursor

theorem head?_stretch_go {isIn : Char → Bool} {before : Option Char} {offset : Nat}
    {text word : List Char} {there : Cursor} (reads : Reads ⟨before, offset, text⟩ word there)
    (within : ∀ c ∈ word, isIn c = true) (stop : Pattern.begins isIn there.rest = false) :
    (stretch.go isIn (fun _ => true) before offset [] text).head? = some there := by
  induction word generalizing before offset text with
  | nil =>
      obtain rfl := Reads.nil_iff.1 reads
      cases text with
      | nil => rfl
      | cons c rest =>
          change isIn c = false at stop
          simp [stretch.go, stop]
  | cons c word ih =>
      cases text with
      | nil => exact absurd reads.nil_of_end (List.cons_ne_nil _ _)
      | cons d rest =>
          obtain ⟨rfl, later⟩ := Reads.cons_iff.1 reads
          obtain ⟨isIn_d, within⟩ := List.forall_mem_cons.1 within
          simp only [stretch.go, isIn_d, if_true]
          rw [stretch_go_eq, List.head?_append, ih later within]
          rfl

end Cursor

namespace Pattern

/-- Where a pattern without groups ends at first. -/
def Prefers (pattern : Pattern) (here there : Cursor) : Prop :=
  (pattern.ends ⟨here, []⟩).head? = some ⟨there, []⟩

variable {pattern left right body : Pattern} {here middle there : Cursor} {isIn : Char → Bool}
  {word : List Char}

theorem at?_of_prefers (h : pattern.Prefers here there) :
    ∃ found, pattern.at? here = some found ∧ found.stop = there :=
  ⟨_, by rw [at?_eq, h]; rfl, rfl⟩

namespace Prefers

theorem append (h : left.Prefers here middle) (h' : right.Prefers middle there) :
    (left ++ right).Prefers here there := by
  obtain ⟨others, eq⟩ := List.head?_eq_some_iff.1 h
  rw [Prefers, ends_append, eq, List.flatMap_cons, List.head?_append, h']
  rfl

theorem of_unique (mem : ⟨there, []⟩ ∈ pattern.ends ⟨here, []⟩)
    (unique : ∀ other ∈ pattern.ends ⟨here, []⟩, other = ⟨there, []⟩) :
    pattern.Prefers here there := by
  obtain ⟨other, others, eq⟩ := List.exists_cons_of_ne_nil (List.ne_nil_of_mem mem)
  rw [Prefers, eq, List.head?_cons, unique other (by simp [eq])]

theorem lit {text : String} (reads : here.Reads text.toList there) :
    (lit text).Prefers here there := by
  refine of_unique (mem_ends_lit.2 ⟨there, reads, rfl⟩) fun other ends => ?_
  obtain ⟨there', reads', rfl⟩ := mem_ends_lit.1 ends
  rw [reads'.unique reads]
  rfl

theorem one {c : Char} (isIn_c : isIn c = true) (reads : here.Reads [c] there) :
    (one isIn).Prefers here there := by
  refine of_unique (mem_ends_one.2 ⟨c, there, isIn_c, reads, rfl⟩) fun other ends => ?_
  obtain ⟨d, there', -, reads', rfl⟩ := mem_ends_one.1 ends
  obtain rfl : c = d := by
    have eq := reads.rest_eq.symm.trans reads'.rest_eq
    exact (List.cons.inj eq).1
  rw [reads'.unique reads]
  rfl

theorem every (reads : here.Reads word there) (within : ∀ c ∈ word, isIn c = true)
    (stop : begins isIn there.rest = false) : (every isIn).Prefers here there := by
  have taken {word : List Char} {there : Cursor} (reads : here.Reads word there)
      (within : ∀ c ∈ word, isIn c = true) (stop : begins isIn there.rest = false) :
      here.rest.takeWhile isIn = word := by
    rw [reads.rest_eq, List.takeWhile_append_of_pos within]
    cases rest : there.rest with
    | nil => simp
    | cons c rest =>
        rw [rest] at stop
        rw [List.takeWhile_cons_of_neg (by simpa [begins] using stop), List.append_nil]
  refine of_unique (mem_ends_every.2 ⟨word, there, reads, within, stop, rfl⟩) fun other ends => ?_
  obtain ⟨word', there', reads', within', stop', rfl⟩ := mem_ends_every.1 ends
  obtain rfl : word = word' := (taken reads within stop).symm.trans (taken reads' within' stop')
  rw [reads'.unique reads]
  rfl

theorem gap (reads : here.Reads word there) (some : word ≠ [])
    (areBlank : ∀ c ∈ word, isBlank c = true) (stop : begins isBlank there.rest = false) :
    gap.Prefers here there := by
  obtain ⟨c, blanks, rfl⟩ := List.exists_cons_of_ne_nil some
  obtain ⟨blank, areBlank⟩ := List.forall_mem_cons.1 areBlank
  rw [← List.singleton_append] at reads
  obtain ⟨middle, front, back⟩ := reads.exists_middle
  exact (one blank front).append (every back areBlank stop)

theorem many (reads : here.Reads word there) (within : ∀ c ∈ word, isIn c = true)
    (stop : begins isIn there.rest = false) : (many isIn).Prefers here there := by
  have furthest := Cursor.head?_stretch_go reads within stop
  simp only [Prefers, Pattern.many, ends, List.head?_map, Cursor.stretch]
  rw [furthest]
  rfl

theorem of_left (h : left.Prefers here there) : (either left right).Prefers here there := by
  rw [Prefers, ends, List.head?_append, h]
  rfl

theorem of_right (none : ∀ last, last ∉ left.ends ⟨here, []⟩) (h : right.Prefers here there) :
    (either left right).Prefers here there := by
  rw [Prefers, ends, List.eq_nil_iff_forall_not_mem.2 none, List.nil_append]
  exact h

theorem nothing (here : Cursor) : nothing.Prefers here here :=
  rfl

theorem lineStart (start : here.before = none ∨ here.before = some '\n') :
    lineStart.Prefers here here :=
  of_unique (mem_ends_lineStart.2 ⟨start, rfl⟩) fun _ ends => (mem_ends_lineStart.1 ends).2

theorem wordEdge (edge : here.follows isWord ≠ here.precedes isWord) :
    wordEdge.Prefers here here :=
  of_unique (mem_ends_wordEdge.2 ⟨edge, rfl⟩) fun _ ends => (mem_ends_wordEdge.1 ends).2

theorem ahead (h : ∃ later, later ∈ body.ends ⟨here, []⟩) : (ahead body).Prefers here here :=
  of_unique (mem_ends_ahead.2 ⟨h, rfl⟩) fun _ ends => (mem_ends_ahead.1 ends).2

end Prefers

/-- A match puts a text in place of what the pattern prefers. -/
theorem Rewrites.of_prefers {edit : Match → List Char} {out : List Char}
    (prefers : pattern.Prefers here there) (reads : here.Reads word there) (some : word ≠ [])
    (edits : ∀ found, edit found = out) : pattern.Rewrites edit here out there := by
  obtain ⟨found, found_at, rfl⟩ := at?_of_prefers prefers
  rw [← edits found]
  exact .of_at? found_at ((reads_of_at? found_at).word_unique reads ▸ some)

end Pattern

/-! ## Other patterns -/

/-- The nearest place comes last. -/
theorem Cursor.getLast?_stretch_go {isIn : Char → Bool} {isEnd : List Char → Bool}
    {before : Option Char} {offset : Nat} {text word : List Char} {there : Cursor}
    (reads : Reads ⟨before, offset, text⟩ word there) (within : ∀ c ∈ word, isIn c = true)
    (ended : isEnd there.rest = true)
    (first : ∀ lead middle, Reads ⟨before, offset, text⟩ lead middle →
      lead.length < word.length → isEnd middle.rest = false) :
    (stretch.go isIn isEnd before offset [] text).getLast? = some there := by
  induction word generalizing before offset text with
  | nil =>
      obtain rfl := Reads.nil_iff.1 reads
      cases text with
      | nil => simp [stretch.go, ended]
      | cons c rest =>
          simp only [stretch.go, ended, if_true]
          split
          · rw [stretch_go_eq, List.getLast?_append]
            rfl
          · rfl
  | cons d word ih =>
      cases text with
      | nil => exact absurd reads.nil_of_end (List.cons_ne_nil _ _)
      | cons c rest =>
          obtain ⟨rfl, later⟩ := Reads.cons_iff.1 reads
          obtain ⟨isIn_c, within⟩ := List.forall_mem_cons.1 within
          have open' : isEnd (c :: rest) = false := first [] _ (.refl _) (Nat.zero_lt_succ _)
          simp only [stretch.go, isIn_c, open', Bool.false_eq_true, if_true, if_false]
          exact ih later within fun lead middle reads' shorter =>
            first (c :: lead) middle (Reads.cons_iff.2 ⟨rfl, reads'⟩) (Nat.succ_lt_succ shorter)

def Progress.behind (groups : List Span) (progress : Progress) : Progress :=
  { progress with groups := groups ++ progress.groups }

namespace Pattern

variable {pattern left right body tail : Pattern} {here middle inner there : Cursor}
  {first last : Progress} {word : List Char}

theorem ends_behind (pattern : Pattern) (groups : List Span) (first : Progress) :
    pattern.ends (first.behind groups) = (pattern.ends first).map (·.behind groups) := by
  induction pattern generalizing first with
  | nothing => rfl
  | word text =>
      simp only [ends, Progress.behind]
      cases first.here.skip? text <;> rfl
  | one isIn =>
      rcases first with ⟨⟨before, offset, _ | ⟨d, rest⟩⟩, groups'⟩
      · rfl
      · simp only [ends, Progress.behind]
        split <;> rfl
  | most isIn isEnd | few isIn isEnd =>
      simp only [ends, List.map_map]
      rfl
  | both left right ihl ihr => simp only [ends, ihl, List.flatMap_map, ihr, List.map_flatMap]
  | either left right ihl ihr => simp only [ends, ihl, ihr, List.map_append]
  | repeated body ih => exact iterateEnds_map ih _ _
  | capture body ih =>
      simp only [ends, ih, List.map_map]
      refine List.map_congr_left fun later _ => ?_
      simp [Progress.behind]
  | wordEdge | lineStart | lastEnd | textEnd | notAfter =>
      rw [ends, ends, apply_ite (List.map _)]
      rfl
  | ahead body ih | notAhead body ih =>
      simp only [ends, ih, List.isEmpty_map]
      split <;> rfl

namespace Prefers

theorem few {isIn : Char → Bool} {isEnd : List Char → Bool} (reads : here.Reads word there)
    (within : ∀ c ∈ word, isIn c = true) (ended : isEnd there.rest = true)
    (first : ∀ lead middle, here.Reads lead middle → lead.length < word.length →
      isEnd middle.rest = false) : (few isIn isEnd).Prefers here there := by
  have nearest := Cursor.getLast?_stretch_go reads within ended first
  simp only [Prefers, ends, List.head?_map, List.head?_reverse, Cursor.stretch]
  rw [nearest]
  rfl

/-- A stretch without characters, where it may end and cannot go on. -/
theorem stay {isIn : Char → Bool} {isEnd : List Char → Bool} (ended : isEnd here.rest = true)
    (stop : begins isIn here.rest = false) : (most isIn isEnd).Prefers here here := by
  refine .of_unique (mem_ends_most.2 ⟨[], here, .refl _, by simp, ended, rfl⟩) fun last ends => ?_
  obtain ⟨word, there, reads, within, -, rfl⟩ := mem_ends_most.1 ends
  cases word with
  | nil =>
      rw [Cursor.Reads.nil_iff.1 reads]
      rfl
  | cons c word =>
      rw [reads.rest_eq, List.cons_append, begins, within c (by simp)] at stop
      cases stop

theorem head?_append (h : left.Prefers here middle)
    (h' : (right.ends ⟨middle, []⟩).head? = some last) :
    ((left ++ right).ends ⟨here, []⟩).head? = some last := by
  obtain ⟨others, eq⟩ := List.head?_eq_some_iff.1 h
  rw [ends_append, eq, List.flatMap_cons, List.head?_append, h']
  rfl

theorem head?_captured (h : body.Prefers here there) :
    ((capture body).ends ⟨here, []⟩).head? = some ⟨there, [Span.between here there]⟩ := by
  rw [ends, List.head?_map, h]
  rfl

theorem head?_capture (h : body.Prefers here middle) (h' : tail.Prefers middle there) :
    ((capture body ++ tail).ends ⟨here, []⟩).head? =
      some ⟨there, [Span.between here middle]⟩ := by
  obtain ⟨others, eq⟩ := List.head?_eq_some_iff.1 h
  have behind : (tail.ends ⟨middle, [Span.between here middle]⟩).head? =
      some ⟨there, [Span.between here middle]⟩ := by
    have start : (⟨middle, [Span.between here middle]⟩ : Progress) =
        Progress.behind [Span.between here middle] ⟨middle, []⟩ := rfl
    rw [start, ends_behind, List.head?_map, h']
    rfl
  rw [ends_append, ends, eq, List.map_cons, List.flatMap_cons, List.head?_append]
  simp [behind]

end Prefers

/-- The group of the first end reads as the stretch that was captured. -/
theorem exists_at?_of_head?
    (h : (pattern.ends ⟨here, []⟩).head? = some ⟨there, [Span.between middle inner]⟩)
    (reads : middle.Reads word inner) :
    ∃ found, pattern.at? here = some found ∧ found.group 0 = word ∧ found.stop = there := by
  refine ⟨Progress.toMatch ⟨there, [Span.between middle inner]⟩ here, ?_, reads.text_between, rfl⟩
  rw [at?_eq, h]
  rfl

/-! ## A body again and again -/

/-- One more body is read. -/
def Repeats (body : Pattern) (here there : Cursor) : Prop :=
  body.Prefers here there ∧ there.rest.length < here.rest.length

theorem iterateEnds_of_nil {body : Progress → List Progress} (stop : body first = [])
    (bound : Nat) : iterateEnds body bound first = [first] := by
  cases bound <;> simp [iterateEnds, stop]

/-- A repetition goes on until the body has no end any more. -/
theorem Prefers.repeated (run : Relation.ReflTransGen body.Repeats here there)
    (stop : body.ends ⟨there, []⟩ = []) : (repeated body).Prefers here there := by
  have enough {bound : Nat} (le : here.rest.length ≤ bound) :
      (iterateEnds body.ends bound ⟨here, []⟩).head? = some ⟨there, []⟩ := by
    induction run using Relation.ReflTransGen.head_induction_on generalizing bound with
    | refl => rw [iterateEnds_of_nil stop, List.head?_cons]
    | @head here middle step others ih =>
        obtain ⟨prefers, shorter⟩ := step
        obtain ⟨more, eq⟩ := List.head?_eq_some_iff.1 prefers
        obtain ⟨bound, rfl⟩ : ∃ less, bound = less + 1 := ⟨bound - 1, by omega⟩
        rw [iterateEnds, eq, List.flatMap_cons, List.append_assoc, List.head?_append,
          ih (by omega)]
        rfl
  exact enough (Nat.le_refl _)

end Pattern

end ComponentPreview
