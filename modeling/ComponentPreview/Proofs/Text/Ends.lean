import ComponentPreview.Text.Pattern

/-!
# The ends of a pattern

The places where a stretch that a pattern describes can end, the preferred ones first. Running a
pattern with something to follow it is trying that at each of its ends in turn (`run_eq`), so what
holds of every end holds of every match.
-/

namespace ComponentPreview

namespace Cursor

/-- From one place to another the text reads as `word`. -/
structure Reads (here : Cursor) (word : List Char) (there : Cursor) : Prop where
  rest_eq : here.rest = word ++ there.rest
  offset_eq : there.offset = here.offset + word.length
  before_eq : there.before = word.getLast?.or here.before

namespace Reads

variable {here there last : Cursor} {word other : List Char}

theorem refl (here : Cursor) : here.Reads [] here :=
  ⟨rfl, rfl, rfl⟩

theorem past (before : Option Char) (c : Char) (offset : Nat) (rest : List Char) :
    Reads ⟨before, offset, c :: rest⟩ [c] (.past c offset rest) :=
  ⟨rfl, rfl, rfl⟩

theorem trans (first : here.Reads word there) (second : there.Reads other last) :
    here.Reads (word ++ other) last where
  rest_eq := by rw [first.rest_eq, second.rest_eq, List.append_assoc]
  offset_eq := by rw [second.offset_eq, first.offset_eq, List.length_append, Nat.add_assoc]
  before_eq := by
    rw [second.before_eq, first.before_eq, List.getLast?_append]
    cases other.getLast? <;> simp

theorem unique (first : here.Reads word there) (second : here.Reads word last) : there = last := by
  obtain ⟨before, offset, rest⟩ := there
  obtain ⟨before', offset', rest'⟩ := last
  obtain ⟨rest_eq, offset_eq, before_eq⟩ := first
  obtain ⟨rest_eq', offset_eq', before_eq'⟩ := second
  simp only at *
  rw [rest_eq] at rest_eq'
  rw [List.append_cancel_left rest_eq', before_eq, before_eq', offset_eq, offset_eq']

@[simp] theorem nil_iff : here.Reads [] there ↔ there = here :=
  ⟨fun reads => reads.unique (refl here), fun same => same ▸ refl here⟩

@[simp] theorem cons_iff {before : Option Char} {c d : Char} {offset : Nat} {rest : List Char} :
    Reads ⟨before, offset, c :: rest⟩ (d :: word) there ↔
      c = d ∧ Reads (.past c offset rest) word there := by
  constructor
  · intro reads
    have rest_eq := reads.rest_eq
    simp only [List.cons_append, List.cons.injEq] at rest_eq
    refine ⟨rest_eq.1, rest_eq.2, ?_, ?_⟩
    · have offset_eq := reads.offset_eq
      simp only [List.length_cons] at offset_eq
      simp only [Cursor.past]
      omega
    · rw [reads.before_eq, rest_eq.1, Cursor.past, List.getLast?_cons]
      cases word.getLast? <;> rfl
  · rintro ⟨rfl, reads⟩
    exact (past before c offset rest).trans reads

theorem word_unique (first : here.Reads word there) (second : here.Reads other there) :
    word = other :=
  List.append_cancel_right (first.rest_eq.symm.trans second.rest_eq)

theorem nil_of_end {before : Option Char} {offset : Nat}
    (reads : Reads ⟨before, offset, []⟩ word there) :
    word = [] :=
  (List.append_eq_nil_iff.1 reads.rest_eq.symm).1

theorem size_eq (reads : here.Reads word there) : there.offset - here.offset = word.length := by
  rw [reads.offset_eq, Nat.add_sub_cancel_left]

theorem text_between (reads : here.Reads word there) : (Span.between here there).text = word := by
  rw [Span.text, Span.between, reads.size_eq, reads.rest_eq, List.take_left]

end Reads

theorem skip?_eq_some {word : List Char} {here there : Cursor} :
    here.skip? word = some there ↔ here.Reads word there := by
  induction word generalizing here with
  | nil => simp [skip?, eq_comm]
  | cons w word ih =>
      match here with
      | ⟨before, offset, []⟩ =>
          simp only [skip?, reduceCtorEq, false_iff]
          exact fun reads => List.cons_ne_nil _ _ reads.nil_of_end
      | ⟨before, offset, c :: rest⟩ =>
          by_cases same : w = c
          · simp [skip?, same, ih]
          · simp [skip?, same, Ne.symm same]

/-- The furthest places come before those already seen. -/
theorem stretch_go_eq (isIn : Char → Bool) (isEnd : List Char → Bool) (before : Option Char)
    (offset : Nat) (seen : List Cursor) (text : List Char) :
    stretch.go isIn isEnd before offset seen text =
      stretch.go isIn isEnd before offset [] text ++ seen := by
  induction text generalizing before offset seen with
  | nil =>
      simp only [stretch.go]
      split <;> rfl
  | cons c rest ih =>
      by_cases within : isIn c <;> by_cases ends : isEnd (c :: rest) <;>
        simp only [stretch.go, within, ends, Bool.false_eq_true, if_true, if_false,
          List.singleton_append, List.nil_append]
      · rw [ih, ih (some c) (offset + 1) [_], List.append_assoc, List.singleton_append]
      · rw [ih]

private theorem mem_end_here {isEnd : List Char → Bool} {here there : Cursor} :
    there ∈ (if isEnd here.rest then [here] else []) ↔
      here.Reads [] there ∧ isEnd there.rest = true := by
  by_cases ends : isEnd here.rest
  · simp only [ends, if_true, List.mem_singleton, Reads.nil_iff]
    exact ⟨fun same => ⟨same, same ▸ ends⟩, And.left⟩
  · simp only [ends, Bool.false_eq_true, if_false, List.not_mem_nil, Reads.nil_iff, false_iff]
    rintro ⟨rfl, ends'⟩
    exact ends ends'

theorem mem_stretch_go {isIn : Char → Bool} {isEnd : List Char → Bool} {before : Option Char}
    {offset : Nat} {text : List Char} {there : Cursor} :
    there ∈ stretch.go isIn isEnd before offset [] text ↔
      ∃ word, Reads ⟨before, offset, text⟩ word there ∧ (∀ c ∈ word, isIn c = true) ∧
        isEnd there.rest = true := by
  induction text generalizing before offset with
  | nil =>
      simp only [stretch.go]
      rw [@mem_end_here isEnd ⟨before, offset, []⟩]
      constructor
      · rintro ⟨reads, ends⟩
        exact ⟨[], reads, by simp, ends⟩
      · rintro ⟨word, reads, -, ends⟩
        obtain rfl := reads.nil_of_end
        exact ⟨reads, ends⟩
  | cons c rest ih =>
      have split_eq : stretch.go isIn isEnd before offset [] (c :: rest) =
          (if isIn c then stretch.go isIn isEnd (some c) (offset + 1) [] rest else []) ++
            if isEnd (c :: rest) then [⟨before, offset, c :: rest⟩] else [] := by
        simp only [stretch.go]
        split
        · rw [stretch_go_eq]
        · rfl
      rw [split_eq, List.mem_append, @mem_end_here isEnd ⟨before, offset, c :: rest⟩]
      constructor
      · rintro (later | ⟨reads, ends⟩)
        · split at later
          · next within =>
              obtain ⟨word, reads, all, ends⟩ := ih.1 later
              exact ⟨c :: word, Reads.cons_iff.2 ⟨rfl, reads⟩,
                List.forall_mem_cons.2 ⟨within, all⟩, ends⟩
          · cases later
        · exact ⟨[], reads, by simp, ends⟩
      · rintro ⟨word, reads, all, ends⟩
        cases word with
        | nil => exact .inr ⟨reads, ends⟩
        | cons d word =>
            obtain ⟨rfl, later⟩ := Reads.cons_iff.1 reads
            obtain ⟨within, all⟩ := List.forall_mem_cons.1 all
            rw [if_pos within]
            exact .inl (ih.2 ⟨word, later, all, ends⟩)

theorem mem_stretch {isIn : Char → Bool} {isEnd : List Char → Bool} {here there : Cursor} :
    there ∈ here.stretch isIn isEnd ↔
      ∃ word, here.Reads word there ∧ (∀ c ∈ word, isIn c = true) ∧ isEnd there.rest = true :=
  mem_stretch_go

end Cursor

namespace Pattern

theorem nearest_eq_findSome? (isIn : Char → Bool) (isEnd : List Char → Bool)
    (attempt : Cursor → Option Progress) (before : Option Char) (offset : Nat) (text : List Char) :
    nearest isIn isEnd attempt before offset text =
      (Cursor.stretch.go isIn isEnd before offset [] text).reverse.findSome? attempt := by
  induction text generalizing before offset with
  | nil =>
      simp only [nearest, Cursor.stretch.go]
      split <;> simp
  | cons c rest ih =>
      by_cases within : isIn c <;> by_cases ends : isEnd (c :: rest) <;>
        simp only [nearest, Cursor.stretch.go, within, ends, Bool.false_eq_true, if_true, if_false]
      · rw [Cursor.stretch_go_eq, List.reverse_append, List.findSome?_append, ih]
        cases found : attempt ⟨before, offset, c :: rest⟩ <;> simp [found]
      · rw [ih]
      · cases found : attempt ⟨before, offset, c :: rest⟩ <;> simp [found]
      · rfl

private theorem findSome?_flatMap {α β γ : Type} (f : α → List β) (attempt : β → Option γ)
    (entries : List α) :
    (entries.flatMap f).findSome? attempt =
      entries.findSome? fun entry => (f entry).findSome? attempt := by
  induction entries with
  | nil => rfl
  | cons entry entries ih =>
      rw [List.flatMap_cons, List.findSome?_append, ih, List.findSome?_cons]
      cases (f entry).findSome? attempt <;> rfl

/-- The ends of up to `bound` bodies, those of more before those of fewer. -/
def iterateEnds (body : Progress → List Progress) : Nat → Progress → List Progress
  | 0, progress => [progress]
  | bound + 1, progress => (body progress).flatMap (iterateEnds body bound) ++ [progress]

@[simp] def ends : Pattern → Progress → List Progress
  | nothing, progress => [progress]
  | word text, progress => ((progress.here.skip? text).map progress.moveTo).toList
  | one isIn, progress =>
      match progress.here with
      | ⟨_, offset, c :: rest⟩ => if isIn c then [progress.moveTo (.past c offset rest)] else []
      | ⟨_, _, []⟩ => []
  | most isIn isEnd, progress => (progress.here.stretch isIn isEnd).map progress.moveTo
  | few isIn isEnd, progress => (progress.here.stretch isIn isEnd).reverse.map progress.moveTo
  | both left right, progress => (ends left progress).flatMap (ends right)
  | either left right, progress => ends left progress ++ ends right progress
  | repeated body, progress => iterateEnds (ends body) progress.here.rest.length progress
  | capture body, progress =>
      (ends body progress).map fun later =>
        { later with groups := later.groups ++ [Span.between progress.here later.here] }
  | wordEdge, progress =>
      if progress.here.follows isWord != progress.here.precedes isWord then [progress] else []
  | lineStart, progress =>
      if progress.here.before.isNone || progress.here.follows (· == '\n') then [progress] else []
  | lastEnd, progress => if progress.here.rest.isEmpty then [progress] else []
  | textEnd, progress =>
      if progress.here.rest.isEmpty || progress.here.rest == ['\n'] then [progress] else []
  | notAfter isIn, progress => if progress.here.follows isIn then [] else [progress]
  | ahead body, progress => if (ends body progress).isEmpty then [] else [progress]
  | notAhead body, progress => if (ends body progress).isEmpty then [progress] else []

theorem iterate_eq {body : Progress → (Progress → Option Progress) → Option Progress}
    {bodyEnds : Progress → List Progress}
    (h : ∀ progress next, body progress next = (bodyEnds progress).findSome? next) (bound : Nat)
    (progress : Progress) (next : Progress → Option Progress) :
    iterate body bound progress next = (iterateEnds bodyEnds bound progress).findSome? next := by
  induction bound generalizing progress with
  | zero => simp [iterate, iterateEnds]
  | succ bound ih =>
      simp only [iterate, iterateEnds, h, ih, List.findSome?_append, findSome?_flatMap]
      cases (bodyEnds progress).findSome? fun later =>
        (iterateEnds bodyEnds bound later).findSome? next <;> simp

theorem run_eq (pattern : Pattern) (progress : Progress) (next : Progress → Option Progress) :
    pattern.run progress next = (pattern.ends progress).findSome? next := by
  induction pattern generalizing progress next with
  | nothing => simp [run, ends]
  | word text =>
      simp only [run, ends]
      cases progress.here.skip? text <;> simp
  | one isIn =>
      simp only [run, ends]
      rcases progress with ⟨⟨before, offset, _ | ⟨c, rest⟩⟩, groups⟩
      · rfl
      · dsimp only
        split <;> simp
  | most isIn isEnd => simp [run, ends, List.findSome?_map, Function.comp_def]
  | few isIn isEnd =>
      simp only [run, ends, nearest_eq_findSome?, List.findSome?_map]
      rfl
  | both left right ihl ihr =>
      simp only [run, ends, ihl, ihr, findSome?_flatMap]
  | either left right ihl ihr =>
      simp only [run, ends, ihl, ihr, List.findSome?_append]
      cases (ends left progress).findSome? next <;> rfl
  | repeated body ih =>
      simp only [run, ends]
      exact iterate_eq ih _ _ _
  | capture body ih => simp [run, ends, ih, List.findSome?_map, Function.comp_def]
  | wordEdge | lineStart | lastEnd | textEnd =>
      simp only [run, ends]
      split <;> simp
  | notAfter isIn =>
      simp only [run, ends]
      split <;> simp
  | ahead body ih | notAhead body ih =>
      simp only [run, ends, ih]
      cases ends body progress <;> simp

/-! ## Each kind of pattern -/

variable {first last : Progress}

theorem ends_append (left right : Pattern) (progress : Progress) :
    (left ++ right).ends progress = (left.ends progress).flatMap right.ends := by
  change (andThen left right).ends progress = _
  fun_induction andThen left right generalizing progress with
  | case1 left middle right ih =>
      have same : (andThen middle right).ends =
          fun progress => (middle.ends progress).flatMap right.ends := funext ih
      simp only [ends, List.flatMap_assoc, same]
  | case2 left right => rfl

theorem mem_ends_append {left right : Pattern} :
    last ∈ (left ++ right).ends first ↔ ∃ middle ∈ left.ends first, last ∈ right.ends middle := by
  rw [ends_append, List.mem_flatMap]

theorem mem_ends_word {text : List Char} :
    last ∈ (word text).ends first ↔
      ∃ there, first.here.Reads text there ∧ last = first.moveTo there := by
  simp only [ends, Option.mem_toList, Option.map_eq_some_iff, Cursor.skip?_eq_some]
  exact exists_congr fun there => and_congr_right fun _ => eq_comm

theorem mem_ends_lit {text : String} :
    last ∈ (lit text).ends first ↔
      ∃ there, first.here.Reads text.toList there ∧ last = first.moveTo there :=
  mem_ends_word

theorem mem_ends_one {isIn : Char → Bool} :
    last ∈ (one isIn).ends first ↔
      ∃ c there, isIn c = true ∧ first.here.Reads [c] there ∧ last = first.moveTo there := by
  rcases first with ⟨⟨before, offset, _ | ⟨c, rest⟩⟩, groups⟩
  · simp only [ends, List.not_mem_nil, false_iff]
    rintro ⟨c, there, -, reads, -⟩
    exact List.cons_ne_nil _ _ reads.nil_of_end
  · by_cases within : isIn c
    · simp only [ends, within, if_true, List.mem_singleton]
      constructor
      · rintro rfl
        exact ⟨c, _, within, .past before c offset rest, rfl⟩
      · rintro ⟨d, there, -, reads, rfl⟩
        obtain ⟨rfl, reads'⟩ := Cursor.Reads.cons_iff.1 reads
        rw [Cursor.Reads.nil_iff.1 reads']
    · simp only [ends, within, Bool.false_eq_true, if_false, List.not_mem_nil, false_iff]
      rintro ⟨d, there, within', reads, -⟩
      obtain ⟨rfl, -⟩ := Cursor.Reads.cons_iff.1 reads
      exact within within'

theorem mem_ends_most {isIn : Char → Bool} {isEnd : List Char → Bool} :
    last ∈ (most isIn isEnd).ends first ↔
      ∃ word there, first.here.Reads word there ∧ (∀ c ∈ word, isIn c = true) ∧
        isEnd there.rest = true ∧ last = first.moveTo there := by
  simp only [ends, List.mem_map, Cursor.mem_stretch]
  constructor
  · rintro ⟨there, ⟨word, reads, all, ends⟩, rfl⟩
    exact ⟨word, there, reads, all, ends, rfl⟩
  · rintro ⟨word, there, reads, all, ends, rfl⟩
    exact ⟨there, ⟨word, reads, all, ends⟩, rfl⟩

theorem mem_ends_few {isIn : Char → Bool} {isEnd : List Char → Bool} :
    last ∈ (few isIn isEnd).ends first ↔
      ∃ word there, first.here.Reads word there ∧ (∀ c ∈ word, isIn c = true) ∧
        isEnd there.rest = true ∧ last = first.moveTo there := by
  rw [← mem_ends_most]
  simp only [ends, List.mem_map, List.mem_reverse]

theorem mem_ends_every {isIn : Char → Bool} :
    last ∈ (every isIn).ends first ↔
      ∃ word there, first.here.Reads word there ∧ (∀ c ∈ word, isIn c = true) ∧
        begins isIn there.rest = false ∧ last = first.moveTo there := by
  simp only [every, mem_ends_most, Bool.not_eq_true']

theorem mem_ends_many {isIn : Char → Bool} :
    last ∈ (many isIn).ends first ↔
      ∃ word there, first.here.Reads word there ∧ (∀ c ∈ word, isIn c = true) ∧
        last = first.moveTo there := by
  simp only [many, mem_ends_most, true_and]

theorem mem_ends_either {left right : Pattern} :
    last ∈ (either left right).ends first ↔ last ∈ left.ends first ∨ last ∈ right.ends first := by
  rw [ends, List.mem_append]

theorem mem_ends_optional {body : Pattern} :
    last ∈ (optional body).ends first ↔ last ∈ body.ends first ∨ last = first := by
  rw [optional, mem_ends_either, ends, List.mem_singleton]

theorem mem_ends_anyOf {texts : List String} :
    last ∈ (anyOf texts).ends first ↔ ∃ text ∈ texts, last ∈ (lit text).ends first := by
  induction texts with
  | nil =>
      refine ⟨fun none => ?_, fun ⟨_, mem, _⟩ => absurd mem List.not_mem_nil⟩
      obtain ⟨c, there, none, -⟩ := mem_ends_one.1 none
      cases none
  | cons text texts ih =>
      simp only [List.mem_cons, exists_eq_or_imp, ← ih]
      cases texts with
      | nil =>
          refine ⟨.inl, fun h => h.resolve_right fun none => ?_⟩
          obtain ⟨c, there, none, -⟩ := mem_ends_one.1 none
          cases none
      | cons other texts => exact mem_ends_either

theorem mem_ends_capture {body : Pattern} :
    last ∈ (capture body).ends first ↔
      ∃ later ∈ body.ends first, last =
        { later with groups := later.groups ++ [Span.between first.here later.here] } := by
  simp only [ends, List.mem_map, eq_comm]

theorem mem_ends_wordEdge :
    last ∈ wordEdge.ends first ↔
      first.here.follows isWord ≠ first.here.precedes isWord ∧ last = first := by
  rw [ends]
  split <;> simp_all

theorem mem_ends_lineStart :
    last ∈ lineStart.ends first ↔
      (first.here.before = none ∨ first.here.before = some '\n') ∧ last = first := by
  rw [ends]
  cases before : first.here.before with
  | none => simp
  | some c => by_cases newline : c = '\n' <;> simp [Cursor.follows, before, newline]

theorem mem_ends_textEnd :
    last ∈ textEnd.ends first ↔
      (first.here.rest = [] ∨ first.here.rest = ['\n']) ∧ last = first := by
  rw [ends]
  split <;> simp_all

theorem mem_ends_notAfter {isIn : Char → Bool} :
    last ∈ (notAfter isIn).ends first ↔ first.here.follows isIn = false ∧ last = first := by
  rw [ends]
  split <;> simp_all

theorem mem_ends_ahead {body : Pattern} :
    last ∈ (ahead body).ends first ↔ (∃ later, later ∈ body.ends first) ∧ last = first := by
  rw [ends]
  cases body.ends first <;> simp

theorem mem_ends_notAhead {body : Pattern} :
    last ∈ (notAhead body).ends first ↔ (∀ later, later ∉ body.ends first) ∧ last = first := by
  rw [ends]
  cases found : body.ends first with
  | nil => simp
  | cons later others =>
      simp only [List.isEmpty_cons, Bool.false_eq_true, if_false, List.not_mem_nil, false_iff]
      exact fun none => none.1 later List.mem_cons_self

/-- Whether a pattern captures nothing. -/
def isPlain : Pattern → Bool
  | both left right | either left right => isPlain left && isPlain right
  | repeated body => isPlain body
  | capture _ => false
  | _ => true

/-- What holds of staying, of reading on and of capturing, and from step to step, holds of every
end. Only a pattern that is not plain captures. -/
theorem ends_induction {motive : Progress → Progress → Prop} (stay : ∀ first, motive first first)
    (move : ∀ first word there, first.here.Reads word there → motive first (first.moveTo there))
    (trans : ∀ first middle last, motive first middle → motive middle last → motive first last)
    {pattern : Pattern}
    (capture : pattern.isPlain = false → ∀ (body : Pattern) first, ∀ later ∈ body.ends first,
      motive first later → motive first
        { later with groups := later.groups ++ [Span.between first.here later.here] })
    (h : last ∈ pattern.ends first) : motive first last := by
  induction pattern generalizing first last with
  | nothing =>
      rw [ends, List.mem_singleton] at h
      exact h ▸ stay first
  | word text =>
      obtain ⟨there, reads, rfl⟩ := mem_ends_word.1 h
      exact move first text there reads
  | one isIn =>
      obtain ⟨c, there, -, reads, rfl⟩ := mem_ends_one.1 h
      exact move first [c] there reads
  | most isIn isEnd =>
      obtain ⟨word, there, reads, -, -, rfl⟩ := mem_ends_most.1 h
      exact move first word there reads
  | few isIn isEnd =>
      obtain ⟨word, there, reads, -, -, rfl⟩ := mem_ends_few.1 h
      exact move first word there reads
  | both left right ihl ihr =>
      simp only [isPlain, Bool.and_eq_false_iff] at capture
      simp only [ends, List.mem_flatMap] at h
      obtain ⟨middle, left_ends, right_ends⟩ := h
      exact trans first middle last (ihl (fun captures => capture (.inl captures)) left_ends)
        (ihr (fun captures => capture (.inr captures)) right_ends)
  | either left right ihl ihr =>
      simp only [isPlain, Bool.and_eq_false_iff] at capture
      rcases mem_ends_either.1 h with h | h
      · exact ihl (fun captures => capture (.inl captures)) h
      · exact ihr (fun captures => capture (.inr captures)) h
  | repeated body ih =>
      rw [ends] at h
      generalize first.here.rest.length = bound at h
      induction bound generalizing first with
      | zero =>
          rw [iterateEnds, List.mem_singleton] at h
          exact h ▸ stay first
      | succ bound ihb =>
          rw [iterateEnds, List.mem_append, List.mem_flatMap, List.mem_singleton] at h
          rcases h with ⟨middle, body_ends, rest_ends⟩ | rfl
          · exact trans first middle last (ih capture body_ends) (ihb rest_ends)
          · exact stay last
  | capture body ih =>
      obtain ⟨later, later_ends, rfl⟩ := mem_ends_capture.1 h
      exact capture rfl body first later later_ends (ih (fun _ => capture rfl) later_ends)
  | wordEdge => exact (mem_ends_wordEdge.1 h).2 ▸ stay first
  | lineStart => exact (mem_ends_lineStart.1 h).2 ▸ stay first
  | lastEnd =>
      rw [ends] at h
      split at h
      · exact List.mem_singleton.1 h ▸ stay first
      · cases h
  | textEnd => exact (mem_ends_textEnd.1 h).2 ▸ stay first
  | notAfter isIn => exact (mem_ends_notAfter.1 h).2 ▸ stay first
  | ahead body => exact (mem_ends_ahead.1 h).2 ▸ stay first
  | notAhead body => exact (mem_ends_notAhead.1 h).2 ▸ stay first

/-- Every end is reached by reading on. -/
theorem reads_of_mem_ends {pattern : Pattern} (h : last ∈ pattern.ends first) :
    ∃ word, first.here.Reads word last.here := by
  refine ends_induction (motive := fun first last => ∃ word, first.here.Reads word last.here)
    (fun first => ⟨[], .refl _⟩) (fun _ word _ reads => ⟨word, reads⟩) ?_
    (fun _ _ _ _ _ reads => reads) h
  rintro first middle last ⟨word, reads⟩ ⟨other, reads'⟩
  exact ⟨word ++ other, reads.trans reads'⟩

/-- A group stays where it was captured. -/
theorem groups_of_mem_ends {pattern : Pattern} (h : last ∈ pattern.ends first) :
    ∃ more, last.groups = first.groups ++ more := by
  refine ends_induction (motive := fun first last => ∃ more, last.groups = first.groups ++ more)
    (fun _ => ⟨[], by simp⟩) (fun _ _ _ _ => ⟨[], by simp [Progress.moveTo]⟩) ?_ ?_ h
  · rintro first middle last ⟨more, eq⟩ ⟨more', eq'⟩
    exact ⟨more ++ more', by rw [eq', eq, List.append_assoc]⟩
  · rintro - body first later - ⟨more, eq⟩
    exact ⟨more ++ [_], by rw [eq, List.append_assoc]⟩

theorem groups_of_isPlain {pattern : Pattern} (plain : pattern.isPlain = true)
    (h : last ∈ pattern.ends first) : last.groups = first.groups := by
  refine ends_induction (motive := fun first last => last.groups = first.groups)
    (fun _ => rfl) (fun _ _ _ _ => rfl) ?_ ?_ h
  · intro first middle last eq eq'
    rw [eq', eq]
  · intro captures
    rw [plain] at captures
    cases captures

/-- What is captured is part of the text. -/
theorem size_le_of_mem_ends {pattern : Pattern} (h : last ∈ pattern.ends first)
    (within : ∀ span ∈ first.groups, span.size ≤ span.first.rest.length) :
    ∀ span ∈ last.groups, span.size ≤ span.first.rest.length := by
  refine ends_induction (motive := fun first last =>
    (∀ span ∈ first.groups, span.size ≤ span.first.rest.length) →
      ∀ span ∈ last.groups, span.size ≤ span.first.rest.length)
    (fun _ within => within) (fun _ _ _ _ within => within)
    (fun _ _ _ front back within => back (front within)) ?_ h within
  intro _ body first later ends before within
  obtain ⟨word, reads⟩ := reads_of_mem_ends ends
  refine List.forall_mem_append.2 ⟨before within, List.forall_mem_singleton.2 ?_⟩
  change later.here.offset - first.here.offset ≤ first.here.rest.length
  rw [reads.size_eq, reads.rest_eq, List.length_append]
  exact Nat.le_add_right _ _

end Pattern

end ComponentPreview
