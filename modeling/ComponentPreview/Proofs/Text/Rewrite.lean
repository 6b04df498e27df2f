import ComponentPreview.Proofs.Text.Dissection

/-!
# Rewriting part by part

A text is rewritten part by part. Each part is looked at with the rest of the text present, so that
putting parts together cuts no match short (`Rewrites.append`). What a text becomes behind other
characters is what it becomes alone, if the pattern does not tell the last of them from the start of
a text (`replace_append`).
-/

namespace ComponentPreview

/-! ## The same place behind other characters -/

namespace Cursor

theorem Reads.of_append {here middle last : Cursor} {word other : List Char}
    (whole : here.Reads (word ++ other) last) (first : here.Reads word middle) :
    middle.Reads other last := by
  have rest_eq : middle.rest = other ++ last.rest := by
    have eq := first.rest_eq.symm.trans whole.rest_eq
    rwa [List.append_assoc, List.append_cancel_left_eq] at eq
  refine ⟨rest_eq, ?_, ?_⟩
  · rw [whole.offset_eq, first.offset_eq, List.length_append, Nat.add_assoc]
  · rw [whole.before_eq, first.before_eq, List.getLast?_append]
    cases other.getLast? <;> rfl

theorem Reads.exists_middle {here last : Cursor} {word other : List Char}
    (whole : here.Reads (word ++ other) last) :
    ∃ middle, here.Reads word middle ∧ middle.Reads other last := by
  have first : here.Reads word
      ⟨word.getLast?.or here.before, here.offset + word.length, other ++ last.rest⟩ :=
    ⟨by rw [whole.rest_eq, List.append_assoc], rfl, rfl⟩
  exact ⟨_, first, whole.of_append first⟩

/-- A place within a stretch has a character of it ahead. -/
theorem Reads.exists_ahead {here middle last : Cursor} {word lead : List Char}
    (whole : here.Reads word last) (reads : here.Reads lead middle)
    (shorter : lead.length < word.length) :
    ∃ c others, word = lead ++ c :: others ∧ middle.rest = c :: (others ++ last.rest) := by
  have same := reads.rest_eq.symm.trans whole.rest_eq
  obtain ⟨_ | ⟨c, others⟩, rfl⟩ : lead <+: word :=
    List.prefix_of_prefix_length_le ⟨_, same⟩ (List.prefix_append _ _) (Nat.le_of_lt shorter)
  · simp at shorter
  · rw [List.append_assoc, List.append_cancel_left_eq] at same
    exact ⟨c, others, rfl, same⟩

/-- A place of a text as a place of the text behind `n` other characters that end with `c`. -/
def shift (c : Char) (n : Nat) (here : Cursor) : Cursor :=
  ⟨here.before.or (some c), here.offset + n, here.rest⟩

variable {c : Char} {n : Nat} {here there : Cursor} {isIn : Char → Bool}

theorem reads_shift (front : List Char) (c : Char) (rest : List Char) :
    (start (front ++ c :: rest)).Reads (front ++ [c])
      ((start rest).shift c (front.length + 1)) :=
  ⟨by simp [start, shift], by simp [start, shift], by simp [start, shift]⟩

theorem skip?_shift (word : List Char) (here : Cursor) :
    (here.shift c n).skip? word = (here.skip? word).map (shift c n) := by
  induction word generalizing here with
  | nil => rfl
  | cons w word ih =>
      match here with
      | ⟨before, offset, []⟩ => rfl
      | ⟨before, offset, d :: rest⟩ =>
          simp only [skip?, shift]
          split
          · rw [← ih (past d offset rest)]
            simp only [shift, past, Option.some_or, Nat.add_right_comm]
          · rfl

theorem stretch_go_shift (c : Char) (n : Nat) (isIn : Char → Bool) (isEnd : List Char → Bool)
    (before : Option Char) (offset : Nat) (seen : List Cursor) (text : List Char) :
    stretch.go isIn isEnd (before.or (some c)) (offset + n) (seen.map (shift c n)) text =
      (stretch.go isIn isEnd before offset seen text).map (shift c n) := by
  induction text generalizing before offset seen with
  | nil =>
      simp only [stretch.go]
      split <;> rfl
  | cons d rest ih =>
      have later := ih (some d) (offset + 1)
      rw [Option.some_or, Nat.add_right_comm] at later
      simp only [stretch.go]
      split <;> split
      · exact later (⟨before, offset, d :: rest⟩ :: seen)
      · exact later seen
      · rfl
      · rfl

theorem follows_shift (other : isIn c = false) :
    (here.shift c n).follows isIn = here.follows isIn := by
  unfold follows shift
  cases here.before <;> simp [other]

end Cursor

def Span.shift (c : Char) (n : Nat) (span : Span) : Span :=
  ⟨span.first.shift c n, span.size⟩

theorem Span.between_shift (c : Char) (n : Nat) (first last : Cursor) :
    Span.between (first.shift c n) (last.shift c n) = (Span.between first last).shift c n := by
  simp [Span.between, Span.shift, Cursor.shift, Nat.add_sub_add_right]

def Progress.shift (c : Char) (n : Nat) (progress : Progress) : Progress :=
  ⟨progress.here.shift c n, progress.groups.map (Span.shift c n)⟩

namespace Pattern

def Match.shift (c : Char) (n : Nat) (found : Match) : Match :=
  ⟨found.whole.shift c n, found.stop.shift c n, found.groups.map (Span.shift c n)⟩

/-- Whether a pattern does not tell a character before a place from the start of the text. -/
def ignores (c : Char) : Pattern → Bool
  | wordEdge => !isWord c
  | lineStart => c == '\n'
  | notAfter isIn => !isIn c
  | both left right | either left right => left.ignores c && right.ignores c
  | repeated body | capture body | ahead body | notAhead body => body.ignores c
  | _ => true

variable {pattern : Pattern} {c : Char} {n : Nat} {first : Progress}

theorem iterateEnds_map {body : Progress → List Progress} {move : Progress → Progress}
    (h : ∀ first, body (move first) = (body first).map move) (bound : Nat) (first : Progress) :
    iterateEnds body bound (move first) = (iterateEnds body bound first).map move := by
  induction bound generalizing first with
  | zero => rfl
  | succ bound ih =>
      simp only [iterateEnds, h, List.flatMap_map, List.map_append, List.map_flatMap, ih,
        List.map_cons, List.map_nil]

theorem ends_shift (ignored : pattern.ignores c = true) (first : Progress) :
    pattern.ends (first.shift c n) = (pattern.ends first).map (·.shift c n) := by
  induction pattern generalizing first with
  | nothing => rfl
  | word text =>
      simp only [ends, Progress.shift, Cursor.skip?_shift]
      cases first.here.skip? text <;> rfl
  | one isIn =>
      rcases first with ⟨⟨before, offset, _ | ⟨d, rest⟩⟩, groups⟩
      · rfl
      · simp only [ends, Progress.shift, Cursor.shift]
        split
        · simp [Progress.moveTo, Cursor.past, Nat.add_right_comm]
        · rfl
  | most isIn isEnd =>
      have same := Cursor.stretch_go_shift c n isIn isEnd first.here.before first.here.offset []
        first.here.rest
      simp only [ends, Cursor.stretch, Progress.shift, Cursor.shift, List.map_nil] at same ⊢
      rw [same, List.map_map, List.map_map]
      rfl
  | few isIn isEnd =>
      have same := Cursor.stretch_go_shift c n isIn isEnd first.here.before first.here.offset []
        first.here.rest
      simp only [ends, Cursor.stretch, Progress.shift, Cursor.shift, List.map_nil] at same ⊢
      rw [same, ← List.map_reverse, List.map_map, List.map_map]
      rfl
  | both left right ihl ihr =>
      obtain ⟨left_ignored, right_ignored⟩ := Bool.and_eq_true_iff.1 ignored
      simp only [ends, ihl left_ignored, List.flatMap_map, ihr right_ignored, List.map_flatMap]
  | either left right ihl ihr =>
      obtain ⟨left_ignored, right_ignored⟩ := Bool.and_eq_true_iff.1 ignored
      simp only [ends, ihl left_ignored, ihr right_ignored, List.map_append]
  | repeated body ih => exact iterateEnds_map (ih ignored) _ _
  | capture body ih =>
      simp only [ends, ih ignored, List.map_map]
      refine List.map_congr_left fun later _ => ?_
      simp [Progress.shift, Span.between_shift]
  | wordEdge =>
      have follows : (first.shift c n).here.follows isWord = first.here.follows isWord :=
        Cursor.follows_shift (by simpa [ignores] using ignored)
      have precedes : (first.shift c n).here.precedes isWord = first.here.precedes isWord := rfl
      simp only [ends, follows, precedes]
      split <;> rfl
  | lineStart =>
      obtain rfl : c = '\n' := by simpa [ignores] using ignored
      rcases first with ⟨⟨_ | d, offset, rest⟩, groups⟩
      · rfl
      · rw [ends, ends, apply_ite (List.map _)]
        rfl
  | lastEnd | textEnd =>
      rw [ends, ends, apply_ite (List.map _)]
      rfl
  | notAfter isIn =>
      have follows : (first.shift c n).here.follows isIn = first.here.follows isIn :=
        Cursor.follows_shift (by simpa [ignores] using ignored)
      simp only [ends, follows]
      split <;> rfl
  | ahead body ih | notAhead body ih =>
      simp only [ends, ih ignored, List.isEmpty_map]
      split <;> rfl

theorem at?_shift (ignored : pattern.ignores c = true) (here : Cursor) :
    pattern.at? (here.shift c n) = (pattern.at? here).map (·.shift c n) := by
  have start : (⟨here.shift c n, []⟩ : Progress) = Progress.shift c n ⟨here, []⟩ := rfl
  rw [at?_eq, at?_eq, start, ends_shift ignored, List.head?_map, Option.map_map, Option.map_map]
  congr 1
  funext last
  simp [Progress.toMatch, Match.shift, Progress.shift, Span.between_shift]

/-! ## Parts of a text -/

variable {edit : Match → List Char} {here middle there : Cursor} {pieces others : List Piece}
  {found : Match} {text word out : List Char}

theorem Dissects.append (front : pattern.Dissects here pieces middle)
    (back : pattern.Dissects middle others there) :
    pattern.Dissects here (pieces ++ others) there := by
  induction front with
  | nil => exact back
  | kept none rest ih => exact .kept none (ih back)
  | found found_at size rest ih => exact .found found_at size (ih back)

theorem size_of_at?_end (ended : here.rest = []) (found_at : pattern.at? here = some found) :
    found.whole.size = 0 := by
  have whole := (reads_of_at? found_at).rest_eq
  rw [ended, eq_comm, List.append_eq_nil_iff] at whole
  rw [size_of_at? found_at, whole.1, List.length_nil]

/-- A text is taken apart in one way. -/
theorem Dissects.unique {stop stop' : Cursor} (h : pattern.Dissects here pieces stop)
    (ended : stop.rest = []) (h' : pattern.Dissects here others stop') (ended' : stop'.rest = []) :
    pieces = others := by
  induction h generalizing others with
  | nil =>
      cases h' with
      | nil => rfl
      | kept => cases ended
      | found found_at size => exact absurd (size_of_at?_end ended found_at) size
  | kept none rest ih =>
      cases h' with
      | nil => cases ended'
      | kept none' rest' => rw [ih ended rest']
      | found found_at size => exact absurd (none _ found_at) size
  | found found_at size rest ih =>
      cases h' with
      | nil => exact absurd (size_of_at?_end ended' found_at) size
      | kept none => exact absurd (none _ found_at) size
      | found found_at' size' rest' =>
          obtain rfl := Option.some.inj (found_at.symm.trans found_at')
          rw [ih ended rest']

/-- No match from a place on is cut in two at another one. -/
def Uncut (pattern : Pattern) (here middle : Cursor) : Prop :=
  ∀ lead start found inner outer, here.Reads lead start → pattern.at? start = some found →
    start.Reads inner middle → found.text = inner ++ outer → inner = [] ∨ outer = []

theorem Dissects.exists_parts (dissects : pattern.Dissects here pieces there)
    (ended : there.rest = []) (reads : here.Reads word middle)
    (uncut : pattern.Uncut here middle) :
    ∃ front back, pieces = front ++ back ∧ pattern.Dissects here front middle ∧
      pattern.Dissects middle back there := by
  induction dissects generalizing word with
  | nil =>
      have whole := reads.rest_eq
      rw [ended, eq_comm, List.append_eq_nil_iff] at whole
      rw [whole.1] at reads
      rw [Cursor.Reads.nil_iff.1 reads]
      exact ⟨[], [], rfl, .nil, .nil⟩
  | @kept before c offset rest pieces there none others ih =>
      cases word with
      | nil =>
          rw [Cursor.Reads.nil_iff.1 reads]
          exact ⟨[], _, rfl, .nil, .kept none others⟩
      | cons d word =>
          obtain ⟨rfl, later⟩ := Cursor.Reads.cons_iff.1 reads
          obtain ⟨front, back, rfl, first, last⟩ := ih ended later
            fun lead start found inner outer reads' =>
              uncut (c :: lead) start found inner outer (Cursor.Reads.cons_iff.2 ⟨rfl, reads'⟩)
          exact ⟨.kept c :: front, back, rfl, .kept none first, last⟩
  | @found here found pieces there found_at size others ih =>
      have whole := reads_of_at? found_at
      have within (more : List Char) (eq : word = found.text ++ more) :
          ∃ front back, .found found :: pieces = front ++ back ∧
            pattern.Dissects here front middle ∧ pattern.Dissects middle back there := by
        rw [eq] at reads
        obtain ⟨front, back, rfl, first, last⟩ := ih ended (reads.of_append whole)
          fun lead start other inner outer reads' =>
            uncut (found.text ++ lead) start other inner outer (whole.trans reads')
        exact ⟨.found found :: front, back, rfl, .found found_at size first, last⟩
      rcases List.append_eq_append_iff.1 (reads.rest_eq.symm.trans whole.rest_eq) with
        ⟨outer, eq, -⟩ | ⟨more, eq, -⟩
      · rcases uncut [] here found word outer (.refl _) found_at reads eq with rfl | rfl
        · rw [Cursor.Reads.nil_iff.1 reads]
          exact ⟨[], _, rfl, .nil, .found found_at size others⟩
        · exact within [] (by simp [eq])
      · exact within more eq

/-- A match at a place where no other one is cut in two is a piece of the text. -/
theorem Dissects.exists_piece (dissects : pattern.Dissects here pieces there)
    (ended : there.rest = []) (reads : here.Reads word middle) (uncut : pattern.Uncut here middle)
    (found_at : pattern.at? middle = some found) (size : found.text ≠ []) :
    ∃ front back, pieces = front ++ .found found :: back ∧ pattern.Dissects here front middle ∧
      pattern.Dissects found.stop back there := by
  obtain ⟨front, back, rfl, first, last⟩ := dissects.exists_parts ended reads uncut
  have some : found.whole.size ≠ 0 := by
    rw [size_of_at? found_at]
    exact fun empty => size (List.length_eq_zero_iff.1 empty)
  cases last with
  | nil => exact absurd (size_of_at?_end ended found_at) some
  | kept none => exact absurd (none found found_at) some
  | found other_at _ others =>
      obtain rfl := Option.some.inj (found_at.symm.trans other_at)
      exact ⟨front, _, rfl, first, others⟩

theorem Uncut.of_head {c : Char} (head : middle.rest.head? = some c)
    (h : ∀ lead start found inner outer, here.Reads lead start → pattern.at? start = some found →
      start.Reads inner middle → found.text = inner ++ c :: outer → inner = []) :
    pattern.Uncut here middle := by
  intro lead start found inner outer reads found_at reads' eq
  cases outer with
  | nil => exact .inr rfl
  | cons d outer =>
      have whole := (reads_of_at? found_at).rest_eq
      rw [eq, reads'.rest_eq, List.append_assoc, List.append_cancel_left_eq] at whole
      rw [whole] at head
      cases head
      exact .inl (h lead start found inner outer reads found_at reads' eq)

def Piece.rewritten (edit : Match → List Char) : Piece → List Char
  | .kept c => [c]
  | .found found => edit found

theorem replace_eq (pattern : Pattern) (edit : Match → List Char) (text : List Char) :
    pattern.replace edit text = (pattern.dissect text).flatMap (Piece.rewritten edit) :=
  rfl

/-- From one place to another, where no match is cut in two, a text becomes `out`. -/
def Rewrites (pattern : Pattern) (edit : Match → List Char) (here : Cursor) (out : List Char)
    (there : Cursor) : Prop :=
  ∃ pieces, pattern.Dissects here pieces there ∧ pieces.flatMap (Piece.rewritten edit) = out

theorem rewrites_replace (pattern : Pattern) (edit : Match → List Char) (text : List Char) :
    ∃ stop, pattern.Rewrites edit (.start text) (pattern.replace edit text) stop ∧
      stop.rest = [] := by
  obtain ⟨stop, dissects, ended⟩ := pattern.dissects text
  exact ⟨stop, ⟨_, dissects, (replace_eq pattern edit text).symm⟩, ended⟩

/-- Whether no match starts in a stretch of a text. -/
def Passes (pattern : Pattern) (here : Cursor) (word : List Char) : Prop :=
  ∀ lead middle, here.Reads lead middle → lead.length < word.length → pattern.at? middle = none

/-- No match starts where no character begins one. -/
theorem Passes.of_heads {isHead : Char → Bool}
    (heads : ∀ here found, pattern.at? here = some found → begins isHead here.rest = true)
    (reads : here.Reads word there) (others : ∀ c ∈ word, isHead c = false) :
    pattern.Passes here word := by
  intro lead middle reads' shorter
  obtain ⟨c, more, rfl, rest_eq⟩ := reads.exists_ahead reads' shorter
  rw [Option.eq_none_iff_forall_ne_some]
  intro found found_at
  have head := heads middle found found_at
  rw [rest_eq, begins, others c (by simp)] at head
  cases head

/-- A pattern that begins with a word starts with the first character of the word. -/
theorem head?_of_lit {text : String} {tail : Pattern} {c : Char}
    (first : text.toList.head? = some c) (here : Cursor) (found : Match)
    (found_at : (lit text ++ tail).at? here = some found) : here.rest.head? = some c := by
  obtain ⟨last, ends, -⟩ := exists_end_of_at? found_at
  obtain ⟨middle, starts, -⟩ := mem_ends_append.1 ends
  rw [(reads_of_lit starts).rest_eq, List.head?_append, first]
  rfl

/-- No match starts where a text goes on with another character than every match does. -/
theorem Passes.of_absent {c : Char}
    (heads : ∀ here found, pattern.at? here = some found → here.rest.head? = some c)
    (reads : here.Reads word there) (absent : c ∉ word) : pattern.Passes here word := by
  have begin (here : Cursor) (found : Match) (found_at : pattern.at? here = some found) :
      begins (· == c) here.rest = true := by
    obtain ⟨rest, eq⟩ := List.head?_eq_some_iff.1 (heads here found found_at)
    rw [eq, begins, beq_self_eq_true]
  exact of_heads begin reads fun d mem => beq_eq_false_iff_ne.2 fun same => absent (same ▸ mem)

/-- A stretch in which no match starts is kept. -/
theorem dissects_of_passes (reads : here.Reads word there) (passes : pattern.Passes here word) :
    pattern.Dissects here (word.map .kept) there := by
  induction word generalizing here with
  | nil =>
      rw [Cursor.Reads.nil_iff.1 reads]
      exact .nil
  | cons c word ih =>
      obtain ⟨before, offset, _ | ⟨d, rest⟩⟩ := here
      · exact absurd reads.nil_of_end (List.cons_ne_nil _ _)
      · obtain ⟨rfl, later⟩ := Cursor.Reads.cons_iff.1 reads
        have here_none := passes [] _ (.refl _) (Nat.zero_lt_succ _)
        refine .kept (fun found found_at => ?_) (ih later fun lead middle reads' shorter =>
          passes (d :: lead) middle (Cursor.Reads.cons_iff.2 ⟨rfl, reads'⟩)
            (Nat.succ_lt_succ shorter))
        rw [here_none] at found_at
        cases found_at

namespace Rewrites

theorem refl (here : Cursor) : pattern.Rewrites edit here [] here :=
  ⟨[], .nil, rfl⟩

theorem append {out' : List Char} (front : pattern.Rewrites edit here out middle)
    (back : pattern.Rewrites edit middle out' there) :
    pattern.Rewrites edit here (out ++ out') there := by
  obtain ⟨pieces, dissects, rfl⟩ := front
  obtain ⟨others, dissects', rfl⟩ := back
  exact ⟨pieces ++ others, dissects.append dissects', List.flatMap_append⟩

theorem of_at? (found_at : pattern.at? here = some found) (size : found.text ≠ []) :
    pattern.Rewrites edit here (edit found) found.stop := by
  refine ⟨[.found found], .found found_at ?_ .nil, List.append_nil _⟩
  rw [size_of_at? found_at]
  exact fun empty => size (List.length_eq_zero_iff.1 empty)

theorem of_passes (reads : here.Reads word there) (passes : pattern.Passes here word) :
    pattern.Rewrites edit here word there :=
  ⟨_, dissects_of_passes reads passes, by simp [List.flatMap_map, Piece.rewritten]⟩

theorem of_absent {c : Char}
    (heads : ∀ here found, pattern.at? here = some found → here.rest.head? = some c)
    (reads : here.Reads word there) (absent : c ∉ word) :
    pattern.Rewrites edit here word there :=
  of_passes reads (.of_absent heads reads absent)

/-- A text becomes something up to a character that no match holds. -/
theorem exists_upto (edit : Match → List Char) {stops : Char → Bool}
    (clean : ∀ here found, pattern.at? here = some found → ∀ c ∈ found.text, stops c = false)
    (reads : here.Reads word there) (stop : ∀ c ∈ there.rest.head?, stops c = true) :
    ∃ out, pattern.Rewrites edit here out there ∧
      ∀ c ∈ out, c ∈ word ∨ ∃ found, c ∈ edit found := by
  induction size : word.length using Nat.strongRecOn generalizing here word with
  | _ length ih =>
      by_cases start : ∃ found, pattern.at? here = some found ∧ found.text ≠ []
      · obtain ⟨found, found_at, some⟩ := start
        have whole := reads_of_at? found_at
        obtain ⟨more, rfl⟩ : found.text <+: word := by
          rcases List.append_eq_append_iff.1 (whole.rest_eq.symm.trans reads.rest_eq) with
            ⟨more, eq, -⟩ | ⟨_ | ⟨c, more⟩, eq, eq'⟩
          · exact ⟨more, eq.symm⟩
          · exact ⟨[], by rw [eq, List.append_nil]; simp⟩
          · have held := clean here found found_at c (by simp [eq])
            rw [stop c (by simp [eq'])] at held
            cases held
        have shorter : more.length < length := by
          rw [← size, List.length_append]
          exact Nat.lt_add_of_pos_left (List.length_pos_iff.2 some)
        obtain ⟨out, rewrites, made⟩ := ih more.length shorter (reads.of_append whole) rfl
        refine ⟨edit found ++ out, (of_at? found_at some).append rewrites, fun c mem => ?_⟩
        rcases List.mem_append.1 mem with mem | mem
        · exact .inr ⟨found, mem⟩
        · exact (made c mem).imp_left (List.mem_append_right _)
      · cases word with
        | nil =>
            rw [Cursor.Reads.nil_iff.1 reads]
            exact ⟨[], refl here, by simp⟩
        | cons c word =>
            obtain ⟨before, offset, _ | ⟨d, rest⟩⟩ := here
            · exact absurd reads.nil_of_end (List.cons_ne_nil _ _)
            · obtain ⟨rfl, later⟩ := Cursor.Reads.cons_iff.1 reads
              obtain ⟨out, ⟨pieces, dissects, rfl⟩, made⟩ :=
                ih word.length (by simp [← size]) later rfl
              refine ⟨d :: pieces.flatMap (Piece.rewritten edit),
                ⟨.kept d :: pieces, .kept (fun found found_at => ?_) dissects, rfl⟩,
                fun c mem => ?_⟩
              · rw [size_of_at? found_at, List.length_eq_zero_iff]
                exact Classical.byContradiction fun some => start ⟨found, found_at, some⟩
              · rcases List.mem_cons.1 mem with rfl | mem
                · exact .inl List.mem_cons_self
                · exact (made c mem).imp_left (List.mem_cons_of_mem _)

theorem replace_eq (h : pattern.Rewrites edit (.start text) out there) (ended : there.rest = []) :
    pattern.replace edit text = out := by
  obtain ⟨pieces, dissects, rfl⟩ := h
  obtain ⟨stop, dissects', ended'⟩ := pattern.dissects text
  rw [Pattern.replace_eq, dissects'.unique ended' dissects ended]

end Rewrites

def Piece.shift (c : Char) (n : Nat) : Piece → Piece
  | .kept d => .kept d
  | .found found => .found (found.shift c n)

theorem Dissects.shift {c : Char} {n : Nat} (ignored : pattern.ignores c = true)
    (h : pattern.Dissects here pieces there) :
    pattern.Dissects (here.shift c n) (pieces.map (Piece.shift c n)) (there.shift c n) := by
  induction h with
  | nil => exact .nil
  | @kept before d offset rest pieces there none others ih =>
      have past : (Cursor.past d offset rest).shift c n = .past d (offset + n) rest := by
        simp [Cursor.shift, Cursor.past, Nat.add_right_comm]
      rw [past] at ih
      refine .kept (fun found found_at => ?_) ih
      have moved_at : pattern.at? (Cursor.shift c n ⟨before, offset, d :: rest⟩) = some found :=
        found_at
      rw [at?_shift ignored, Option.map_eq_some_iff] at moved_at
      obtain ⟨found', found_at', rfl⟩ := moved_at
      exact none found' found_at'
  | found found_at size others ih =>
      exact .found (by rw [at?_shift ignored, found_at, Option.map_some]) size ih

theorem Rewrites.shift {c : Char} {n : Nat} (ignored : pattern.ignores c = true)
    (alike : ∀ found, edit (found.shift c n) = edit found)
    (h : pattern.Rewrites edit here out there) :
    pattern.Rewrites edit (here.shift c n) out (there.shift c n) := by
  obtain ⟨pieces, dissects, rfl⟩ := h
  refine ⟨_, dissects.shift ignored, ?_⟩
  rw [List.flatMap_map]
  congr 1
  funext piece
  cases piece with
  | kept d => rfl
  | found found => exact alike found

/-- Behind a stretch that is rewritten by itself, a text becomes what it becomes alone. -/
theorem replace_append_of_rewrites {front : List Char} {c : Char}
    (ignored : pattern.ignores c = true)
    (alike : ∀ found, edit (found.shift c (front.length + 1)) = edit found) {rest : List Char}
    (rewrites : pattern.Rewrites edit (.start (front ++ c :: rest)) out
      ((Cursor.start rest).shift c (front.length + 1))) :
    pattern.replace edit (front ++ c :: rest) = out ++ pattern.replace edit rest := by
  obtain ⟨stop, behind, ended⟩ := pattern.rewrites_replace edit rest
  exact (rewrites.append (behind.shift ignored alike)).replace_eq ended

/-- A stretch in which no match starts is left as it is, and what follows it becomes what it becomes
alone. -/
theorem replace_append {front : List Char} {c : Char}
    (ignored : pattern.ignores c = true)
    (alike : ∀ found, edit (found.shift c (front.length + 1)) = edit found)
    (rest : List Char) (passes : pattern.Passes (.start (front ++ c :: rest)) (front ++ [c])) :
    pattern.replace edit (front ++ c :: rest) = front ++ c :: pattern.replace edit rest := by
  rw [replace_append_of_rewrites ignored alike
    (.of_passes (Cursor.reads_shift front c rest) passes), List.append_assoc, List.singleton_append]

/-! ## The first match behind a stretch without one -/

theorem firstFrom?_of_passes (reads : here.Reads word middle) (passes : pattern.Passes here word) :
    pattern.firstFrom? here.before here.offset here.rest =
      pattern.firstFrom? middle.before middle.offset middle.rest := by
  induction word generalizing here with
  | nil => rw [Cursor.Reads.nil_iff.1 reads]
  | cons c word ih =>
      obtain ⟨before, offset, _ | ⟨d, rest⟩⟩ := here
      · exact absurd reads.nil_of_end (List.cons_ne_nil _ _)
      · obtain ⟨rfl, later⟩ := Cursor.Reads.cons_iff.1 reads
        have none := passes [] _ (.refl _) (Nat.zero_lt_succ _)
        rw [firstFrom?, none]
        exact ih later fun lead place reads' shorter =>
          passes (d :: lead) place (Cursor.Reads.cons_iff.2 ⟨rfl, reads'⟩)
            (Nat.succ_lt_succ shorter)

theorem firstFrom?_shift {c : Char} {n : Nat} (ignored : pattern.ignores c = true)
    (before : Option Char) (offset : Nat) (text : List Char) :
    pattern.firstFrom? (before.or (some c)) (offset + n) text =
      (pattern.firstFrom? before offset text).map (Match.shift c n) := by
  have at_place (text : List Char) (before : Option Char) (offset : Nat) :
      pattern.at? ⟨before.or (some c), offset + n, text⟩ =
        (pattern.at? ⟨before, offset, text⟩).map (Match.shift c n) :=
    at?_shift ignored ⟨before, offset, text⟩
  induction text generalizing before offset with
  | nil => exact at_place [] before offset
  | cons d text ih =>
      have later := ih (some d) (offset + 1)
      rw [Option.some_or, Nat.add_right_comm] at later
      rw [firstFrom?, firstFrom?, at_place]
      cases pattern.at? ⟨before, offset, d :: text⟩ with
      | none => exact later
      | some found => rfl

/-- Behind a stretch in which no match starts the first match is the same as alone. -/
theorem first?_append {front rest : List Char} {c : Char} (ignored : pattern.ignores c = true)
    (passes : pattern.Passes (.start (front ++ c :: rest)) (front ++ [c])) :
    pattern.first? (front ++ c :: rest) =
      (pattern.first? rest).map (Match.shift c (front.length + 1)) := by
  have reads := Cursor.reads_shift front c rest
  exact (firstFrom?_of_passes reads passes).trans (firstFrom?_shift ignored none 0 rest)

theorem first?_of_at? (h : pattern.at? (.start text) = some found) :
    pattern.first? text = some found := by
  cases text with
  | nil => exact h
  | cons c rest =>
      have start : pattern.at? ⟨none, 0, c :: rest⟩ = some found := h
      rw [first?, firstFrom?, start]

end Pattern

end ComponentPreview
