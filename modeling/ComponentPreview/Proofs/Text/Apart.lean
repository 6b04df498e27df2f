import ComponentPreview.Proofs.Text.Collect

/-!
# Texts on both sides of a character

A character that a pattern neither reads nor looks for is the end of a text to it. So the matches of
a text are those of the part before such a character and those of the part behind it
(`filterMap_findAll_apart`).
-/

namespace ComponentPreview

/-! ## The same place before other characters -/

namespace Cursor

/-- A place of a text as a place of the text with more behind it. -/
def extend (tail : List Char) (here : Cursor) : Cursor :=
  { here with rest := here.rest ++ tail }

variable {c : Char} {rest : List Char} {isIn : Char → Bool} {isEnd : List Char → Bool}

theorem skip?_extend {word : List Char} (absent : c ∉ word) (here : Cursor) :
    (here.extend (c :: rest)).skip? word = (here.skip? word).map (extend (c :: rest)) := by
  induction word generalizing here with
  | nil => rfl
  | cons w word ih =>
      obtain ⟨other, absent⟩ := not_or.1 (mt List.mem_cons.2 absent)
      match here with
      | ⟨before, offset, []⟩ => simp [skip?, extend, Ne.symm other]
      | ⟨before, offset, d :: text⟩ =>
          simp only [skip?, extend, List.cons_append]
          split
          · exact ih absent (past d offset text)
          · rfl

theorem stretch_go_extend (out : isIn c = false)
    (same : ∀ text, isEnd (text ++ c :: rest) = isEnd text) (before : Option Char) (offset : Nat)
    (seen : List Cursor) (text : List Char) :
    stretch.go isIn isEnd before offset (seen.map (extend (c :: rest))) (text ++ c :: rest) =
      (stretch.go isIn isEnd before offset seen text).map (extend (c :: rest)) := by
  induction text generalizing before offset seen with
  | nil =>
      have ended : isEnd (c :: rest) = isEnd [] := same []
      simp only [List.nil_append, stretch.go, out, ended, Bool.false_eq_true, if_false]
      split <;> rfl
  | cons d text ih =>
      have ended : isEnd (d :: (text ++ c :: rest)) = isEnd (d :: text) := same (d :: text)
      simp only [List.cons_append, stretch.go, ended]
      split <;> split
      · exact ih (some d) (offset + 1) (⟨before, offset, d :: text⟩ :: seen)
      · exact ih (some d) (offset + 1) seen
      · rfl
      · rfl

theorem precedes_extend (out : isIn c = false) (here : Cursor) :
    (here.extend (c :: rest)).precedes isIn = here.precedes isIn := by
  obtain ⟨before, offset, _ | ⟨d, text⟩⟩ := here
  · exact out
  · rfl

end Cursor

def Span.extend (tail : List Char) (span : Span) : Span :=
  { span with first := span.first.extend tail }

theorem Span.text_extend {span : Span} (within : span.size ≤ span.first.rest.length)
    (tail : List Char) : (span.extend tail).text = span.text :=
  List.take_append_of_le_length within

def Progress.extend (tail : List Char) (progress : Progress) : Progress :=
  ⟨progress.here.extend tail, progress.groups.map (Span.extend tail)⟩

namespace Pattern

variable {α : Type} {pattern : Pattern} {view : Match → Option α} {here there : Cursor}
  {pieces : List Piece} {found : Match} {shown : List α} {c : Char} {rest front : List Char}

def Match.extend (tail : List Char) (found : Match) : Match :=
  ⟨found.whole.extend tail, found.stop.extend tail, found.groups.map (Span.extend tail)⟩

def Piece.extend (tail : List Char) : Piece → Piece
  | .kept c => .kept c
  | .found found => .found (found.extend tail)

/-- Whether a pattern takes a character for the end of the text. -/
def StopsAt (c : Char) : Pattern → Prop
  | word text => c ∉ text
  | one isIn => isIn c = false
  | most isIn isEnd | few isIn isEnd =>
      isIn c = false ∧ ∀ text rest, isEnd (text ++ c :: rest) = isEnd text
  | both left right | either left right => left.StopsAt c ∧ right.StopsAt c
  | capture body | ahead body | notAhead body => body.StopsAt c
  | wordEdge => isWord c = false
  | nothing | lineStart | notAfter _ => True
  | repeated _ | lastEnd | textEnd => False

theorem stopsAt_every {isIn : Char → Bool} (out : isIn c = false) : (every isIn).StopsAt c := by
  refine ⟨out, fun text rest => ?_⟩
  cases text with
  | nil => simp [begins, out]
  | cons d text => rfl

theorem stopsAt_many {isIn : Char → Bool} (out : isIn c = false) : (many isIn).StopsAt c :=
  ⟨out, fun _ _ => rfl⟩

theorem ends_extend (stops : pattern.StopsAt c) (rest : List Char) (first : Progress) :
    pattern.ends (first.extend (c :: rest)) =
      (pattern.ends first).map (·.extend (c :: rest)) := by
  induction pattern generalizing first with
  | nothing => rfl
  | word text =>
      simp only [ends, Progress.extend, Cursor.skip?_extend stops]
      cases first.here.skip? text <;> rfl
  | one isIn =>
      rcases first with ⟨⟨before, offset, _ | ⟨d, text⟩⟩, groups⟩
      · change isIn c = false at stops
        simp [ends, Progress.extend, Cursor.extend, stops]
      · simp only [ends, Progress.extend, Cursor.extend, List.cons_append]
        split <;> rfl
  | most isIn isEnd =>
      have same := Cursor.stretch_go_extend stops.1 (fun text => stops.2 text rest)
        first.here.before first.here.offset [] first.here.rest
      simp only [ends, Cursor.stretch, Progress.extend, Cursor.extend, List.map_nil] at same ⊢
      rw [same, List.map_map, List.map_map]
      rfl
  | few isIn isEnd =>
      have same := Cursor.stretch_go_extend stops.1 (fun text => stops.2 text rest)
        first.here.before first.here.offset [] first.here.rest
      simp only [ends, Cursor.stretch, Progress.extend, Cursor.extend, List.map_nil] at same ⊢
      rw [same, ← List.map_reverse, List.map_map, List.map_map]
      rfl
  | both left right ihl ihr =>
      simp only [ends, ihl stops.1, List.flatMap_map, ihr stops.2, List.map_flatMap]
  | either left right ihl ihr => simp only [ends, ihl stops.1, ihr stops.2, List.map_append]
  | repeated | lastEnd | textEnd => exact absurd stops not_false
  | capture body ih =>
      simp only [ends, ih stops, List.map_map]
      refine List.map_congr_left fun later _ => ?_
      simp [Progress.extend, Span.between, Span.extend, Cursor.extend]
  | wordEdge =>
      have precedes : (first.extend (c :: rest)).here.precedes isWord =
          first.here.precedes isWord := Cursor.precedes_extend stops _
      have follows : (first.extend (c :: rest)).here.follows isWord =
          first.here.follows isWord := rfl
      simp only [ends, follows, precedes]
      split <;> rfl
  | lineStart | notAfter isIn =>
      rw [ends, ends, apply_ite (List.map _)]
      rfl
  | ahead body ih | notAhead body ih =>
      simp only [ends, ih stops, List.isEmpty_map]
      split <;> rfl

theorem at?_extend (stops : pattern.StopsAt c) (rest : List Char) (here : Cursor) :
    pattern.at? (here.extend (c :: rest)) = (pattern.at? here).map (·.extend (c :: rest)) := by
  have start : (⟨here.extend (c :: rest), []⟩ : Progress) =
      Progress.extend (c :: rest) ⟨here, []⟩ := rfl
  rw [at?_eq, at?_eq, start, ends_extend stops, List.head?_map, Option.map_map, Option.map_map]
  rfl

theorem Dissects.extend (stops : pattern.StopsAt c) (rest : List Char)
    (h : pattern.Dissects here pieces there) :
    pattern.Dissects (here.extend (c :: rest)) (pieces.map (Piece.extend (c :: rest)))
      (there.extend (c :: rest)) := by
  induction h with
  | nil => exact .nil
  | @kept before d offset text pieces there none others ih =>
      change pattern.Dissects ⟨before, offset, d :: (text ++ c :: rest)⟩ _ _
      refine .kept (fun found found_at => ?_) ih
      have longer_at : pattern.at? (Cursor.extend (c :: rest) ⟨before, offset, d :: text⟩) =
          some found := found_at
      rw [at?_extend stops, Option.map_eq_some_iff] at longer_at
      obtain ⟨found', found_at', rfl⟩ := longer_at
      exact none found' found_at'
  | @found here found pieces there found_at size others ih =>
      have longer_at : pattern.at? (here.extend (c :: rest)) = some (found.extend (c :: rest)) := by
        rw [at?_extend stops, found_at, Option.map_some]
      exact .found longer_at size ih

/-! ## What the matches capture -/

theorem Match.group_shift (found : Match) (c : Char) (n index : Nat) :
    (found.shift c n).group index = found.group index := by
  simp only [Match.group, Match.shift, List.getElem?_map]
  cases found.groups[index]? <;> rfl

theorem group_extend (h : pattern.at? here = some found) (tail : List Char) (index : Nat) :
    (found.extend tail).group index = found.group index := by
  obtain ⟨last, ends, rfl⟩ := exists_end_of_at? h
  have within := size_le_of_mem_ends ends (List.forall_mem_nil _)
  simp only [Match.group, Match.extend, Progress.toMatch, List.getElem?_map]
  cases eq : last.groups[index]? with
  | none => rfl
  | some span => exact Span.text_extend (within span (List.mem_of_getElem? eq)) tail

theorem Dissects.exists_reads (h : pattern.Dissects here pieces there) :
    ∃ word, here.Reads word there := by
  induction h with
  | nil => exact ⟨[], .refl _⟩
  | kept none others ih =>
      obtain ⟨word, reads⟩ := ih
      exact ⟨_ :: word, Cursor.Reads.cons_iff.2 ⟨rfl, reads⟩⟩
  | found found_at size others ih =>
      obtain ⟨word, reads⟩ := ih
      exact ⟨_, (reads_of_at? found_at).trans reads⟩

namespace Collects

theorem shift {n : Nat} (ignored : pattern.ignores c = true)
    (alike : ∀ found, view (found.shift c n) = view found)
    (h : pattern.Collects view here shown there) :
    pattern.Collects view (here.shift c n) shown (there.shift c n) := by
  obtain ⟨pieces, dissects, rfl⟩ := h
  refine ⟨_, dissects.shift ignored, ?_⟩
  rw [List.filterMap_map]
  congr 1
  funext piece
  cases piece with
  | kept d => rfl
  | found found => exact alike found

theorem extend (stops : pattern.StopsAt c) {rest : List Char}
    (alike : ∀ here found, pattern.at? here = some found →
      view (found.extend (c :: rest)) = view found)
    (h : pattern.Collects view here shown there) :
    pattern.Collects view (here.extend (c :: rest)) shown (there.extend (c :: rest)) := by
  obtain ⟨pieces, dissects, rfl⟩ := h
  refine ⟨_, dissects.extend stops rest, ?_⟩
  induction dissects with
  | nil => rfl
  | kept none others ih => exact ih
  | @found here found pieces there found_at size others ih =>
      have same : view (found.extend (c :: rest)) = view found := alike here found found_at
      simp only [List.map_cons, List.filterMap_cons, Piece.extend, Piece.viewed, same, ih]

end Collects

/-- Behind a stretch whose matches show something, the matches show what they show alone. -/
theorem filterMap_findAll_append (ignored : pattern.ignores c = true)
    (alike : ∀ found, view (found.shift c (front.length + 1)) = view found)
    (collects : pattern.Collects view (.start (front ++ c :: rest)) shown
      ((Cursor.start rest).shift c (front.length + 1))) :
    (pattern.findAll (front ++ c :: rest)).filterMap view =
      shown ++ (pattern.findAll rest).filterMap view := by
  obtain ⟨stop, dissects, ended⟩ := pattern.dissects rest
  have behind : pattern.Collects view (.start rest) ((pattern.findAll rest).filterMap view) stop :=
    ⟨_, dissects, (filterMap_findAll pattern view rest).symm⟩
  exact (collects.append (behind.shift ignored alike)).filterMap_eq ended

/-- The matches on both sides of a character that the pattern stops at show what they show alone. -/
theorem filterMap_findAll_apart (stops : pattern.StopsAt c) (ignored : pattern.ignores c = true)
    (alike : ∀ found, view (found.shift c (front.length + 1)) = view found)
    (alike' : ∀ here found, pattern.at? here = some found →
      view (found.extend (c :: rest)) = view found) :
    (pattern.findAll (front ++ c :: rest)).filterMap view =
      (pattern.findAll front).filterMap view ++ (pattern.findAll rest).filterMap view := by
  obtain ⟨stop, dissects, ended⟩ := pattern.dissects front
  have first : pattern.Collects view (.start front) ((pattern.findAll front).filterMap view) stop :=
    ⟨_, dissects, (filterMap_findAll pattern view front).symm⟩
  obtain ⟨word, reads⟩ := dissects.exists_reads
  obtain rfl : front = word := by
    have rest_eq := reads.rest_eq
    rwa [ended, List.append_nil] at rest_eq
  have stop_eq : stop.extend (c :: rest) = ⟨front.getLast?, front.length, c :: rest⟩ := by
    rw [Cursor.extend, ended, reads.before_eq, reads.offset_eq, Cursor.start, Option.or_none,
      Nat.zero_add, List.nil_append]
  -- No match starts with the character itself: to the pattern that is the end of the text.
  have between : pattern.Collects view (stop.extend (c :: rest)) []
      ((Cursor.start rest).shift c (front.length + 1)) := by
    refine ⟨[.kept c], ?_, rfl⟩
    have past : (Cursor.start rest).shift c (front.length + 1) = .past c front.length rest := by
      simp [Cursor.shift, Cursor.start, Cursor.past]
    rw [stop_eq, past]
    refine .kept (fun found found_at => ?_) .nil
    rw [← stop_eq, at?_extend stops, Option.map_eq_some_iff] at found_at
    obtain ⟨found', found_at', rfl⟩ := found_at
    have none := size_of_at?_end ended found_at'
    exact none
  have whole := (first.extend stops alike').append between
  rw [List.append_nil] at whole
  exact filterMap_findAll_append ignored alike whole

/-! ## What the matches capture first -/

def firstGroup (found : Match) : Option (List Char) :=
  some (found.group 0)

def groupTexts (pattern : Pattern) (text : List Char) : List (List Char) :=
  (pattern.findAll text).map fun found => found.group 0

theorem groupTexts_eq (pattern : Pattern) (text : List Char) :
    pattern.groupTexts text = (pattern.findAll text).filterMap firstGroup :=
  (congrFun List.filterMap_eq_map _).symm

theorem firstGroup_shift (found : Match) (c : Char) (n : Nat) :
    firstGroup (found.shift c n) = firstGroup found :=
  congrArg some (found.group_shift c n 0)

theorem groupTexts_append (ignored : pattern.ignores c = true)
    (passes : pattern.Passes (.start (front ++ c :: rest)) (front ++ [c])) :
    pattern.groupTexts (front ++ c :: rest) = pattern.groupTexts rest := by
  rw [groupTexts_eq, groupTexts_eq, filterMap_findAll_append ignored
    (fun found => firstGroup_shift found c _)
    (.of_passes (Cursor.reads_shift front c rest) passes), List.nil_append]

theorem groupTexts_apart (stops : pattern.StopsAt c) (ignored : pattern.ignores c = true) :
    pattern.groupTexts (front ++ c :: rest) =
      pattern.groupTexts front ++ pattern.groupTexts rest := by
  simp only [groupTexts_eq]
  exact filterMap_findAll_apart stops ignored (fun found => firstGroup_shift found c _)
    fun here found found_at => congrArg some (group_extend found_at _ 0)

end Pattern

end ComponentPreview
