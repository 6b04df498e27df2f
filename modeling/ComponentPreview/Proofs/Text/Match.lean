import ComponentPreview.Proofs.Text.Ends

/-!
# Matches

A match starts at a place of the text and ends at the first end that its pattern has there. A
pattern occurs in a text if it has an end at some place.
-/

namespace ComponentPreview

def Progress.toMatch (last : Progress) (here : Cursor) : Pattern.Match :=
  ⟨Span.between here last.here, last.here, last.groups⟩

namespace Pattern

variable {pattern : Pattern} {here : Cursor} {found : Match}

theorem at?_eq (pattern : Pattern) (here : Cursor) :
    pattern.at? here = (pattern.ends ⟨here, []⟩).head?.map (·.toMatch here) := by
  rw [at?, run_eq]
  cases pattern.ends ⟨here, []⟩ <;> rfl

theorem exists_end_of_at? (h : pattern.at? here = some found) :
    ∃ last ∈ pattern.ends ⟨here, []⟩, found = last.toMatch here := by
  rw [at?_eq, Option.map_eq_some_iff] at h
  obtain ⟨last, first, rfl⟩ := h
  exact ⟨last, List.mem_of_head? first, rfl⟩

/-- What a pattern captures first is read at the start of what it describes. -/
theorem group_of_mem_ends {body tail : Pattern} {first last : Progress} (start : Cursor)
    (plain : body.isPlain = true) (none : first.groups = [])
    (h : last ∈ (capture body ++ tail).ends first) :
    ∃ inner ∈ body.ends first, first.here.Reads ((last.toMatch start).group 0) inner.here ∧
      last ∈ tail.ends ⟨inner.here, [Span.between first.here inner.here]⟩ := by
  obtain ⟨closed, captured, rest⟩ := mem_ends_append.1 h
  obtain ⟨inner, ends, rfl⟩ := mem_ends_capture.1 captured
  rw [groups_of_isPlain plain ends, none, List.nil_append] at rest
  obtain ⟨more, groups⟩ := groups_of_mem_ends rest
  obtain ⟨word, reads⟩ := reads_of_mem_ends ends
  have group : (last.toMatch start).group 0 = word := by
    simp [Match.group, Progress.toMatch, groups, reads.text_between]
  exact ⟨inner, ends, group ▸ reads, rest⟩

theorem reads_of_lit {text : String} {first last : Progress} (h : last ∈ (lit text).ends first) :
    first.here.Reads text.toList last.here := by
  obtain ⟨there, reads, rfl⟩ := mem_ends_lit.1 h
  exact reads

theorem isSome_at? : (pattern.at? here).isSome = true ↔ ∃ last, last ∈ pattern.ends ⟨here, []⟩ := by
  rw [at?_eq]
  cases pattern.ends ⟨here, []⟩ <;> simp

theorem at?_of_firstFrom? {before : Option Char} {offset : Nat} {text : List Char}
    (h : pattern.firstFrom? before offset text = some found) :
    ∃ word here, Cursor.Reads ⟨before, offset, text⟩ word here ∧ pattern.at? here = some found := by
  induction text generalizing before offset with
  | nil => exact ⟨[], _, .refl _, h⟩
  | cons c rest ih =>
      rw [firstFrom?] at h
      split at h
      · next here_found =>
          cases h
          exact ⟨[], _, .refl _, here_found⟩
      · obtain ⟨word, here, reads, found_at⟩ := ih h
        exact ⟨c :: word, here, Cursor.Reads.cons_iff.2 ⟨rfl, reads⟩, found_at⟩

theorem isSome_firstFrom? {before : Option Char} {offset : Nat} {text : List Char} :
    (pattern.firstFrom? before offset text).isSome = true ↔
      ∃ word here, Cursor.Reads ⟨before, offset, text⟩ word here ∧
        (pattern.at? here).isSome = true := by
  constructor
  · intro h
    obtain ⟨found, first⟩ := Option.isSome_iff_exists.1 h
    obtain ⟨word, here, reads, found_at⟩ := at?_of_firstFrom? first
    exact ⟨word, here, reads, Option.isSome_iff_exists.2 ⟨found, found_at⟩⟩
  · rintro ⟨word, here, reads, h⟩
    induction text generalizing before offset word with
    | nil =>
        obtain rfl := reads.nil_of_end
        rwa [firstFrom?, ← Cursor.Reads.nil_iff.1 reads]
    | cons c rest ih =>
        rw [firstFrom?]
        split
        · rfl
        · next missing =>
            cases word with
            | nil =>
                rw [Cursor.Reads.nil_iff.1 reads, missing] at h
                cases h
            | cons d word =>
                obtain ⟨rfl, later⟩ := Cursor.Reads.cons_iff.1 reads
                exact ih word later

/-- The first match starts at the leftmost place where the pattern fits. -/
theorem leftmost_of_firstFrom? {before : Option Char} {offset : Nat} {text : List Char}
    (h : pattern.firstFrom? before offset text = some found) :
    ∃ word here, Cursor.Reads ⟨before, offset, text⟩ word here ∧ pattern.at? here = some found ∧
      ∀ word' here', Cursor.Reads ⟨before, offset, text⟩ word' here' →
        word'.length < word.length → pattern.at? here' = none := by
  induction text generalizing before offset with
  | nil => exact ⟨[], _, .refl _, h, fun word' _ _ shorter => absurd shorter (by simp)⟩
  | cons c rest ih =>
      rw [firstFrom?] at h
      split at h
      · next here_found =>
          cases h
          exact ⟨[], _, .refl _, here_found, fun word' _ _ shorter => absurd shorter (by simp)⟩
      · next missing =>
          obtain ⟨word, here, reads, found_at, leftmost⟩ := ih h
          refine ⟨c :: word, here, Cursor.Reads.cons_iff.2 ⟨rfl, reads⟩, found_at, ?_⟩
          intro word' here' reads' shorter
          cases word' with
          | nil => rw [Cursor.Reads.nil_iff.1 reads', missing]
          | cons d word' =>
              obtain ⟨rfl, later⟩ := Cursor.Reads.cons_iff.1 reads'
              exact leftmost word' here' later (Nat.lt_of_succ_lt_succ shorter)

theorem first?_eq_none_iff {text : List Char} :
    pattern.first? text = none ↔
      ∀ word here, (Cursor.start text).Reads word here → pattern.at? here = none := by
  rw [← Option.not_isSome_iff_eq_none, first?, isSome_firstFrom?]
  simp [Cursor.start]

theorem occursIn_iff {text : List Char} :
    pattern.occursIn text = true ↔
      ∃ word here last, (Cursor.start text).Reads word here ∧ last ∈ pattern.ends ⟨here, []⟩ := by
  rw [occursIn, first?, isSome_firstFrom?]
  simp only [isSome_at?, Cursor.start, ← exists_and_left]

theorem at?_of_mem_dissectFrom {skip : Nat} {before : Option Char} {offset : Nat}
    {done : List Piece} {text : List Char}
    (h : .found found ∈ pattern.dissectFrom skip before offset done text) :
    .found found ∈ done ∨
      ∃ word here, Cursor.Reads ⟨before, offset, text⟩ word here ∧
        pattern.at? here = some found := by
  induction text generalizing skip before offset done with
  | nil =>
      rw [dissectFrom, List.mem_reverse] at h
      exact .inl h
  | cons c rest ih =>
      have step : ∀ {skip : Nat} {done' : List Piece},
          .found found ∈ pattern.dissectFrom skip (some c) (offset + 1) done' rest →
          (.found found ∈ done' → .found found ∈ done ∨ pattern.at? ⟨before, offset, c :: rest⟩ =
            some found) →
          .found found ∈ done ∨ ∃ word here, Cursor.Reads ⟨before, offset, c :: rest⟩ word here ∧
            pattern.at? here = some found := by
        intro skip done' h old
        rcases ih h with given | ⟨word, here, reads, found_at⟩
        · rcases old given with given | found_at
          · exact .inl given
          · exact .inr ⟨[], _, .refl _, found_at⟩
        · exact .inr ⟨c :: word, here, Cursor.Reads.cons_iff.2 ⟨rfl, reads⟩, found_at⟩
      cases skip with
      | succ skip => exact step h .inl
      | zero =>
          simp only [dissectFrom] at h
          split at h
          · next other found_at =>
              split at h
              · refine step h ?_
                rintro (_ | ⟨_, given⟩)
                exact .inl given
              · refine step h ?_
                rintro (_ | ⟨_, given⟩)
                · exact .inr found_at
                · exact .inl given
          · refine step h ?_
            rintro (_ | ⟨_, given⟩)
            exact .inl given

theorem at?_of_mem_findAll {text : List Char} (h : found ∈ pattern.findAll text) :
    ∃ word here, (Cursor.start text).Reads word here ∧ pattern.at? here = some found := by
  rw [findAll, List.mem_filterMap] at h
  obtain ⟨piece, mem, eq⟩ := h
  cases piece with
  | kept c => cases eq
  | found other =>
      cases eq
      exact (at?_of_mem_dissectFrom mem).resolve_left List.not_mem_nil

end Pattern

end ComponentPreview
