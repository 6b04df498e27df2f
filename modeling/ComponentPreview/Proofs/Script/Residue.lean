import ComponentPreview.Proofs.Script.Step
import ComponentPreview.Proofs.Text.Absence

/-!
# What an erasure leaves

One pass over a text takes the matches away and does not look at what it leaves. A token that is
found in what is left begins right behind something that was taken away, or reaches over it
(`joins_of_occursIn`).
-/

namespace ComponentPreview

namespace Edit

variable {edit : List Change} {token : Token}

/-- The edit brings the token where it changed something: at the start of the token or within. -/
def Joins (edit : List Change) (token : Token) : Prop :=
  ∃ left word right, after edit = left ++ (word ++ right) ∧ token.FitsAt left word right ∧
    ∃ first old new last, edit = first ++ .put old new :: last ∧
      left.length ≤ (after first).length + new.length ∧
      (after first).length < left.length + word.length

theorem Joins.occursIn (joins : Joins edit token) : token.OccursIn (after edit) := by
  obtain ⟨left, word, right, eq, fits, -⟩ := joins
  exact ⟨left, word, right, eq, fits⟩

/-- A token that an edit does not bring stands between kept characters. -/
theorem joins_or_kept (some : ∀ word, token.reads word → word ≠ [])
    (h : token.OccursIn (after edit)) :
    Joins edit token ∨
      ∃ first word last, edit = first ++ (keepAll word ++ last) ∧
        token.FitsAt (after first) word (after last) ∧
        (first = [] ∨ ∃ others c, first = others ++ [.keep c]) := by
  obtain ⟨left, word, right, eq, fits⟩ := h
  have long := List.length_pos_iff.2 (some word fits.reads)
  rcases carries_or_crosses eq with ⟨first, last, rfl, rfl, rfl⟩ |
    ⟨first, old, new, last, parts, low, high⟩
  · rcases List.eq_nil_or_concat first with rfl | ⟨others, change, rfl⟩
    · exact .inr ⟨[], word, last, rfl, fits, .inl rfl⟩
    · rw [List.concat_eq_append] at fits eq ⊢
      cases change with
      | keep c => exact .inr ⟨_, word, last, rfl, fits, .inr ⟨others, c, rfl⟩⟩
      | put old new =>
          refine .inl
            ⟨_, word, _, eq, fits, others, old, new, keepAll word ++ last, by simp, ?_, ?_⟩
          · simp [Change.after]
          · simp only [after_append, after_cons, after_nil, Change.after, List.append_nil,
              List.length_append]
            omega
  · exact .inl ⟨left, word, right, eq, fits, first, old, new, last, parts, by omega, high⟩

/-- A token that an edit does not bring was there before. -/
theorem joins_or_occursIn (some : ∀ word, token.reads word → word ≠ [])
    (free : ∀ next, token.precedes next) (h : token.OccursIn (after edit)) :
    Joins edit token ∨ token.OccursIn (before edit) := by
  refine (joins_or_kept some h).imp_right ?_
  rintro ⟨first, word, last, rfl, fits, lead⟩
  refine ⟨before first, word, before last, by simp, ?_, fits.reads, free _⟩
  rcases lead with rfl | ⟨others, c, rfl⟩
  · exact fits.follows
  · simpa [Change.before, Change.after] using fits.follows

end Edit

namespace Pattern

open Edit

variable {pattern : Pattern} {changes : Match → List Change} {here there : Cursor}
  {pieces : List Piece} {first last : List Change}

/-- A character that an edit keeps stands where no match starts. -/
theorem Dissects.exists_kept (dissects : pattern.Dissects here pieces there) {c : Char}
    (drops : ∀ found, .keep c ∉ changes found)
    (h : editPieces changes pieces = first ++ .keep c :: last) :
    ∃ front middle back, pattern.Dissects here front middle ∧
      pattern.Dissects middle (.kept c :: back) there ∧ editPieces changes front = first ∧
      editPieces changes back = last := by
  induction dissects generalizing first with
  | nil => simp [editPieces] at h
  | @kept before d offset rest pieces there none others ih =>
      cases first with
      | nil =>
          obtain ⟨same, rfl⟩ := List.cons.inj h
          cases same
          exact ⟨[], _, pieces, .nil, .kept none others, rfl, rfl⟩
      | cons change first =>
          obtain ⟨rfl, eq⟩ := List.cons.inj h
          obtain ⟨front, middle, back, lead, trail, rfl, same⟩ := ih eq
          exact ⟨.kept d :: front, middle, back, .kept none lead, trail, rfl, same⟩
  | @found here found pieces there found_at size others ih =>
      rw [editPieces_cons, editPiece] at h
      rcases List.append_eq_append_iff.1 h with ⟨more, rfl, eq⟩ | ⟨more, eq, eq'⟩
      · obtain ⟨front, middle, back, lead, trail, rfl, same⟩ := ih eq
        exact ⟨.found found :: front, middle, back, .found found_at size lead, trail, rfl, same⟩
      · cases more with
        | nil =>
            have next : editPieces changes pieces = [] ++ .keep c :: last := eq'.symm
            obtain ⟨front, middle, back, lead, trail, none, same⟩ := ih next
            refine ⟨.found found :: front, middle, back, .found found_at size lead, trail, ?_, same⟩
            rw [editPieces_cons, none, editPiece, eq, List.append_nil, List.append_nil]
        | cons change more =>
            obtain ⟨rfl, -⟩ := List.cons.inj eq'
            exact absurd (by simp [eq]) (drops found)

theorem Dissects.stop_eq (dissects : pattern.Dissects here pieces there)
    (covers : pattern.Covers changes) (none : editPieces changes pieces = []) : there = here := by
  have reads := dissects.reads covers
  rw [none] at reads
  exact Cursor.Reads.nil_iff.1 reads

/-- Before a place of an edit stands the character that was kept last, if nothing was put since. -/
theorem Dissects.before_of_kept (dissects : pattern.Dissects here pieces there) {c : Char}
    (covers : pattern.Covers changes) (drops : ∀ found, .keep c ∉ changes found)
    (h : editPieces changes pieces = first ++ [.keep c]) : there.before = some c := by
  obtain ⟨front, middle, back, -, trail, -, none⟩ := dissects.exists_kept drops h
  cases trail with
  | kept alone others =>
      rw [others.stop_eq covers none]
      rfl

/-- What a pattern finds in the text that its own erasure leaves was brought by the erasure. -/
theorem joins_of_occursIn {token : Token}
    (h : ∀ here : Cursor, (∃ last, last ∈ pattern.ends ⟨here, []⟩) ↔
      ∃ word rest, here.rest = word ++ rest ∧ token.follows here.before ∧ token.reads word ∧
        token.precedes rest.head?)
    (some : ∀ word, token.reads word → word ≠ []) (free : ∀ next, token.precedes next)
    (size : ∀ here (found : Match), pattern.at? here = .some found → found.whole.size ≠ 0)
    {text : List Char} (occurs : token.OccursIn (after (pattern.edit Pass.dropMatch text))) :
    Joins (pattern.edit Pass.dropMatch text) token := by
  refine (joins_or_kept some occurs).resolve_right ?_
  rintro ⟨first, word, last, parts, fits, lead⟩
  obtain ⟨c, others, rfl⟩ := List.exists_cons_of_ne_nil (some word fits.reads)
  have covers := Pass.covers_dropMatch pattern
  have drops (c : Char) (found : Match) : .keep c ∉ Pass.dropMatch found := by
    simp [Pass.dropMatch]
  obtain ⟨stop, dissects, ended⟩ := pattern.dissects text
  obtain ⟨front, middle, back, leads, trails, rfl, rest⟩ := dissects.exists_kept (drops c) parts
  have previous : middle.before = (after (editPieces Pass.dropMatch front)).getLast? := by
    rcases lead with none | ⟨others, d, kept⟩
    · rw [leads.stop_eq covers none, none]
      rfl
    · rw [leads.before_of_kept covers (drops d) kept, kept]
      simp [Change.after]
  have rest_eq : middle.rest = (c :: others) ++ before last := by
    have reads := (trails.reads covers).rest_eq
    change editPieces Pass.dropMatch back = keepAll others ++ last at rest
    rw [ended, List.append_nil, editPieces_cons, rest] at reads
    rw [reads]
    simp [editPiece, Change.before]
  obtain ⟨found, found_at⟩ := Option.isSome_iff_exists.1 <| isSome_at?.2 <| (h middle).2
    ⟨c :: others, before last, rest_eq, previous ▸ fits.follows, fits.reads, free _⟩
  cases trails with
  | kept none others => exact size _ found found_at (none found found_at)

end Pattern

end ComponentPreview
