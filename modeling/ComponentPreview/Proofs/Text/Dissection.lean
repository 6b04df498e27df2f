import ComponentPreview.Proofs.Text.Edit

/-!
# Dissections

A text is taken apart into characters at which no match starts and matches that follow one another.
Replacing the matches is an edit that keeps the characters between them.
-/

namespace ComponentPreview

namespace Pattern

variable {pattern : Pattern} {here there : Cursor} {pieces : List Piece} {found : Match}

/-- The text from one place to another, taken apart. -/
inductive Dissects (pattern : Pattern) : Cursor → List Piece → Cursor → Prop
  | nil {here : Cursor} : Dissects pattern here [] here
  | kept {before : Option Char} {c : Char} {offset : Nat} {rest : List Char} {pieces : List Piece}
      {there : Cursor} (none : ∀ found, pattern.at? ⟨before, offset, c :: rest⟩ = some found →
        found.whole.size = 0)
      (others : Dissects pattern (.past c offset rest) pieces there) :
      Dissects pattern ⟨before, offset, c :: rest⟩ (.kept c :: pieces) there
  | found {here : Cursor} {found : Match} {pieces : List Piece} {there : Cursor}
      (found_at : pattern.at? here = some found) (size : found.whole.size ≠ 0)
      (others : Dissects pattern found.stop pieces there) :
      Dissects pattern here (.found found :: pieces) there

theorem reads_of_at? (h : pattern.at? here = some found) : here.Reads found.text found.stop := by
  obtain ⟨last, ends, rfl⟩ := exists_end_of_at? h
  obtain ⟨word, reads⟩ := reads_of_mem_ends ends
  change here.Reads (Span.between here last.here).text last.here
  rwa [reads.text_between]

theorem size_of_at? (h : pattern.at? here = some found) :
    found.whole.size = found.text.length := by
  obtain ⟨last, ends, rfl⟩ := exists_end_of_at? h
  obtain ⟨word, reads⟩ := reads_of_mem_ends ends
  change last.here.offset - here.offset = (Span.between here last.here).text.length
  rw [reads.text_between, reads.size_eq]

theorem dissectFrom_eq {skip : Nat} {before : Option Char} {offset : Nat} (done : List Piece)
    {text word : List Char} (reads : Cursor.Reads ⟨before, offset, text⟩ word there)
    (length : word.length = skip) :
    ∃ pieces stop, pattern.dissectFrom skip before offset done text = done.reverse ++ pieces ∧
      pattern.Dissects there pieces stop ∧ stop.rest = [] := by
  induction text generalizing skip before offset done word there with
  | nil =>
      obtain rfl := reads.nil_of_end
      rw [Cursor.Reads.nil_iff.1 reads]
      exact ⟨[], _, (List.append_nil _).symm, .nil, rfl⟩
  | cons c rest ih =>
      cases word with
      | cons d word =>
          obtain ⟨rfl, onward⟩ := Cursor.Reads.cons_iff.1 reads
          subst length
          exact ih done onward rfl
      | nil =>
          subst length
          obtain rfl := Cursor.Reads.nil_iff.1 reads
          have onward : Cursor.Reads (.past c offset rest) [] (.past c offset rest) := .refl _
          have keep : (∀ found, pattern.at? ⟨before, offset, c :: rest⟩ = some found →
              found.whole.size = 0) → ∃ pieces stop,
              pattern.dissectFrom 0 (some c) (offset + 1) (.kept c :: done) rest =
                done.reverse ++ pieces ∧ pattern.Dissects ⟨before, offset, c :: rest⟩ pieces stop ∧
              stop.rest = [] := by
            intro none
            obtain ⟨pieces, stop, eq, dissects, ended⟩ := ih (.kept c :: done) onward rfl
            exact ⟨.kept c :: pieces, stop, by simpa using eq, .kept none dissects, ended⟩
          simp only [List.length_nil, dissectFrom]
          split
          · next found found_at =>
              split
              · next empty =>
                  refine keep fun other other_at => ?_
                  rw [found_at, Option.some.injEq] at other_at
                  rw [← other_at, empty]
              · next size =>
                  have whole := reads_of_at? found_at
                  have length := size_of_at? found_at
                  cases stretch : found.text with
                  | nil =>
                      rw [stretch] at length
                      exact absurd length size
                  | cons d stretch' =>
                      rw [stretch] at whole length
                      have later := (Cursor.Reads.cons_iff.1 whole).2
                      obtain ⟨pieces, stop, eq, dissects, ended⟩ :=
                        ih (.found found :: done) later rfl
                      refine ⟨.found found :: pieces, stop, ?_, .found found_at size dissects,
                        ended⟩
                      rw [length]
                      simpa using eq
          · next missing =>
              refine keep fun other other_at => ?_
              rw [missing] at other_at
              cases other_at

theorem dissects (pattern : Pattern) (text : List Char) :
    ∃ stop, pattern.Dissects (.start text) (pattern.dissect text) stop ∧ stop.rest = [] := by
  obtain ⟨pieces, stop, eq, dissects, ended⟩ :=
    pattern.dissectFrom_eq [] (.refl (.start text)) rfl
  rw [dissect, show pattern.dissectFrom 0 none 0 [] text = pieces from eq]
  exact ⟨stop, dissects, ended⟩

theorem Dissects.exists_middle {front back : List Piece}
    (h : pattern.Dissects here (front ++ back) there) :
    ∃ middle, pattern.Dissects here front middle ∧ pattern.Dissects middle back there := by
  induction front generalizing here with
  | nil => exact ⟨here, .nil, h⟩
  | cons piece front ih =>
      cases h with
      | kept none others =>
          obtain ⟨middle, first, last⟩ := ih others
          exact ⟨middle, .kept none first, last⟩
      | found found_at size others =>
          obtain ⟨middle, first, last⟩ := ih others
          exact ⟨middle, .found found_at size first, last⟩

/-! ## Replacing as an edit -/

def editPiece (changes : Match → List Change) : Piece → List Change
  | .kept c => [.keep c]
  | .found found => changes found

def editPieces (changes : Match → List Change) (pieces : List Piece) : List Change :=
  pieces.flatMap (editPiece changes)

/-- The edit that changes the matches of a text and keeps what is between them. -/
def edit (pattern : Pattern) (changes : Match → List Change) (text : List Char) : List Change :=
  editPieces changes (pattern.dissect text)

variable {changes : Match → List Change}

@[simp] theorem editPieces_cons (piece : Piece) (pieces : List Piece) :
    editPieces changes (piece :: pieces) = editPiece changes piece ++ editPieces changes pieces :=
  List.flatMap_cons

@[simp] theorem editPieces_append (front back : List Piece) :
    editPieces changes (front ++ back) = editPieces changes front ++ editPieces changes back :=
  List.flatMap_append

theorem after_edit {change : Match → List Char}
    (h : ∀ found, Edit.after (changes found) = change found) (text : List Char) :
    Edit.after (pattern.edit changes text) = pattern.replace change text := by
  rw [Edit.after, edit, editPieces, replace, List.flatMap_assoc]
  congr 1
  funext piece
  cases piece with
  | kept c => rfl
  | found found => exact h found

def Covers (pattern : Pattern) (changes : Match → List Change) : Prop :=
  ∀ here found, pattern.at? here = some found → Edit.before (changes found) = found.text

theorem Dissects.reads (dissects : pattern.Dissects here pieces there)
    (covers : pattern.Covers changes) :
    here.Reads (Edit.before (editPieces changes pieces)) there := by
  induction dissects with
  | nil => exact .refl _
  | kept none others ih => exact Cursor.Reads.cons_iff.2 ⟨rfl, ih⟩
  | found found_at size others ih =>
      rw [editPieces_cons, Edit.before_append, editPiece, covers _ _ found_at]
      exact (reads_of_at? found_at).trans ih

theorem before_edit (covers : pattern.Covers changes) (text : List Char) :
    Edit.before (pattern.edit changes text) = text := by
  obtain ⟨stop, dissects, ended⟩ := pattern.dissects text
  have rest_eq := (dissects.reads covers).rest_eq
  rw [ended, List.append_nil] at rest_eq
  exact rest_eq.symm

/-- Each change that puts something belongs to one match. -/
theorem Dissects.exists_found (dissects : pattern.Dissects here pieces there)
    {first last : List Change} {old new : List Char}
    (h : editPieces changes pieces = first ++ .put old new :: last) :
    ∃ front found back start head tail, pattern.Dissects here front start ∧
      pattern.at? start = some found ∧ pattern.Dissects found.stop back there ∧
      changes found = head ++ .put old new :: tail ∧
      first = editPieces changes front ++ head ∧ last = tail ++ editPieces changes back := by
  induction dissects generalizing first with
  | nil => simp [editPieces] at h
  | @kept before c offset rest pieces there none others ih =>
      cases first with
      | nil => cases h
      | cons change first =>
          obtain ⟨rfl, eq⟩ := List.cons.inj h
          obtain ⟨front, found, back, start, head, tail, lead, found_at, trail, parts, rfl, rfl⟩ :=
            ih eq
          exact ⟨.kept c :: front, found, back, start, head, tail, .kept none lead, found_at, trail,
            parts, rfl, rfl⟩
  | @found here found pieces there found_at size others ih =>
      rw [editPieces_cons, editPiece] at h
      rcases List.append_eq_append_iff.1 h with ⟨more, rfl, eq⟩ | ⟨more, eq, eq'⟩
      · obtain ⟨front, other, back, start, head, tail, lead, other_at, trail, parts, rfl, rfl⟩ :=
          ih eq
        exact ⟨.found found :: front, other, back, start, head, tail, .found found_at size lead,
          other_at, trail, parts, by simp [editPiece], rfl⟩
      · cases more with
        | nil =>
            have next : editPieces changes pieces = [] ++ .put old new :: last := eq'.symm
            obtain
              ⟨front, other, back, start, head, tail, lead, other_at, trail, parts, none, rfl⟩ :=
              ih next
            refine ⟨.found found :: front, other, back, start, head, tail,
              .found found_at size lead, other_at, trail, parts, ?_, rfl⟩
            rw [editPieces_cons, List.append_assoc, ← none, editPiece, eq, List.append_nil,
              List.append_nil]
        | cons change more =>
            obtain ⟨rfl, rfl⟩ := List.cons.inj eq'
            exact ⟨[], found, pieces, here, first, more, .nil, found_at, others, eq, rfl, rfl⟩

end Pattern

end ComponentPreview
