import ComponentPreview.Proofs.Text.Absence
import ComponentPreview.Proofs.Text.Rewrite

/-!
# What the matches of a text show

Looking at the matches of a text one after the other is done part by part, as rewriting it is
(`Collects.append`). A text is cut at the matches into the parts between them.
-/

namespace ComponentPreview

namespace Pattern

variable {α : Type} {pattern : Pattern} {view : Match → Option α} {here middle there : Cursor}
  {found : Match} {text word : List Char} {shown others : List α}

def Piece.viewed (view : Match → Option α) : Piece → Option α
  | .kept _ => none
  | .found found => view found

theorem filterMap_findAll (pattern : Pattern) (view : Match → Option α) (text : List Char) :
    (pattern.findAll text).filterMap view =
      (pattern.dissect text).filterMap (Piece.viewed view) := by
  rw [findAll, List.filterMap_filterMap]
  congr 1
  funext piece
  cases piece <;> rfl

/-- From one place to another, where no match is cut in two, the matches show these in order. -/
def Collects (pattern : Pattern) (view : Match → Option α) (here : Cursor) (shown : List α)
    (there : Cursor) : Prop :=
  ∃ pieces, pattern.Dissects here pieces there ∧ pieces.filterMap (Piece.viewed view) = shown

namespace Collects

theorem refl (here : Cursor) : pattern.Collects view here [] here :=
  ⟨[], .nil, rfl⟩

theorem append (front : pattern.Collects view here shown middle)
    (back : pattern.Collects view middle others there) :
    pattern.Collects view here (shown ++ others) there := by
  obtain ⟨pieces, dissects, rfl⟩ := front
  obtain ⟨pieces', dissects', rfl⟩ := back
  exact ⟨pieces ++ pieces', dissects.append dissects', List.filterMap_append⟩

theorem of_at? (found_at : pattern.at? here = some found) (size : found.text ≠ []) :
    pattern.Collects view here (view found).toList found.stop := by
  refine ⟨[.found found], .found found_at ?_ .nil, ?_⟩
  · rw [size_of_at? found_at]
    exact fun empty => size (List.length_eq_zero_iff.1 empty)
  · cases eq : view found <;> simp [Piece.viewed, eq]

theorem of_passes (reads : here.Reads word there) (passes : pattern.Passes here word) :
    pattern.Collects view here [] there := by
  refine ⟨word.map .kept, dissects_of_passes reads passes, ?_⟩
  simp [List.filterMap_map, Function.comp_def, Piece.viewed]

theorem of_absent {c : Char}
    (heads : ∀ here found, pattern.at? here = some found → here.rest.head? = some c)
    (reads : here.Reads word there) (absent : c ∉ word) :
    pattern.Collects view here [] there :=
  of_passes reads (.of_absent heads reads absent)

/-- From every place on, the matches show something. -/
theorem exists_upto_end (pattern : Pattern) (view : Match → Option α) (here : Cursor) :
    ∃ shown there, pattern.Collects view here shown there ∧ there.rest = [] := by
  obtain ⟨pieces, there, -, dissects, ended⟩ := pattern.dissectFrom_eq [] (.refl here) rfl
  exact ⟨_, there, ⟨pieces, dissects, rfl⟩, ended⟩

theorem filterMap_eq (h : pattern.Collects view (.start text) shown there)
    (ended : there.rest = []) : (pattern.findAll text).filterMap view = shown := by
  obtain ⟨pieces, dissects, rfl⟩ := h
  obtain ⟨stop, dissects', ended'⟩ := pattern.dissects text
  rw [filterMap_findAll, dissects'.unique ended' dissects ended]

end Collects

/-- Where there is a match ahead, there is a first one. -/
theorem exists_leftmost (reads : here.Reads word middle)
    (fits : (pattern.at? middle).isSome = true) :
    ∃ lead place found, here.Reads lead place ∧ pattern.Passes here lead ∧
      pattern.at? place = some found ∧ lead.length ≤ word.length := by
  obtain ⟨found, first⟩ :=
    Option.isSome_iff_exists.1 (isSome_firstFrom?.2 ⟨word, middle, reads, fits⟩)
  obtain ⟨lead, place, reads', found_at, leftmost⟩ := leftmost_of_firstFrom? first
  refine ⟨lead, place, found, reads', leftmost, found_at, Nat.le_of_not_lt fun shorter => ?_⟩
  rw [leftmost word middle reads shorter] at fits
  cases fits

/-! ## The parts between the matches -/

/-- Puts a piece in front of the parts behind it. -/
def Piece.onto : Piece → List (List Char) → List (List Char)
  | .found _, parts => [] :: parts
  | .kept c, part :: parts => (c :: part) :: parts
  | .kept c, [] => [[c]]

theorem cut_eq (pattern : Pattern) (text : List Char) :
    pattern.cut text = (pattern.dissect text).foldr Piece.onto [[]] :=
  rfl

theorem foldr_onto_kept (word part : List Char) (parts : List (List Char)) :
    (word.map Piece.kept).foldr Piece.onto (part :: parts) = (word ++ part) :: parts := by
  induction word with
  | nil => rfl
  | cons c word ih => rw [List.map_cons, List.foldr_cons, ih, Piece.onto, List.cons_append]

/-- A text without a match is all of one part. -/
theorem cut_of_passes (passes : pattern.Passes (.start text) text) : pattern.cut text = [text] := by
  obtain ⟨stop, dissects, ended⟩ := pattern.dissects text
  have reads : (Cursor.start text).Reads text ⟨text.getLast?.or none, 0 + text.length, []⟩ :=
    ⟨(List.append_nil text).symm, rfl, rfl⟩
  rw [cut_eq, dissects.unique ended (dissects_of_passes reads passes) rfl, foldr_onto_kept,
    List.append_nil]

/-- A text with one match is cut in two. -/
theorem cut_of_at? {front back : List Char} (reads : (Cursor.start text).Reads front middle)
    (passes : pattern.Passes (.start text) front) (found_at : pattern.at? middle = some found)
    (size : found.text ≠ []) (reads' : found.stop.Reads back there) (ended : there.rest = [])
    (passes' : pattern.Passes found.stop back) : pattern.cut text = [front, back] := by
  obtain ⟨stop, dissects, ended'⟩ := pattern.dissects text
  have some : found.whole.size ≠ 0 := by
    rw [size_of_at? found_at]
    exact fun empty => size (List.length_eq_zero_iff.1 empty)
  have parts := (dissects_of_passes reads passes).append
    (.found found_at some (dissects_of_passes reads' passes'))
  rw [cut_eq, dissects.unique ended' parts ended, List.foldr_append, List.foldr_cons,
    foldr_onto_kept, List.append_nil, Piece.onto, foldr_onto_kept, List.append_nil]

/-- The last part of a text that is cut ends where the text ends. -/
theorem getLastD_cut_suffix (pattern : Pattern) (text : List Char) :
    (pattern.cut text).getLastD [] <:+ text := by
  have parts (pieces : List Piece) : ∃ part others,
      pieces.foldr Piece.onto [[]] = part :: others ∧
        (others = [] → part = pieces.flatMap (Piece.rewritten Match.text)) ∧
        (part :: others).getLastD [] <:+ pieces.flatMap (Piece.rewritten Match.text) := by
    induction pieces with
    | nil => exact ⟨[], [], rfl, fun _ => rfl, List.suffix_refl _⟩
    | cons piece pieces ih =>
        obtain ⟨part, others, eq, only, suffix⟩ := ih
        rw [List.foldr_cons, eq, List.flatMap_cons]
        cases piece with
        | found found =>
            exact ⟨[], part :: others, rfl, nofun, suffix.trans (List.suffix_append _ _)⟩
        | kept c =>
            refine ⟨c :: part, others, rfl, fun none => congrArg (c :: ·) (only none), ?_⟩
            cases others with
            | nil => exact only rfl ▸ List.suffix_refl _
            | cons other others => exact suffix.trans (List.suffix_append _ _)
  obtain ⟨part, others, eq, -, suffix⟩ := parts (pattern.dissect text)
  rw [← replace_eq, replace_text, ← eq, ← cut_eq] at suffix
  exact suffix

end Pattern

end ComponentPreview
