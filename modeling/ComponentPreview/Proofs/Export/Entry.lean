import ComponentPreview.Proofs.Export.Assignment
import ComponentPreview.Proofs.Stub.Declared

/-!
# The function that is the entry

A function that is exported as default turns into what the entry slot is assigned, where its name is
bound for nothing but its own body. Another rule would have to bring a second one for the script to
declare the name (`Script.declares_exported`).
-/

namespace ComponentPreview

open Pattern Component Edit

/-- A text holds a function of a name that is not what the entry slot is assigned. -/
def Script.Declares (name text : List Char) : Prop :=
  ∃ front, Form.function.StandsAt text front name ∧ ¬Modules.entryText <:+ front

namespace Modules

variable {text lead name front old new : List Char} {first last : List Change}

/-- The edit that assigns the default export to the entry slot. -/
def entryEdit (text : List Char) : List Change :=
  exportDefault.edit (Pass.assign Script.entryAssignment) text

theorem before_entryEdit (text : List Char) : before (entryEdit text) = text :=
  before_edit (Pass.covers_assign _ _) text

theorem after_entryEdit (text : List Char) :
    after (entryEdit text) = assignDefaultExport Script.entryAssignment text :=
  after_edit (Pass.after_assign _) text

/-- The keywords of a default export give way to the start of the assignment, and no word ends
before it. -/
theorem seam_of_entry (eq : entryEdit text = first ++ .put old new :: last) :
    new = entryText ∧ ∀ c ∈ (after first).getLast?, isWord c = false := by
  obtain ⟨stop, dissects, ended⟩ := exportDefault.dissects text
  obtain ⟨front, found, back, start, head, tail, lead, found_at, -, parts, rfl, rfl⟩ :=
    dissects.exists_found eq
  obtain ⟨rfl, rfl, rfl, rfl⟩ := put_unique [] [] parts
  refine ⟨fill_entry _, ?_⟩
  rcases List.eq_nil_or_concat front with rfl | ⟨front, piece, rfl⟩
  · exact fun c mem => nomatch mem
  · rw [List.concat_eq_append] at lead
    cases piece with
    | kept c =>
        have edge := (text_of_default found_at).1
        rw [Edge, lead.before_eq] at edge
        simpa [editPieces, editPiece, Change.after, keepAll] using edge
    | found other =>
        have last : entryText.getLast? = some ' ' := by decide
        have ended : (after (editPieces (Pass.assign Script.entryAssignment)
            (front.concat (.found other)) ++ keepAll [])).getLast? = some ' ' := by
          simp [editPieces, editPiece, Change.after, keepAll, Pass.assign, fill_entry, last]
        intro c mem
        rw [ended] at mem
        cases mem
        decide

theorem suffix_of_put (eq : entryEdit text = (first ++ [.put old new]) ++ last) :
    entryText <:+ after (first ++ [.put old new]) := by
  rw [List.append_assoc, List.singleton_append] at eq
  obtain ⟨rfl, -⟩ := seam_of_entry eq
  exact ⟨after first, by simp [Change.after]⟩

/-- A function that the assignment of the default export leaves as it is stood there before, and not
behind keywords that gave way. -/
theorem stands_of_carried (eq : entryEdit text = first ++ (keepAll (lead ++ name) ++ last))
    (declares : Form.function.Declares (after first).getLast? lead name (after last))
    (apart : ¬entryText <:+ after first) :
    Form.function.StandsAt text (before first) name ∧
      ∀ others old new, first ≠ others ++ [.put old new] := by
  have kept : ∀ others old new, first ≠ others ++ [.put old new] := by
    rintro others old new rfl
    exact apart (suffix_of_put eq)
  refine ⟨⟨lead, before last, ?_, ?_, declares.leads, declares.identifier, ?_, trivial, trivial⟩,
    kept⟩
  · rw [← before_entryEdit text, eq]
    simp
  · rcases List.eq_nil_or_concat first with rfl | ⟨others, change, rfl⟩
    · exact declares.starts
    · rw [List.concat_eq_append] at declares kept ⊢
      cases change with
      | put old new => exact absurd rfl (kept others old new)
      | keep c => simpa [Change.before, Change.after] using declares.starts
  · have whole := declares.whole
    cases last with
    | nil => exact whole
    | cons change others =>
        cases change with
        | keep c => exact whole
        | put old new =>
            rw [← List.append_assoc] at eq
            obtain ⟨rfl, -⟩ := seam_of_entry eq
            exact absurd (whole 'w' rfl) (by decide)

/-- The only name that the assignment begins with. -/
theorem window_of_name {word right rest : List Char} (eq : entryText ++ rest = word ++ right)
    (some : word ≠ []) (areName : ∀ c ∈ word, isNameChar c = true)
    (whole : ∀ c ∈ right.head?, isNameChar c = false) : word = "window".toList := by
  obtain ⟨c, word, rfl⟩ := List.exists_cons_of_ne_nil some
  obtain rfl : 'w' = c := (List.cons.inj eq).1
  have identifier : IsIdentifier ('w' :: word) :=
    ⟨'w', word, rfl, by decide, (List.forall_mem_cons.1 areName).2⟩
  rw [← Form.take_name identifier whole, ← eq]
  rfl

/-- Where the assignment of the default export puts a function together, its name ends with what is
assigned. -/
theorem suffix_of_crosses {start right : List Char}
    (eq : after (entryEdit text) = start ++ ((lead ++ name) ++ right))
    (declares : Form.function.Declares start.getLast? lead name right)
    (other : name ≠ "window".toList)
    (crosses : Crosses (entryEdit text) start.length (start.length + (lead ++ name).length)) :
    "$window".toList <:+ name := by
  obtain ⟨first, old, new, last, parts, low, high⟩ := crosses
  obtain ⟨rfl, edge⟩ := seam_of_entry parts
  obtain ⟨blanks, _, rfl, some, areBlank, rfl⟩ := declares.leads
  rw [parts, after_append, after_cons, Change.after] at eq
  rcases crossing_cases eq low high with ⟨word, more, some', -, first_eq, split, rest⟩ |
    ⟨front, back, -, some', entry, rest⟩
  · obtain ⟨c, more, rfl⟩ := List.exists_cons_of_ne_nil some'
    obtain rfl : 'w' = c := (List.cons.inj rest).1
    have clean : 'w' ∉ "function".toList ++ (blanks ++ []) := by
      rw [List.append_nil, List.mem_append, not_or]
      exact ⟨by decide, fun mem => absurd (areBlank _ mem) (by decide)⟩
    obtain ⟨inner, rfl, name_eq⟩ : ∃ inner, word = ("function".toList ++ (blanks ++ [])) ++ inner ∧
        name = inner ++ 'w' :: more := by
      rcases List.append_eq_append_iff.1 split with ⟨inner, eq', named⟩ | ⟨inner, eq', named⟩
      · exact ⟨inner, eq', named⟩
      · cases inner with
        | nil => exact ⟨[], by simpa using eq'.symm, by simpa using named.symm⟩
        | cons d inner =>
            obtain rfl := (List.cons.inj named).1
            exact absurd (by rw [eq']; simp) clean
    have isName := isNameChar_of_mem_identifier declares.identifier
    rw [window_of_name rest some' (fun c mem => isName c (name_eq ▸ List.mem_append_right _ mem))
      declares.whole] at name_eq
    rcases List.eq_nil_or_concat inner with rfl | ⟨inner, d, rfl⟩
    · exact absurd name_eq other
    · obtain rfl : d = '$' := by
        have last := edge d (by
          simp only [first_eq, List.concat_eq_append, ← List.append_assoc, List.getLast?_concat]
          rfl)
        have named := isName d (by simp [name_eq])
        simpa [isNameChar, last] using named
      exact ⟨inner, by simp [name_eq]⟩
  · obtain ⟨c, back, rfl⟩ := List.exists_cons_of_ne_nil some'
    obtain rfl : c = 'f' := (List.cons.inj rest).1
    have absent : 'f' ∉ entryText := by decide
    exact absurd (by simp [entry]) absent

/-- No default export is cut in two where another one begins. -/
theorem default_uncut {here middle : Cursor} (edge : Edge middle)
    (head : middle.rest.head? = some 'e') : exportDefault.Uncut here middle := by
  refine .of_head head fun lead start found inner more _ found_at reads eq => ?_
  cases inner with
  | nil => rfl
  | cons c inner =>
      obtain ⟨-, gap, gap', spelled, ⟨-, areBlank⟩, -, areBlank'⟩ := text_of_default found_at
      have clean : 'e' ∉ "xport".toList ++ (gap ++ ['d']) := by
        simp only [List.mem_append, not_or]
        exact ⟨by decide, areBlank.not_mem (by decide), by decide⟩
      have clean' : 'e' ∉ "fault".toList ++ gap' := by
        rw [List.mem_append, not_or]
        exact ⟨by decide, areBlank'.not_mem (by decide)⟩
      have whole : ("xport".toList ++ (gap ++ ['d'])) ++ 'e' :: ("fault".toList ++ gap') =
          inner ++ 'e' :: more := by
        have same := congrArg List.tail (spelled.symm.trans eq)
        simpa using same
      have first {front back : List Char} (absent : 'e' ∉ front)
          (eq : ("xport".toList ++ (gap ++ ['d'])) ++ 'e' :: ("fault".toList ++ gap') =
            front ++ 'e' :: back) :
          "xport".toList ++ (gap ++ ['d']) = front ∧ "fault".toList ++ gap' = back := by
        have apart {front : List Char} (absent : 'e' ∉ front) : ∀ c ∈ front, (c == 'e') = false :=
          fun c mem => by simpa using fun same : c = 'e' => absent (same ▸ mem)
        obtain ⟨same, -, rest⟩ :=
          Text.first_unique (· == 'e') eq (apart clean) rfl (apart absent) rfl
        exact ⟨same, rest⟩
      by_cases mem : 'e' ∈ inner
      · obtain ⟨front, back, rfl, absent⟩ := List.eq_append_cons_of_mem mem
        rw [List.append_assoc front] at whole
        rw [(first absent whole).2] at clean'
        exact absurd (by simp) clean'
      · have last : (c :: inner).getLast? = some 'd' := by
          rw [← (first mem whole).1, ← List.append_assoc, ← List.cons_append, List.getLast?_concat]
        have edge := edge 'd'
        rw [reads.before_eq, last] at edge
        exact absurd (edge rfl) (by decide)

/-- The keywords before a function that is exported as default give way to the assignment. -/
theorem exists_entry {left : List Char} (stands : Form.exportedFunction.StandsAt text left name)
    (edge : ∀ c ∈ left.getLast?, isWord c = false) :
    ∃ keywords head tail, keywords ≠ [] ∧ entryEdit text = head ++ .put keywords entryText :: tail ∧
      before head = left ∧ Form.function.StandsAt text (left ++ keywords) name := by
  obtain ⟨gap, gap', ⟨some, areBlank⟩, ⟨some', areBlank'⟩, function⟩ :=
    Source.function_of_exported stands
  obtain ⟨lead, right, text_eq, declares⟩ := function
  set keywords := "export".toList ++ (gap ++ ("default".toList ++ gap')) with keywords_eq
  rw [List.append_assoc] at text_eq
  obtain ⟨middle, reads, rest_eq⟩ := exists_reads left
    (show (Cursor.start text).rest = _ from text_eq)
  obtain ⟨last, reads', rest_eq'⟩ := exists_reads keywords rest_eq
  have edge : Edge middle := by
    rw [Edge, reads.before_eq]
    simpa [Cursor.start] using edge
  have head : middle.rest.head? = .some 'e' := by
    rw [rest_eq]
    rfl
  have head' : last.rest.head? = .some 'f' := by
    obtain ⟨blanks, _, rfl, -⟩ := declares.leads
    rw [rest_eq']
    rfl
  obtain ⟨found, found_at, stop⟩ := at?_of_prefers
    (prefers_default reads' edge some areBlank some' areBlank' head' (by decide))
  have spelled : found.text = keywords := by
    have reads'' := reads_of_at? found_at
    rw [stop] at reads''
    exact reads''.word_unique reads'
  obtain ⟨stop, dissects, ended⟩ := exportDefault.dissects text
  obtain ⟨front, back, pieces_eq, lead_dissects, -⟩ := dissects.exists_piece ended reads
    (default_uncut edge head) found_at (by simp [spelled, keywords_eq])
  refine ⟨keywords, editPieces (Pass.assign Script.entryAssignment) front,
    editPieces (Pass.assign Script.entryAssignment) back, by simp [keywords_eq], ?_, ?_,
    lead, right, by simp [text_eq], declares⟩
  · rw [entryEdit, edit, pieces_eq, editPieces_append, editPieces_cons, editPiece, Pass.assign,
      spelled, fill_entry]
    rfl
  · exact (lead_dissects.reads (Pass.covers_assign _ _)).word_unique reads

/-- A function that is exported as default, and of whose name there is no other, is nothing but what
the entry slot is assigned. -/
theorem not_declares_assigned {left : List Char}
    (stands : Form.exportedFunction.StandsAt text left name)
    (sole : ∀ front front', Form.function.StandsAt text front name →
      Form.function.StandsAt text front' name → front = front')
    (edge : ∀ c ∈ left.getLast?, isWord c = false) (other : name ≠ "window".toList)
    (declares : Script.Declares name (assignDefaultExport Script.entryAssignment text)) :
    "$window".toList <:+ name := by
  obtain ⟨front, ⟨lead, right, text_eq, function⟩, apart⟩ := declares
  rw [← after_entryEdit, ← List.append_assoc lead] at text_eq
  rcases carries_or_crosses text_eq with ⟨first, last, eq, rfl, rfl⟩ | crosses
  · obtain ⟨stands', kept⟩ := stands_of_carried eq function apart
    obtain ⟨keywords, head, tail, some, eq', rfl, entry⟩ := exists_entry stands edge
    have behind := sole _ _ stands' entry
    rw [eq] at eq'
    rcases List.append_eq_append_iff.1 eq' with ⟨more, rfl, -⟩ | ⟨more, rfl, more_eq⟩
    · have size := congrArg List.length behind
      have positive := List.length_pos_iff.2 some
      simp only [before_append, List.length_append] at size
      omega
    -- Only kept characters read as something, and the function would stand behind the last of them.
    · cases more with
      | nil =>
          rw [List.append_nil] at behind
          exact absurd (List.append_right_eq_self.1 behind.symm) some
      | cons change more =>
          obtain ⟨rfl, -⟩ := List.cons.inj more_eq
          rcases List.eq_nil_or_concat more with rfl | ⟨more, change, rfl⟩
          · exact absurd rfl (kept head keywords entryText)
          · cases change with
            | put old new =>
                exact absurd (by simp) (kept (head ++ .put keywords entryText :: more) old new)
            | keep c =>
                have size := congrArg List.length behind
                simp [Change.before] at size
  · exact suffix_of_crosses text_eq function other crosses

end Modules

/-! ## The other rules -/

namespace Rule

variable {name text : List Char}

def applyAll (rules : List Rule) (text : List Char) : List Char :=
  rules.foldl (fun text rule => rule.apply Script.entryAssignment text) text

/-- A text to which the rules of a list are still to be applied declares a name, as far as that is
up to the rule of the default export. -/
def Promises (name : List Char) (later : List Rule) (text : List Char) : Prop :=
  Script.Declares name (if defaultExport ∈ later then
    Modules.assignDefaultExport Script.entryAssignment text else text)

/-- A rule other than that of the default export makes a text declare a name. -/
def Brings (rule : Rule) (name text : List Char) : Prop :=
  rule ≠ defaultExport ∧ ∃ done later, all = done ++ rule :: later ∧
    ¬Promises name (rule :: later) (applyAll done text) ∧
    Promises name later (applyAll (done ++ [rule]) text)

theorem exists_brings {done later : List Rule} (split : all = done ++ later)
    (missing : ¬Promises name later (applyAll done text))
    (declares : Script.Declares name (applyAll all text)) :
    ∃ rule : Rule, rule.Brings name text := by
  induction later generalizing done with
  | nil =>
      rw [split, List.append_nil] at declares
      exact absurd declares missing
  | cons rule later ih =>
      by_cases promised : Promises name later (applyAll (done ++ [rule]) text)
      · refine ⟨rule, fun isDefault => missing ?_, done, later, split, missing, promised⟩
        subst isDefault
        have once : all.Nodup := by decide
        rw [split, List.nodup_append, List.nodup_cons] at once
        have last : defaultExport ∉ later := once.2.1.1
        rw [Promises, if_neg last, applyAll, List.foldl_append] at promised
        rw [Promises, if_pos List.mem_cons_self]
        exact promised
      · exact ih (by simpa using split) promised

end Rule

/-- A script declares the name of a function that is exported as default only if the keywords of the
export begin within a word, if the name ends with what is put in their place, or if some other rule
brings the name. -/
theorem Script.declares_exported {left name text : List Char}
    (stands : Form.exportedFunction.StandsAt text left name) (other : name ≠ "window".toList)
    (sole : ∀ front front', Form.function.StandsAt text front name →
      Form.function.StandsAt text front' name → front = front')
    (declares : Declares name (textOf entryAssignment text)) :
    (∃ c ∈ left.getLast?, isWord c = true) ∨ "$window".toList <:+ name ∨
      ∃ rule : Rule, rule.Brings name text := by
  by_cases within : ∃ c ∈ left.getLast?, isWord c = true
  · exact .inl within
  · have edge : ∀ c ∈ left.getLast?, isWord c = false := by simpa using within
    refine .inr ?_
    by_cases assigned : Declares name (Modules.assignDefaultExport entryAssignment text)
    · exact .inl (Modules.not_declares_assigned stands sole edge other assigned)
    · exact .inr (Rule.exists_brings (List.nil_append Rule.all).symm assigned declares)

end ComponentPreview
