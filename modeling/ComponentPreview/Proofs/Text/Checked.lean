import ComponentPreview.Json.Display
import ComponentPreview.Proofs.Text.Absence

/-!
# Steps that need not succeed

A character, a group or a part is looked up by its place, and there may be none. A checked step says
so instead of making something up. A group that every end of a pattern captures is always there.
-/

namespace ComponentPreview

/-- Why a step fails. -/
inductive Mishap
  | noCharacter
  | noGroup
  | noPart
  | noBracket (c : Char)
  | badTemplate (message : String)
  | division
  | endless
  deriving DecidableEq, Repr

def Mishap.message : Mishap → String
  | noCharacter => "string index out of range"
  | noGroup => "no such group"
  | noPart => "list index out of range"
  | noBracket c => Json.inspectText [c]
  | badTemplate message => message
  | division => "division by zero"
  | endless => "no end"

abbrev Checked := Except Mishap

namespace Checked

@[simp] theorem pure_eq (value : α) : (pure value : Checked α) = .ok value := rfl

@[simp] theorem ok_bind (value : α) (next : α → Checked β) :
    (Except.ok value >>= next) = next value :=
  rfl

@[simp] theorem map_ok (f : α → β) (value : α) :
    f <$> (Except.ok value : Checked α) = .ok (f value) :=
  rfl

theorem mapM_eq_ok {step : α → Checked β} {f : α → β} {entries : List α}
    (h : ∀ entry ∈ entries, step entry = .ok (f entry)) :
    entries.mapM step = .ok (entries.map f) := by
  induction entries with
  | nil => rfl
  | cons entry entries ih =>
      obtain ⟨first, others⟩ := List.forall_mem_cons.1 h
      rw [List.mapM_cons, first, ih others]
      rfl

end Checked

namespace Text

def charAt (text : List Char) (place : Nat) : Checked Char :=
  match text[place]? with
  | some c => .ok c
  | none => .error .noCharacter

def charBefore (text : List Char) : Nat → Checked Char
  | 0 => .error .noCharacter
  | place + 1 => charAt text place

theorem charAt_append (before : List Char) (c : Char) (rest : List Char) :
    charAt (before ++ c :: rest) before.length = .ok c := by
  simp [charAt]

theorem charBefore_append {before : List Char} {c : Char} (h : before.getLast? = some c)
    (rest : List Char) : charBefore (before ++ rest) before.length = .ok c := by
  obtain ⟨front, rfl⟩ := List.getLast?_eq_some_iff.1 h
  simp [charBefore, charAt]

end Text

/-- The first of some parts. -/
def tryHead (parts : List α) : Checked α :=
  match parts with
  | part :: _ => .ok part
  | [] => .error .noPart

/-- The last of some parts. -/
def tryLast (parts : List α) : Checked α :=
  match parts.getLast? with
  | some part => .ok part
  | none => .error .noPart

theorem tryHead_eq {parts : List α} (some : parts ≠ []) (default : α) :
    tryHead parts = .ok (parts.headD default) := by
  cases parts with
  | nil => exact absurd rfl some
  | cons part others => rfl

theorem tryLast_eq {parts : List α} (some : parts ≠ []) (default : α) :
    tryLast parts = .ok (parts.getLastD default) := by
  simp [tryLast, List.getLastD_eq_getLast?, List.getLast?_eq_some_getLast some]

theorem Cursor.Reads.place_eq {text lead : List Char} {here : Cursor}
    (reads : (Cursor.start text).Reads lead here) :
    text = lead ++ here.rest ∧ here.offset = lead.length ∧ here.before = lead.getLast? :=
  ⟨reads.rest_eq, reads.offset_eq.trans (Nat.zero_add _), reads.before_eq.trans Option.or_none⟩

namespace Pattern

variable {pattern : Pattern} {here : Cursor} {found : Match} {text : List Char}

def Match.groupAt (found : Match) (index : Nat) : Checked (List Char) :=
  match found.groups[index]? with
  | some span => .ok span.text
  | none => .error .noGroup

/-- How many groups a pattern captures at least. -/
def captures : Pattern → Nat
  | both left right => left.captures + right.captures
  | either left right => min left.captures right.captures
  | capture body => body.captures + 1
  | _ => 0

theorem captures_le {first last : Progress} (h : last ∈ pattern.ends first) :
    first.groups.length + pattern.captures ≤ last.groups.length := by
  induction pattern generalizing first last with
  | both left right ihl ihr =>
      obtain ⟨middle, leads, ends⟩ := List.mem_flatMap.1 h
      have before := ihl leads
      have after := ihr ends
      simp only [captures]
      omega
  | either left right ihl ihr =>
      simp only [captures]
      rcases mem_ends_either.1 h with h | h
      · have := ihl h
        omega
      · have := ihr h
        omega
  | capture body ih =>
      obtain ⟨later, ends, rfl⟩ := mem_ends_capture.1 h
      have := ih ends
      simp only [captures, List.length_append, List.length_singleton]
      omega
  | _ =>
      obtain ⟨more, eq⟩ := groups_of_mem_ends h
      simp [captures, eq]

theorem groupAt_eq {index : Nat} (within : index < pattern.captures)
    (found_at : pattern.at? here = some found) :
    found.groupAt index = .ok (found.group index) := by
  obtain ⟨last, ends, rfl⟩ := exists_end_of_at? found_at
  have enough := captures_le ends
  have inside : index < (last.toMatch here).groups.length := by
    simp only [List.length_nil, Nat.zero_add] at enough
    exact Nat.lt_of_lt_of_le within enough
  simp [Match.groupAt, Match.group, inside]

/-- A match that starts at a place of a text cuts it into what is before, the match and the rest. -/
structure Match.Cuts (found : Match) (text lead : List Char) : Prop where
  text_eq : text = lead ++ found.text ++ found.stop.rest
  start_eq : found.whole.first.offset = lead.length
  stop_eq : found.stop.offset = (lead ++ found.text).length
  before_eq : found.stop.before = (lead ++ found.text).getLast?

theorem cuts_of_at? {lead : List Char} (reads : (Cursor.start text).Reads lead here)
    (found_at : pattern.at? here = some found) : found.Cuts text lead := by
  obtain ⟨text_eq, stop_eq, before_eq⟩ := (reads.trans (reads_of_at? found_at)).place_eq
  obtain ⟨-, start_eq, -⟩ := reads.place_eq
  obtain ⟨last, -, rfl⟩ := exists_end_of_at? found_at
  exact ⟨text_eq, start_eq, stop_eq, before_eq⟩

theorem groupAt_of_mem_findAll {index : Nat} (within : index < pattern.captures)
    (mem : found ∈ pattern.findAll text) : found.groupAt index = .ok (found.group index) := by
  obtain ⟨lead, here, reads, found_at⟩ := at?_of_mem_findAll mem
  exact groupAt_eq within found_at

theorem groupAt_of_first? {index : Nat} (within : index < pattern.captures)
    (first : pattern.first? text = some found) :
    found.groupAt index = .ok (found.group index) := by
  obtain ⟨lead, here, reads, found_at⟩ := at?_of_firstFrom? first
  exact groupAt_eq within found_at

/-- Puts what `edit` makes of each match in its place. -/
def tryReplace (pattern : Pattern) (edit : Match → Checked (List Char)) (text : List Char) :
    Checked (List Char) := do
  let parts ← (pattern.dissect text).mapM fun
    | .kept c => pure [c]
    | .found found => edit found
  return parts.flatten

theorem tryReplace_eq {step : Match → Checked (List Char)} {edit : Match → List Char}
    (h : ∀ found ∈ pattern.findAll text, step found = .ok (edit found)) :
    pattern.tryReplace step text = .ok (pattern.replace edit text) := by
  rw [tryReplace, Checked.mapM_eq_ok (f := fun | .kept c => [c] | .found found => edit found)]
  · rfl
  · intro piece mem
    cases piece with
    | kept c => rfl
    | found found => exact h found (mem_findAll.2 mem)

theorem cut_ne_nil (pattern : Pattern) (text : List Char) : pattern.cut text ≠ [] := by
  rw [cut]
  cases pattern.dissect text with
  | nil => simp
  | cons piece pieces =>
      rw [List.foldr_cons]
      cases piece with
      | found found => simp
      | kept c => split <;> simp_all

end Pattern

end ComponentPreview
