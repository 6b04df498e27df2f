import ComponentPreview.Proofs.Script.Step
import ComponentPreview.Proofs.Text.Checked

/-!
# Rules that cannot fail

The rules look characters up by their places, closing brackets in a table and groups by number, take
the assignment of the default export from a template, and erase declarations until none is left.
Written with checked steps they succeed on every text, and make the same script.
-/

namespace ComponentPreview

open Edit Pattern

/-! ## Brackets -/

namespace Brackets

/-- How many characters stand before the bracket that closes a block. -/
def distance? (opener closer : Char) (depth : Nat) : List Char → Option Nat
  | [] => none
  | c :: rest =>
      if c == opener then (distance? opener closer (depth + 1) rest).map (· + 1)
      else if c == closer then
        if depth ≤ 1 then some 0 else (distance? opener closer (depth - 1) rest).map (· + 1)
      else (distance? opener closer depth rest).map (· + 1)

/-- The place of the bracket that closes the one at a place; without such a bracket it is the last
place of the text. -/
def tryClosing (text : List Char) (place : Nat) : Checked Nat := do
  let opener ← Text.charAt text place
  match closing? opener with
  | some closer =>
      match distance? opener closer 0 (text.drop place) with
      | some distance => return place + distance
      | none => return text.length - 1
  | none => throw (.noBracket opener)

theorem snd_splitBlock (opener closer : Char) (inside : List Char) (depth : Nat)
    (text : List Char) :
    (splitBlock opener closer inside depth text).2 =
      match distance? opener closer depth text with
      | some distance => text.drop (distance + 1)
      | none => [] := by
  induction text generalizing inside depth with
  | nil => rfl
  | cons c rest ih =>
      have step (depth : Nat) : (match (distance? opener closer depth rest).map (· + 1) with
            | some distance => (c :: rest).drop (distance + 1)
            | none => []) =
          match distance? opener closer depth rest with
          | some distance => rest.drop (distance + 1)
          | none => [] := by
        cases distance? opener closer depth rest <;> rfl
      rw [splitBlock, distance?]
      split
      · rw [ih, step]
      split
      · split
        · rfl
        · rw [ih, step]
      · rw [ih, step]

/-- The bracket that closes a block is looked up, and the block ends with it. -/
theorem tryClosing_eq (opener : Char) {closer : Char} (known : closing? opener = some closer)
    (before inner : List Char) :
    ∃ last, tryClosing (before ++ opener :: inner) before.length = .ok last ∧
      (before ++ opener :: inner).take (last + 1) =
        before ++ opener :: (splitBlock opener closer [] 1 inner).1 ∧
      (before ++ opener :: inner).drop (last + 1) = (splitBlock opener closer [] 1 inner).2 := by
  have parts := splitBlock_append opener closer [] 1 inner
  have rest := snd_splitBlock opener closer [] 1 inner
  rw [List.reverse_nil, List.nil_append] at parts
  have start : distance? opener closer 0 (opener :: inner) =
      (distance? opener closer 1 inner).map (· + 1) := by
    rw [distance?, if_pos (beq_self_eq_true opener)]
  -- The front is what remains of the whole when the rest is taken off its end.
  have front (last : Nat) (drop : (before ++ opener :: inner).drop (last + 1) =
      (splitBlock opener closer [] 1 inner).2) :
      (before ++ opener :: inner).take (last + 1) =
        before ++ opener :: (splitBlock opener closer [] 1 inner).1 := by
    refine (List.append_left_inj (splitBlock opener closer [] 1 inner).2).1 ?_
    rw [← drop, List.take_append_drop, drop, List.append_assoc, List.cons_append, parts]
  rw [tryClosing, Text.charAt_append, Checked.ok_bind, known, List.drop_left]
  dsimp only
  rw [start]
  cases found : distance? opener closer 1 inner with
  | some distance =>
      have drop : (before ++ opener :: inner).drop (before.length + (distance + 1) + 1) =
          (splitBlock opener closer [] 1 inner).2 := by
        rw [rest, found, Nat.add_assoc, List.drop_length_add_append]
        rfl
      exact ⟨_, rfl, front _ drop, drop⟩
  | none =>
      have drop : (before ++ opener :: inner).drop ((before ++ opener :: inner).length - 1 + 1) =
          (splitBlock opener closer [] 1 inner).2 := by
        rw [rest, found]
        refine List.drop_of_length_le ?_
        simp only [List.length_append, List.length_cons]
        omega
      exact ⟨_, rfl, front _ drop, drop⟩

/-- The depth after the character at a place, where the one before it tells whether an angle ends an
arrow. -/
def tryAfter (text : List Char) (place : Nat) (depth : Int) (c : Char) : Checked Int := do
  if opens c then return depth + 1
  else if c == '>' && 0 < place then
    let previous ← Text.charBefore text place
    return if previous == '=' then depth else depth - 1
  else if c == ')' || c == ']' || c == '\x7d' || c == '>' then return depth - 1
  else return depth

theorem tryAfter_eq (read : List Char) (depth : Int) (c : Char) (rest : List Char) :
    tryAfter (read ++ c :: rest) read.length depth c = .ok (after read.getLast? depth c) := by
  unfold tryAfter after
  by_cases opening : opens c = true
  · simp [opening]
  by_cases angle : c = '>'
  · subst angle
    rcases List.eq_nil_or_concat read with rfl | ⟨front, previous, rfl⟩
    · simp [closes, opens]
    · have ended : (front.concat previous).getLast? = some previous := by simp
      rw [Text.charBefore_append ended, ended]
      by_cases arrow : previous = '=' <;> simp [closes, opens, arrow]
  · have other : (c == '>') = false := by simpa using angle
    simp only [opening, other, closes, Bool.false_and, Bool.or_false, Bool.not_false,
      Bool.and_true, Bool.false_eq_true, if_false]
    split <;> rfl

/-- Cuts a text at its commas from a place on. -/
def tryCutFrom (text : List Char) (place : Nat) (depth : Int) (part : List Char)
    (parts : List (List Char)) : List Char → Checked (List (List Char))
  | [] => return (part.reverse :: parts).reverse
  | c :: rest =>
      if c == ',' && depth == 0 then
        tryCutFrom text (place + 1) depth [] (part.reverse :: parts) rest
      else do
        let depth ← tryAfter text place depth c
        tryCutFrom text (place + 1) depth (c :: part) parts rest

def tryCutAtCommas (text : List Char) : Checked (List (List Char)) :=
  tryCutFrom text 0 0 [] [] text

/-- The text from an assignment at depth zero on. -/
def tryFromAssignment? (text : List Char) (place : Nat) (depth : Int) :
    List Char → Checked (Option (List Char))
  | [] => return none
  | c :: rest =>
      if c == '=' && depth == 0 && rest.head? != some '>' then return some (c :: rest)
      else do
        let depth ← tryAfter text place depth c
        tryFromAssignment? text (place + 1) depth rest

private theorem read_snoc (read : List Char) (c : Char) (rest : List Char) :
    read ++ c :: rest = (read ++ [c]) ++ rest ∧ read.length + 1 = (read ++ [c]).length ∧
      some c = (read ++ [c]).getLast? := by
  simp

theorem tryCutFrom_eq (read : List Char) (depth : Int) (part : List Char)
    (parts : List (List Char)) (rest : List Char) :
    tryCutFrom (read ++ rest) read.length depth part parts rest =
      .ok (cutFrom read.getLast? depth part parts rest) := by
  induction rest generalizing read depth part parts with
  | nil => rfl
  | cons c rest ih =>
      obtain ⟨whole, place, previous⟩ := read_snoc read c rest
      rw [tryCutFrom, cutFrom]
      split
      · rw [whole, place, ih, previous]
      · rw [tryAfter_eq, Checked.ok_bind, whole, place, ih, previous]

theorem tryCutAtCommas_eq (text : List Char) : tryCutAtCommas text = .ok (cutAtCommas text) :=
  tryCutFrom_eq [] 0 [] [] text

theorem tryFromAssignment?_eq (read : List Char) (depth : Int) (rest : List Char) :
    tryFromAssignment? (read ++ rest) read.length depth rest =
      .ok (fromAssignment? read.getLast? depth rest) := by
  induction rest generalizing read depth with
  | nil => rfl
  | cons c rest ih =>
      obtain ⟨whole, place, previous⟩ := read_snoc read c rest
      rw [tryFromAssignment?, fromAssignment?]
      split
      · rfl
      · rw [tryAfter_eq, Checked.ok_bind, whole, place, ih, previous]

end Brackets

/-! ## Declarations -/

namespace Declaration

def tryEraseInterface? (text : List Char) : Checked (Option (List Char)) := do
  match interfaceHead.first? text with
  | some head =>
      let last ← Brackets.tryClosing text (head.stop.offset - 1)
      return some (text.take head.whole.first.offset ++
        (text.drop (last + 1)).dropWhile fun c => isIndent c || c == ';')
  | none => return none

/-- What follows the body of an alias from a place on. -/
def tryAfterAlias (text : List Char) (place : Nat) (depth : Int) (isBegun : Bool) :
    List Char → Checked (List Char)
  | [] => return []
  | c :: rest => do
      let ends := depth ≤ 0 && (c == ';' || c == '\n' && isBegun && !continues rest)
      if ends then return rest
      else
        let depth ← Brackets.tryAfter text place depth c
        tryAfterAlias text (place + 1) depth (isBegun || !isBlank c) rest

def tryEraseAlias? (text : List Char) : Checked (Option (List Char)) := do
  match aliasHead.first? text with
  | some head =>
      let rest ← tryAfterAlias text head.stop.offset 0 false head.stop.rest
      return some (text.take head.whole.first.offset ++ rest)
  | none => return none

/-- Repeats a step until there is nothing more for it to do, within a bound. -/
def tryExhaust (step : List Char → Checked (Option (List Char))) :
    Nat → List Char → Checked (List Char)
  | 0, text => do
      match ← step text with
      | some _ => throw .endless
      | none => return text
  | bound + 1, text => do
      match ← step text with
      | some shorter => tryExhaust step bound shorter
      | none => return text

def tryErase (text : List Char) : Checked (List Char) := do
  let withoutInterfaces ← tryExhaust tryEraseInterface? text.length text
  tryExhaust tryEraseAlias? withoutInterfaces.length withoutInterfaces

variable {text : List Char} {found : Match}

theorem cuts_before_lit {body : Pattern} {closing : String}
    (first : (body ++ lit closing).first? text = some found) :
    ∃ front, text = front ++ closing.toList ++ found.stop.rest ∧
      found.stop.offset = (front ++ closing.toList).length := by
  obtain ⟨lead, here, reads, found_at⟩ := at?_of_firstFrom? first
  have cuts := cuts_of_at? reads found_at
  have whole := reads_of_at? found_at
  obtain ⟨last, ends, rfl⟩ := exists_end_of_at? found_at
  obtain ⟨middle, bodies, closes⟩ := mem_ends_append.1 ends
  obtain ⟨front, reads'⟩ := reads_of_mem_ends bodies
  have text_eq := whole.word_unique (reads'.trans (reads_of_lit closes))
  refine ⟨lead ++ front, ?_, ?_⟩
  · rw [cuts.text_eq, text_eq]
    simp
  · rw [cuts.stop_eq, text_eq]
    simp

theorem tryEraseInterface?_eq (text : List Char) :
    tryEraseInterface? text = .ok (eraseInterface? text) := by
  unfold tryEraseInterface? eraseInterface?
  cases first : interfaceHead.first? text with
  | none => rfl
  | some head =>
      have parts : interfaceHead = (modifiers ++ lit "interface" ++ gap ++ one isNameChar ++
          every (· != '\x7b')) ++ lit "\x7b" := rfl
      rw [parts] at first
      obtain ⟨front, whole, stop⟩ := cuts_before_lit first
      have opened : text = front ++ '\x7b' :: head.stop.rest := by simpa using whole
      have place : head.stop.offset - 1 = front.length := by simp [stop]
      obtain ⟨last, closed, -, rest⟩ :=
        Brackets.tryClosing_eq '\x7b' rfl front head.stop.rest
      simp only [place, Option.map_some]
      rw [opened, closed, Checked.ok_bind, rest]
      rfl

theorem tryAfterAlias_eq {read : List Char} {previous : Char}
    (h : read.getLast? = some previous) (depth : Int) (isBegun : Bool) (rest : List Char) :
    tryAfterAlias (read ++ rest) read.length depth isBegun rest =
      .ok (afterAlias previous depth isBegun rest) := by
  induction rest generalizing read previous depth isBegun with
  | nil => rfl
  | cons c rest ih =>
      rw [tryAfterAlias, afterAlias]
      split
      · rfl
      · have whole : read ++ c :: rest = (read ++ [c]) ++ rest := by simp
        have place : read.length + 1 = (read ++ [c]).length := by simp
        have ended : (read ++ [c]).getLast? = some c := by simp
        rw [Brackets.tryAfter_eq, Checked.ok_bind, whole, place, ih ended, h]

theorem tryEraseAlias?_eq (text : List Char) :
    tryEraseAlias? text = .ok (eraseAlias? text) := by
  unfold tryEraseAlias? eraseAlias?
  cases first : aliasHead.first? text with
  | none => rfl
  | some head =>
      have parts : aliasHead = (modifiers ++ lit "type" ++ gap ++ one isNameChar ++
          every isNameChar ++ spacing ++
          optional (lit "<" ++ most (· != '=') (begins (· == '>')) ++ lit ">") ++ spacing) ++
          lit "=" := rfl
      rw [parts] at first
      obtain ⟨front, whole, stop⟩ := cuts_before_lit first
      have ended : (front ++ "=".toList).getLast? = some '=' := by simp
      have rest := tryAfterAlias_eq ended 0 false head.stop.rest
      rw [← whole, ← stop] at rest
      simp only [rest, Checked.ok_bind]
      rfl

theorem length_lt_of_first? {pattern : Pattern} {rest : List Char} (word : List Char)
    (first : pattern.first? text = some found) (spelled : pattern.spells word = true)
    (some : word ≠ []) (left : rest <:+ found.stop.rest) :
    (text.take found.whole.first.offset ++ rest).length < text.length := by
  obtain ⟨lead, here, reads, found_at⟩ := at?_of_firstFrom? first
  have cuts := cuts_of_at? reads found_at
  have size := (infix_of_at? word spelled found_at).length_le
  have more := List.length_pos_iff.2 some
  have less := left.length_le
  rw [cuts.start_eq, List.length_append, List.length_take]
  have whole := congrArg List.length cuts.text_eq
  simp only [List.length_append] at whole
  omega

theorem eraseInterface?_shortens {shorter : List Char} (h : eraseInterface? text = some shorter) :
    shorter.length < text.length := by
  obtain ⟨head, first, rfl⟩ := Option.map_eq_some_iff.1 h
  refine length_lt_of_first? "interface".toList first rfl (by simp) ?_
  have parts := Brackets.splitBlock_append '\x7b' '\x7d' [] 1 head.stop.rest
  exact (List.dropWhile_suffix _).trans ⟨_, parts⟩

theorem eraseAlias?_shortens {shorter : List Char} (h : eraseAlias? text = some shorter) :
    shorter.length < text.length := by
  obtain ⟨head, first, rfl⟩ := Option.map_eq_some_iff.1 h
  exact length_lt_of_first? "type".toList first rfl (by simp)
    (Pass.afterAlias_suffix _ _ _ _)

/-- A step that shortens each text it is made on comes to an end within the length of the text. -/
theorem tryExhaust_eq {step : List Char → Checked (Option (List Char))}
    {step' : List Char → Option (List Char)} (steps : ∀ text, step text = .ok (step' text))
    (shortens : ∀ {text shorter}, step' text = some shorter → shorter.length < text.length)
    {bound : Nat} (enough : text.length ≤ bound) :
    tryExhaust step bound text = .ok (exhaust step' bound text) := by
  induction bound generalizing text with
  | zero =>
      cases made : step' text with
      | none => simp [tryExhaust, steps, made, exhaust]
      | some shorter => exact absurd (shortens made) (by omega)
  | succ bound ih =>
      cases made : step' text with
      | none => simp [tryExhaust, steps, made, exhaust]
      | some shorter =>
          have less := shortens made
          rw [tryExhaust, steps, Checked.ok_bind, exhaust, made]
          exact ih (by omega)

theorem tryErase_eq (text : List Char) : tryErase text = .ok (erase text) := by
  rw [tryErase, tryExhaust_eq tryEraseInterface?_eq eraseInterface?_shortens (Nat.le_refl _),
    Checked.ok_bind]
  exact tryExhaust_eq tryEraseAlias?_eq eraseAlias?_shortens (Nat.le_refl _)

end Declaration

/-! ## Annotations -/

namespace Annotation

def tryDefaultOf (typed : List Char) : Checked (List Char) := do
  match ← Brackets.tryFromAssignment? typed 0 0 typed with
  | some value => return ' ' :: value
  | none => return []

def tryEraseNamed (parameter : List Char) : Checked (List Char) := do
  match typedParameter.opening? parameter with
  | some found =>
      let name ← found.groupAt 0
      let value ← tryDefaultOf (parameter.drop (found.stop.offset - 1))
      return name ++ value
  | none => return parameter

def tryEraseParameterType (parameter : List Char) : Checked (List Char) := do
  let stripped := parameter.dropWhile isBlank
  if stripped.isEmpty then tryEraseNamed parameter
  else
    let first ← Text.charAt stripped 0
    if first == '\x7b' || first == '[' then
      let last ← Brackets.tryClosing parameter (parameter.length - stripped.length)
      let rest := parameter.drop (last + 1)
      if (Text.trimStart isBlank rest).head? == some ':' then
        let value ← tryDefaultOf rest
        return parameter.take (last + 1) ++ value
      else return parameter
    else tryEraseNamed parameter

def tryEraseTypesOf (parameters : List Char) : Checked (List Char) := do
  let parts ← Brackets.tryCutAtCommas parameters
  return Text.join [','] (← parts.mapM tryEraseParameterType)

def tryEraseParameterTypes (text : List Char) : Checked (List Char) :=
  parameterList.tryReplace
    (fun list => do
      let parameters ← tryEraseTypesOf (← list.groupAt 0)
      return '(' :: parameters ++ [')'])
    text

def tryEraseBindingTypes (text : List Char) : Checked (List Char) := do
  let named ← namedBinding.tryReplace (·.groupAt 0) text
  let destructured ← destructuredBinding.tryReplace (·.groupAt 0) named
  hookGeneric.tryReplace (fun found => return (← found.groupAt 0) ++ ['(']) destructured

theorem tryDefaultOf_eq (typed : List Char) : tryDefaultOf typed = .ok (defaultOf typed) := by
  have found := Brackets.tryFromAssignment?_eq [] 0 typed
  rw [List.nil_append] at found
  rw [tryDefaultOf, defaultOf]
  simp only [List.length_nil, List.getLast?_nil] at found
  rw [found, Checked.ok_bind]
  cases Brackets.fromAssignment? none 0 typed <;> rfl

theorem tryEraseNamed_eq (parameter : List Char) :
    tryEraseNamed parameter = .ok (eraseNamed parameter) := by
  unfold tryEraseNamed eraseNamed
  cases found_at : typedParameter.opening? parameter with
  | none => rfl
  | some found =>
      have cuts := cuts_of_at? (.refl (.start parameter)) found_at
      obtain ⟨mark, text_eq, parts⟩ := typedParameter_parts found_at
      have place : found.stop.offset - 1 = (found.group 0 ++ mark).length := by
        rw [cuts.stop_eq, text_eq]
        simp
      have rest : parameter.drop (found.stop.offset - 1) = ':' :: found.stop.rest := by
        rw [place, parts, ← List.append_assoc, List.drop_left]
      have named : found.groupAt 0 = .ok (found.group 0) := groupAt_eq (by decide) found_at
      simp only [named, rest, tryDefaultOf_eq, Checked.ok_bind]
      rfl

theorem tryEraseParameterType_eq (parameter : List Char) :
    tryEraseParameterType parameter = .ok (eraseParameterType parameter) := by
  unfold tryEraseParameterType eraseParameterType
  cases rest : parameter.dropWhile isBlank with
  | nil => simp [tryEraseNamed_eq]
  | cons opener inner =>
      have whole : parameter.takeWhile isBlank ++ opener :: inner = parameter := by
        rw [← rest, List.takeWhile_append_dropWhile]
      have place : parameter.length - (opener :: inner).length =
          (parameter.takeWhile isBlank).length := by
        have size := congrArg List.length whole
        rw [List.length_append] at size
        omega
      by_cases opens : (opener == '\x7b' || opener == '[') = true
      · have known : Brackets.closing? opener = some (if opener == '[' then ']' else '\x7d') := by
          rcases (Bool.or_eq_true _ _).mp opens with same | same
          · rw [eq_of_beq same]
            rfl
          · rw [eq_of_beq same]
            rfl
        obtain ⟨last, closed, front, back⟩ :=
          Brackets.tryClosing_eq opener known (parameter.takeWhile isBlank) inner
        rw [whole] at closed front back
        have first : Text.charAt (opener :: inner) 0 = .ok opener := rfl
        dsimp only
        generalize Brackets.splitBlock opener (if opener == '[' then ']' else '\x7d') [] 1 inner =
          block at front back ⊢
        simp only [List.isEmpty_cons, Bool.false_eq_true, if_false, first, Checked.ok_bind, opens,
          if_true, place, closed, front, back, tryDefaultOf_eq]
        split <;> rfl
      · have first : Text.charAt (opener :: inner) 0 = .ok opener := rfl
        simp only [List.isEmpty_cons, Bool.false_eq_true, if_false, first, Checked.ok_bind, opens]
        exact tryEraseNamed_eq parameter

theorem tryEraseTypesOf_eq (parameters : List Char) :
    tryEraseTypesOf parameters = .ok (eraseTypesOf parameters) := by
  rw [tryEraseTypesOf, Brackets.tryCutAtCommas_eq, Checked.ok_bind,
    Checked.mapM_eq_ok fun parameter _ => tryEraseParameterType_eq parameter]
  rfl

theorem tryEraseParameterTypes_eq (text : List Char) :
    tryEraseParameterTypes text = .ok (eraseParameterTypes text) := by
  refine tryReplace_eq fun list mem => ?_
  rw [groupAt_of_mem_findAll (by decide) mem, Checked.ok_bind, tryEraseTypesOf_eq]
  rfl

theorem tryEraseBindingTypes_eq (text : List Char) :
    tryEraseBindingTypes text = .ok (eraseBindingTypes text) := by
  rw [tryEraseBindingTypes, tryReplace_eq fun _ mem => groupAt_of_mem_findAll (by decide) mem,
    Checked.ok_bind, tryReplace_eq fun _ mem => groupAt_of_mem_findAll (by decide) mem,
    Checked.ok_bind]
  refine tryReplace_eq fun found mem => ?_
  rw [groupAt_of_mem_findAll (by decide) mem]
  rfl

end Annotation

/-! ## The default export -/

namespace Template

theorem read_token_of_plain {text : List Char} (plain : '\\' ∉ text) :
    Token.read text = text.map .plain := by
  induction text with
  | nil => rfl
  | cons c rest ih =>
      rw [List.mem_cons, not_or] at plain
      have other : c ≠ '\\' := Ne.symm plain.1
      rw [Token.read.eq_def]
      split
      · next same => exact absurd (List.cons.inj same).1 other
      · next same =>
          obtain ⟨rfl, rfl⟩ := List.cons.inj same
          rw [ih plain.2, List.map_cons]
      · next same => cases same

theorem pieces_plain (offset : Nat) (text : List Char) :
    pieces offset (text.map .plain) = .ok (text.map .literal) := by
  induction text generalizing offset with
  | nil => rw [List.map_nil, pieces, List.map_nil]
  | cons c rest ih =>
      rw [List.map_cons, pieces, ih]
      rfl

/-- A text without backslashes is a template that stands for itself. -/
theorem read_of_plain {text : List Char} (plain : '\\' ∉ text) :
    read text = .ok (text.map .literal) := by
  rw [read, read_token_of_plain plain, pieces_plain]

end Template

namespace Modules

/-- Assigns the default export to a slot, which has to make a template. -/
def tryAssignDefaultExport (slot : String) (text : List Char) : Checked (List Char) := do
  match Script.assignmentTo slot with
  | .ok assignment => return assignDefaultExport assignment text
  | .error fault => throw (.badTemplate (fault.message (Script.assignmentText slot)))

theorem tryAssignDefaultExport_eq (text : List Char) :
    tryAssignDefaultExport Script.entrySlot text =
      .ok (assignDefaultExport Script.entryAssignment text) := by
  have plain : '\\' ∉ Script.assignmentText Script.entrySlot := by decide
  rw [tryAssignDefaultExport, Script.assignmentTo, Template.read_of_plain plain]
  rfl

end Modules

/-! ## Markup -/

namespace Balance

/-- How many characters stand before the `>` that ends a tag. -/
def distanceToEnd? (quote : Option Char) (depth : Int) : List Char → Option Nat
  | [] => none
  | c :: rest =>
      match quote with
      | some mark => (distanceToEnd? (if c == mark then none else quote) depth rest).map (· + 1)
      | none =>
          if isQuoteMark c || c == '\x60' then (distanceToEnd? (some c) depth rest).map (· + 1)
          else if c == '\x7b' then (distanceToEnd? none (depth + 1) rest).map (· + 1)
          else if c == '\x7d' then (distanceToEnd? none (depth - 1) rest).map (· + 1)
          else if c == '>' && depth == 0 then some 0
          else if c == '<' && depth == 0 then none
          else (distanceToEnd? none depth rest).map (· + 1)

/-- Whether the character before a place, if there is one, is of a class. -/
def tryFollows (isIn : Char → Bool) (text : List Char) (place : Nat) : Checked Bool :=
  if 0 < place then isIn <$> Text.charBefore text place else pure false

def tryIsOpening (text : List Char) (tag : Match) : Checked Bool := do
  let follows ← tryFollows isNameChar text tag.whole.first.offset
  let name ← tag.groupAt 0
  match distanceToEnd? none 0 tag.stop.rest with
  | some distance =>
      let last ← Text.charBefore text (tag.stop.offset + distance)
      return !follows && !isVoid name && last != '/'
  | none => return false

def compare (opened closed : Count) : List Finding :=
  (opened.filterMap fun (name, count) =>
    if closed.of name < count then some (.unclosed name count (closed.of name)) else none) ++
  closed.filterMap fun (name, count) =>
    if opened.of name < count then some (.unopened name) else none

def tryFindings (text : List Char) : Checked (List Finding) := do
  let opened ← (openTag.findAll text).mapM fun tag => do
    if ← tryIsOpening text tag then return some (← tag.groupAt 0) else return none
  let closed ← (closeTag.findAll text).mapM (·.groupAt 0)
  return compare (tally (opened.filterMap id)) (tally closed)

/-- The last character of a tag, if there is one, stands before the place where the tag ends. -/
def StandsBefore (text : List Char) (place : Nat) (last? : Option Char) : Option Nat → Prop
  | some distance => ∃ last, last? = some last ∧
      Text.charBefore text (place + distance) = .ok last
  | none => last? = none

theorem standsBefore_lastOfTag? {read : List Char} {previous : Char}
    (h : read.getLast? = some previous) (quote : Option Char) (depth : Int) (rest : List Char) :
    StandsBefore (read ++ rest) read.length (lastOfTag? quote depth previous rest)
      (distanceToEnd? quote depth rest) := by
  induction rest generalizing read previous quote depth with
  | nil => rfl
  | cons c rest ih =>
      have onward (quote : Option Char) (depth : Int) :
          StandsBefore (read ++ c :: rest) read.length (lastOfTag? quote depth c rest)
            ((distanceToEnd? quote depth rest).map (· + 1)) := by
        have ended : (read ++ [c]).getLast? = some c := by simp
        have later := ih ended quote depth
        cases found : distanceToEnd? quote depth rest with
        | none => simpa [found, StandsBefore] using later
        | some distance =>
            rw [found] at later
            simpa [StandsBefore, Nat.add_assoc, Nat.add_comm 1] using later
      unfold distanceToEnd? lastOfTag?
      cases quote with
      | some mark => exact onward _ _
      | none =>
          dsimp only
          split
          · exact onward _ _
          split
          · exact onward _ _
          split
          · exact onward _ _
          split
          · exact ⟨previous, rfl, Text.charBefore_append h (c :: rest)⟩
          split
          · rfl
          · exact onward _ _

theorem tryFollows_eq (isIn : Char → Bool) {text lead : List Char} {here : Cursor}
    (reads : (Cursor.start text).Reads lead here) :
    tryFollows isIn text here.offset = .ok (here.follows isIn) := by
  obtain ⟨text_eq, offset_eq, before_eq⟩ := reads.place_eq
  rw [tryFollows, offset_eq, Cursor.follows, before_eq, text_eq]
  cases ended : lead.getLast? with
  | none => simp [List.getLast?_eq_none_iff.1 ended]
  | some c =>
      have some : 0 < lead.length := List.length_pos_of_mem (List.mem_of_getLast? ended)
      rw [if_pos some, Text.charBefore_append ended, Checked.map_ok]

theorem tryIsOpening_eq {text : List Char} {tag : Match} (mem : tag ∈ openTag.findAll text) :
    tryIsOpening text tag = .ok (isOpening tag) := by
  have named : tag.groupAt 0 = .ok (tag.group 0) := groupAt_of_mem_findAll (by decide) mem
  obtain ⟨lead, here, reads, found_at⟩ := at?_of_mem_findAll mem
  have cuts := cuts_of_at? reads found_at
  have start : tag.whole.first = here := by
    obtain ⟨last, -, rfl⟩ := exists_end_of_at? found_at
    rfl
  have follows := tryFollows_eq isNameChar reads
  rw [← start] at follows
  obtain ⟨previous, ended⟩ : ∃ previous, (lead ++ tag.text).getLast? = some previous := by
    have opener := (infix_of_at? ['<'] rfl found_at).subset (List.mem_singleton_self _)
    have some : lead ++ tag.text ≠ [] :=
      List.ne_nil_of_mem (List.mem_append_right lead opener)
    exact ⟨_, List.getLast?_eq_some_getLast some⟩
  have last := standsBefore_lastOfTag? ended none 0 tag.stop.rest
  rw [← cuts.text_eq, ← cuts.stop_eq] at last
  unfold tryIsOpening isOpening
  simp only [follows, named, Checked.ok_bind, cuts.before_eq, ended, Option.getD_some]
  cases found : distanceToEnd? none 0 tag.stop.rest with
  | none =>
      rw [found, StandsBefore] at last
      simp [last]
  | some distance =>
      rw [found] at last
      obtain ⟨c, last, before⟩ := last
      simp [last, before]

theorem tryFindings_eq (text : List Char) : tryFindings text = .ok (findings text) := by
  have opens : ∀ tag ∈ openTag.findAll text,
      (do if ← tryIsOpening text tag then return some (← tag.groupAt 0) else return none) =
        (.ok (if isOpening tag then some (tag.group 0) else none) :
          Checked (Option (List Char))) := by
    intro tag mem
    rw [tryIsOpening_eq mem, Checked.ok_bind, groupAt_of_mem_findAll (by decide) mem]
    split <;> rfl
  rw [tryFindings, Checked.mapM_eq_ok opens, Checked.ok_bind,
    Checked.mapM_eq_ok fun _ mem => groupAt_of_mem_findAll (by decide) mem, Checked.ok_bind]
  have names : ((openTag.findAll text).map fun tag =>
      if isOpening tag then some (tag.group 0) else none).filterMap id =
        ((openTag.findAll text).filter isOpening).map (·.group 0) := by
    induction openTag.findAll text with
    | nil => rfl
    | cons tag tags ih =>
        rw [List.map_cons, List.filterMap_cons, List.filter_cons, ih]
        cases isOpening tag <;> rfl
  rw [names]
  rfl

end Balance

namespace Script

open Annotation

/-- The script of a text, with the default export in a slot. -/
def tryOfText (slot : String) (text : List Char) : Checked Script := do
  let text ← Declaration.tryErase text
  let text := eraseArrowReturnTypes (eraseReturnTypes text)
  let text ← tryEraseParameterTypes text
  let text ← tryEraseBindingTypes text
  let text ← Modules.tryAssignDefaultExport slot (Modules.eraseImports text)
  let text := Modules.eraseExports text
  let findings ← Balance.tryFindings text
  return ⟨text, findings.map Balance.Finding.message⟩

/-- Every text has a script. -/
theorem tryOfText_eq (text : List Char) :
    tryOfText entrySlot text = .ok (ofText entryAssignment text) := by
  rw [tryOfText, Declaration.tryErase_eq, Checked.ok_bind]
  dsimp only
  rw [tryEraseParameterTypes_eq, Checked.ok_bind, tryEraseBindingTypes_eq, Checked.ok_bind,
    Modules.tryAssignDefaultExport_eq, Checked.ok_bind]
  rw [Balance.tryFindings_eq, Checked.ok_bind]
  simp only [ofText, ofResult, textOf, Rule.all, List.foldl_cons, List.foldl_nil, Rule.apply,
    Checked.pure_eq]

end Script

end ComponentPreview
