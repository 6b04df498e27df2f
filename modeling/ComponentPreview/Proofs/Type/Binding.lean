import ComponentPreview.Proofs.Script.Assembly
import ComponentPreview.Proofs.Type.Declarator

/-!
# Types of bindings

The type of a binding is found up to an assignment, as long as neither an equals sign nor a
semicolon stands before it. So it is erased if it holds no function type and no separated members,
and what is bound holds no default, and otherwise the declaration stays as it is
(`bindingTypes_erased`). Nothing else in it fits the patterns.
-/

namespace ComponentPreview

open Pattern

namespace Annotation

open Component
open Pass (bindingPattern)

variable {here there : Cursor} {first last : Progress} {found : Match} {body : Pattern}
  {rest : List Char} {type : PlainType} {binding : BindingText}

/-! ## An annotation before an assignment -/

theorem bindingType_parts : bindingType = spacing ++ (lit ":" ++ (many isBlank ++
    (one isBindingTypeChar ++ (few isBindingTypeChar (beginsAfterBlanks '=') ++
      ahead (spacing ++ (lit "=" ++ one fun c => c != '=' && c != '>')))))) :=
  rfl

def endsBindingType (c : Char) : Bool :=
  c == '=' || c == ';'

/-- A colon, and then no semicolon and no equals sign before that of an assignment. -/
def Typed (rest : List Char) : Prop :=
  ∃ blanks typed c more, rest = blanks ++ ':' :: (typed ++ '=' :: c :: more) ∧
    (∀ d ∈ blanks, isBlank d = true) ∧ (∀ d ∈ typed, endsBindingType d = false) ∧ c ≠ '>'

theorem not_endsBindingType_of_isBlank {c : Char} (blank : isBlank c = true) :
    endsBindingType c = false := by
  rw [Bool.eq_false_iff]
  intro ends
  rw [endsBindingType, Bool.or_eq_true, beq_iff_eq, beq_iff_eq] at ends
  rcases ends with rfl | rfl <;> exact absurd blank (by decide)

theorem not_endsBindingType_of_isBindingTypeChar {c : Char} (isIn : isBindingTypeChar c = true) :
    endsBindingType c = false := by
  simp only [isBindingTypeChar, Bool.and_eq_true, bne_iff_ne] at isIn
  simp [endsBindingType, isIn.1]

theorem typed_of_mem_bindingType (h : last ∈ bindingType.ends first) : Typed first.here.rest := by
  rw [bindingType_parts] at h
  obtain ⟨_, spaces, h⟩ := mem_ends_append.1 h
  obtain ⟨_, colons, h⟩ := mem_ends_append.1 h
  obtain ⟨_, spaces', h⟩ := mem_ends_append.1 h
  obtain ⟨_, starts, h⟩ := mem_ends_append.1 h
  obtain ⟨_, others, h⟩ := mem_ends_append.1 h
  obtain ⟨⟨_, h⟩, -⟩ := mem_ends_ahead.1 h
  obtain ⟨_, spaces'', h⟩ := mem_ends_append.1 h
  obtain ⟨_, equals, h⟩ := mem_ends_append.1 h
  obtain ⟨blanks, place₁, reads₁, areBlank, -, rfl⟩ := mem_ends_every.1 spaces
  obtain ⟨place₂, reads₂, rfl⟩ := mem_ends_lit.1 colons
  obtain ⟨blanks', place₃, reads₃, areBlank', rfl⟩ := mem_ends_many.1 spaces'
  obtain ⟨d, place₄, isIn, reads₄, rfl⟩ := mem_ends_one.1 starts
  obtain ⟨word, place₅, reads₅, within, -, rfl⟩ := mem_ends_few.1 others
  obtain ⟨blanks'', place₆, reads₆, areBlank'', -, rfl⟩ := mem_ends_every.1 spaces''
  obtain ⟨place₇, reads₇, rfl⟩ := mem_ends_lit.1 equals
  obtain ⟨c, place₈, other, reads₈, rfl⟩ := mem_ends_one.1 h
  have typed := reads₃.trans (reads₄.trans (reads₅.trans reads₆))
  have whole := (reads₁.trans (reads₂.trans (typed.trans (reads₇.trans reads₈)))).rest_eq
  have unequal : c ≠ '=' ∧ c ≠ '>' := by simpa using other
  refine ⟨blanks, blanks' ++ ([d] ++ (word ++ blanks'')), c, place₈.rest, by simpa using whole,
    areBlank, ?_, unequal.2⟩
  have blank {blanks : List Char} (areBlank : ∀ d ∈ blanks, isBlank d = true) :
      ∀ d ∈ blanks, endsBindingType d = false :=
    fun d mem => not_endsBindingType_of_isBlank (areBlank d mem)
  have typed {word : List Char} (within : ∀ d ∈ word, isBindingTypeChar d = true) :
      ∀ d ∈ word, endsBindingType d = false :=
    fun d mem => not_endsBindingType_of_isBindingTypeChar (within d mem)
  exact List.forall_mem_append.2 ⟨blank areBlank', List.forall_mem_append.2
    ⟨typed (List.forall_mem_singleton.2 isIn), List.forall_mem_append.2
      ⟨typed within, blank areBlank''⟩⟩⟩

theorem Typed.firstVisible? (typed : Typed rest) : firstVisible? rest = some ':' := by
  obtain ⟨blanks, word, c, more, rfl, areBlank, -⟩ := typed
  rw [firstVisible?_append areBlank, firstVisible?_cons (by decide)]

/-- The first sign that ends the search in a type is not that of the assignment. -/
theorem Typed.type_clean (typed : Typed (typeNote type ++ rest)) :
    ∀ c ∈ type.text, endsBindingType c = false := by
  obtain ⟨blanks, word, c, more, whole, areBlank, clean, other⟩ := typed
  obtain ⟨-, -, behind⟩ := Text.first_unique (!isBlank ·)
    (show [] ++ ':' :: ([' '] ++ (type.text ++ rest)) = blanks ++ ':' :: (word ++ '=' :: c :: more)
      from whole) (by simp) (by decide) (by simpa using areBlank) (by decide)
  cases sign : type.text.find? endsBindingType with
  | none => simpa using List.find?_eq_none.1 sign
  | some mark =>
      obtain ⟨ends, front, back, eq, clean'⟩ := List.find?_eq_some_iff_append.1 sign
      rw [eq] at behind
      obtain ⟨-, rfl, behind'⟩ := Text.first_unique endsBindingType
        (show (' ' :: front) ++ mark :: (back ++ rest) = word ++ '=' :: c :: more by
          simpa using behind)
        (List.forall_mem_cons.2 ⟨by decide, by simpa using clean'⟩) ends clean (by decide)
      -- It would be the equals sign of an arrow.
      have arrow : (back ++ rest).head? = some '>' := Arrowed.goes (type.arrowed front back eq)
      rw [behind'] at arrow
      exact absurd (Option.some.inj arrow) other

/-! ## A binding with a type -/

theorem not_isBlank_of_binds {c : Char} (binds : (isNameStart c || isOpener c) = true) :
    isBlank c = false := by
  rw [isOpener, Bool.or_eq_true, Bool.or_eq_true, beq_iff_eq, beq_iff_eq] at binds
  rcases binds with isStart | rfl | rfl
  · exact not_isBlank_of_isNameChar (isNameChar_of_isNameStart c isStart)
  · decide
  · decide

/-- What a pattern describes begins with a name or an opening bracket. -/
def BeginsBinding (body : Pattern) : Prop :=
  ∀ first last, last ∈ body.ends first →
    ∃ c rest, first.here.rest = c :: rest ∧ (isNameStart c || isOpener c) = true

theorem beginsBinding_name : BeginsBinding name := by
  intro first last ends
  obtain ⟨word, there, ⟨c, others, rfl, isStart, -⟩, reads, -⟩ := mem_ends_name.1 ends
  exact ⟨c, _, reads.rest_eq, by rw [isStart, Bool.true_or]⟩

/-- A pattern without further patterns in it. -/
def flatPattern : Pattern :=
  one isOpener ++ (few (fun c => c != '=' && c != ';') (begins isCloser) ++ one isCloser)

theorem exists_of_mem_flatPattern (h : last ∈ flatPattern.ends first) :
    ∃ opener word closer, first.here.Reads (opener :: (word ++ [closer])) last.here ∧
      isOpener opener = true ∧ (∀ c ∈ word, c ≠ '=') ∧ isCloser closer = true := by
  obtain ⟨_, opens, h⟩ := mem_ends_append.1 h
  obtain ⟨_, inner, closes⟩ := mem_ends_append.1 h
  obtain ⟨opener, place₁, isOpener, reads₁, rfl⟩ := mem_ends_one.1 opens
  obtain ⟨word, place₂, reads₂, within, -, rfl⟩ := mem_ends_few.1 inner
  obtain ⟨closer, place₃, isCloser, reads₃, rfl⟩ := mem_ends_one.1 closes
  have clean : ∀ c ∈ word, c ≠ '=' := fun c mem => by
    have isIn := within c mem
    simp only [Bool.and_eq_true, bne_iff_ne] at isIn
    exact isIn.1
  exact ⟨opener, word, closer, reads₁.trans (reads₂.trans reads₃), isOpener, clean, isCloser⟩

theorem beginsBinding_flatPattern : BeginsBinding flatPattern := by
  intro first last ends
  obtain ⟨opener, word, closer, reads, isOpener, -⟩ := exists_of_mem_flatPattern ends
  exact ⟨opener, _, reads.rest_eq, by rw [isOpener, Bool.or_true]⟩

theorem parts_of_binding (h : (bindingPattern body).at? here = some found) :
    ∃ (keyword : BindingKeyword) (blanks : List Char) (start : Cursor) (last : Progress),
      here.Reads (keyword.text.toList ++ blanks) start ∧
      (blanks ≠ [] ∧ ∀ c ∈ blanks, isBlank c = true) ∧ last ∈ body.ends ⟨start, []⟩ ∧
      Typed last.here.rest := by
  obtain ⟨_, ends, -⟩ := exists_end_of_at? h
  obtain ⟨_, edge, ends⟩ := mem_ends_append.1 ends
  obtain ⟨-, rfl⟩ := mem_ends_wordEdge.1 edge
  obtain ⟨_, captured, types⟩ := mem_ends_append.1 ends
  obtain ⟨last, declares, rfl⟩ := mem_ends_capture.1 captured
  obtain ⟨_, declares, binds⟩ := mem_ends_append.1 declares
  obtain ⟨_, opens, gaps⟩ := mem_ends_append.1 declares
  obtain ⟨word, mem, spelled⟩ := mem_ends_anyOf.1 opens
  obtain ⟨place, reads, rfl⟩ := mem_ends_lit.1 spelled
  obtain ⟨blanks, start, some, areBlank, reads', -, rfl⟩ := mem_ends_gap.1 gaps
  obtain ⟨keyword, rfl⟩ : ∃ keyword : BindingKeyword, keyword.text = word := by
    simp only [List.mem_cons, List.not_mem_nil, or_false] at mem
    rcases mem with rfl | rfl | rfl
    · exact ⟨.const, rfl⟩
    · exact ⟨.block, rfl⟩
    · exact ⟨.var, rfl⟩
  have typed := typed_of_mem_bindingType types
  exact ⟨keyword, blanks, start, last, reads.trans reads', ⟨some, areBlank⟩, binds, typed⟩

/-- A pattern of bindings fits nothing behind the keyword. -/
theorem passes_binding {word : List Char} (begins : BeginsBinding body)
    (along : Along FitsWord word []) (reads : here.Reads word there) (ended : there.rest = []) :
    (bindingPattern body).Passes here word := by
  intro lead middle reads' shorter
  rw [Option.eq_none_iff_forall_ne_some]
  intro found found_at
  obtain ⟨keyword, blanks, start, last, spelled, ⟨some, areBlank⟩, ends, -⟩ :=
    parts_of_binding found_at
  obtain ⟨front, c, eq⟩ := keyword.text.toList.eq_nil_or_concat.resolve_left
    (by cases keyword <;> decide)
  rw [List.concat_eq_append] at eq
  have whole : word = (lead ++ front) ++ c :: (blanks ++ start.rest) := by
    have behind := reads.rest_eq.symm.trans (reads'.trans spelled).rest_eq
    rw [ended, eq] at behind
    simpa using behind
  have isName := keyword.isNameChar_of_mem c (by simp [eq])
  refine (along _ _ _ whole).name isName ⟨?_, ?_⟩
  · obtain ⟨d, blanks, rfl⟩ := List.exists_cons_of_ne_nil some
    exact areBlank d List.mem_cons_self
  · obtain ⟨d, more, rest_eq, binds⟩ := begins _ _ ends
    refine ⟨d, ?_, binds⟩
    rw [List.append_nil, firstVisible?_append areBlank, show start.rest = d :: more from rest_eq]
    exact firstVisible?_cons (not_isBlank_of_binds binds) more

/-- A declaration that is not found stays. -/
theorem replace_unfound_binding {type : Option PlainType} (edit : Match → List Char)
    (begins : BeginsBinding body)
    (unfound : (bindingPattern body).at? (.start (binding.text type)) = none) :
    (bindingPattern body).replace edit (binding.text type) = binding.text type := by
  obtain ⟨c, others, eq, clean⟩ : ∃ c others, binding.keyword.text.toList = c :: others ∧
      ∀ d ∈ others, ['c', 'l', 'v'].contains d = false := by
    cases binding.keyword
    · exact ⟨'c', "onst".toList, rfl, by simp⟩
    · exact ⟨'l', "et".toList, rfl, by simp⟩
    · exact ⟨'v', "ar".toList, rfl, by simp⟩
  have parts : binding.text type = [c] ++ (others ++ binding.tail type) := by
    rw [BindingText.text, eq]
    rfl
  rw [parts] at unfound ⊢
  obtain ⟨place₁, reads₁, rest_eq₁⟩ := exists_reads_start [c] (others ++ binding.tail type)
  obtain ⟨place₂, reads₂, rest_eq₂⟩ := exists_reads others rest_eq₁
  obtain ⟨place₃, reads₃, rest_eq₃⟩ := exists_reads_rest rest_eq₂
  have first :
      (bindingPattern body).Passes (.start ([c] ++ (others ++ binding.tail type))) [c] := by
    intro lead middle reads shorter
    obtain rfl : lead = [] := List.length_eq_zero_iff.1 (by simpa using shorter)
    rwa [Cursor.Reads.nil_iff.1 reads]
  have heads (here : Cursor) (found : Match)
      (found_at : (bindingPattern body).at? here = some found) :
      Pattern.begins (['c', 'l', 'v'].contains ·) here.rest = true := by
    obtain ⟨d, mem, head⟩ := Pass.head_of_binding found_at
    obtain ⟨rest, eq⟩ := List.head?_eq_some_iff.1 head
    rw [eq]
    exact List.contains_iff_mem.2 mem
  have rewrites : (bindingPattern body).Rewrites edit _ ([c] ++ (others ++ binding.tail type))
      place₃ :=
    (Rewrites.of_passes reads₁ first).append ((Rewrites.of_passes reads₂ (.of_heads heads reads₂
      clean)).append (.of_passes reads₃ (passes_binding begins (binding.along_tail type) reads₃
        rest_eq₃)))
  exact rewrites.replace_eq rest_eq₃

/-- Where a declaration begins to be found, the search stands before what is bound. -/
theorem exists_of_first {type : Option PlainType}
    (h : (bindingPattern body).at? (.start (binding.text type)) = some found) :
    ∃ start last,
      start.rest = binding.target.text ++ (type.elim [] typeNote ++ binding.assignment) ∧
      last ∈ body.ends ⟨start, []⟩ ∧ Typed last.here.rest := by
  obtain ⟨keyword, blanks, start, last, reads, ⟨some, areBlank⟩, ends, typed⟩ := parts_of_binding h
  refine ⟨start, last, ?_, ends, typed⟩
  obtain ⟨b, blanks, rfl⟩ := List.exists_cons_of_ne_nil some
  obtain ⟨isBlank_b, areBlank⟩ := List.forall_mem_cons.1 areBlank
  have unspaced (keyword : BindingKeyword) : ∀ c ∈ keyword.text.toList, isBlank c = false :=
    fun c mem => not_isBlank_of_isNameChar (keyword.isNameChar_of_mem c mem)
  have whole : binding.keyword.text.toList ++ ' ' :: (binding.target.text ++
      (type.elim [] typeNote ++ binding.assignment)) =
        keyword.text.toList ++ b :: (blanks ++ start.rest) :=
    reads.rest_eq.trans (List.append_assoc _ _ _)
  obtain ⟨-, -, behind⟩ :=
    Text.first_unique isBlank whole (unspaced _) (by decide) (unspaced _) isBlank_b
  cases blanks with
  | nil => exact behind.symm
  | cons d blanks =>
      obtain ⟨c, others, eq, shown⟩ := binding.target.exists_head
      rw [eq, List.cons_append, List.cons_append, List.cons.injEq] at behind
      obtain ⟨rfl, -⟩ := behind
      rw [areBlank c List.mem_cons_self] at shown
      cases shown

theorem typed_of_named {type : Option PlainType}
    (h : namedBinding.at? (.start (binding.text type)) = some found) :
    (∃ id, binding.target = .name id) ∧
      Typed (type.elim [] typeNote ++ binding.assignment) := by
  obtain ⟨start, last, start_eq, ends, typed⟩ := exists_of_first h
  cases target : binding.target with
  | pattern shape slots =>
      obtain ⟨word, there, ⟨c, others, rfl, isStart, -⟩, reads, -⟩ := mem_ends_name.1 ends
      have whole := start_eq.symm.trans reads.rest_eq
      rw [target] at whole
      obtain ⟨rfl, -⟩ := List.cons.inj whole
      cases shape <;> exact absurd isStart (by decide)
  | name id =>
      refine ⟨⟨id, rfl⟩, ?_⟩
      obtain ⟨word, there, identifier, reads, stop, rfl⟩ := mem_ends_name.1 ends
      have behind : ∃ c more, type.elim [] typeNote ++ binding.assignment = c :: more ∧
          isNameChar c = false := by
        cases type with
        | none => exact ⟨' ', _, rfl, by decide⟩
        | some type => exact ⟨':', _, rfl, by decide⟩
      obtain ⟨c, more, behind_eq, noName⟩ := behind
      obtain ⟨d, more', there_eq⟩ : ∃ d more, there.rest = d :: more :=
        List.exists_cons_of_ne_nil fun none => by
          have visible := typed.firstVisible?
          rw [show ((Progress.moveTo ⟨start, []⟩ there).here.rest) = [] from none] at visible
          cases visible
      have names := isNameChar_of_mem_identifier identifier
      have whole : id.text ++ c :: more = word ++ d :: more' := by
        rw [← behind_eq, ← there_eq, ← reads.rest_eq, start_eq, target]
        rfl
      have stop : isNameChar d = false := by rwa [there_eq] at stop
      obtain ⟨-, rfl, rfl⟩ := Text.first_unique (!isNameChar ·) whole
        (by simpa using fun c => id.isNameChar_of_mem) (by simpa using noName)
        (by simpa using names) (by simpa using stop)
      rw [behind_eq, ← there_eq]
      exact typed

theorem typed_of_destructured {type : Option PlainType}
    (h : destructuredBinding.at? (.start (binding.text type)) = some found) :
    (∃ shape slots, binding.target = .pattern shape slots) ∧ '=' ∉ binding.target.text ∧
      Typed (type.elim [] typeNote ++ binding.assignment) := by
  obtain ⟨start, last, start_eq, ends, typed⟩ := exists_of_first h
  obtain ⟨opener, word, closer, reads, opens, clean, closes⟩ := exists_of_mem_flatPattern ends
  cases target : binding.target with
  | name id =>
      obtain ⟨c, others, eq, isStart, -⟩ := id.exists_head
      have whole := start_eq.symm.trans reads.rest_eq
      rw [target, BindingTarget.text, eq, List.cons_append, List.cons_append, List.cons.injEq]
        at whole
      obtain ⟨rfl, -⟩ := whole
      rw [isOpener, Bool.or_eq_true, beq_iff_eq, beq_iff_eq] at opens
      rcases opens with rfl | rfl <;> exact absurd isStart (by decide)
  | pattern shape slots =>
      have whole : BindingTarget.listed slots ++ shape.closer :: (type.elim [] typeNote ++
          binding.assignment) = word ++ closer :: last.here.rest := by
        have whole := start_eq.symm.trans reads.rest_eq
        rw [target] at whole
        simpa [BindingTarget.text] using (List.cons.inj whole).2
      have closed : ∀ c ∈ BindingTarget.listed slots, isCloser c = false :=
        fun _ => BindingTarget.not_isCloser_of_mem_listed
      -- The bracket before the colon is the first one that closes.
      obtain ⟨rfl, -, behind⟩ : BindingTarget.listed slots = word ∧ shape.closer = closer ∧
          type.elim [] typeNote ++ binding.assignment = last.here.rest := by
        rcases List.append_eq_append_iff.1 whole with
          ⟨_ | ⟨c, more⟩, rfl, eq⟩ | ⟨_ | ⟨c, more⟩, eq', eq⟩
        · rw [List.append_nil]
          exact ⟨rfl, List.cons.inj eq⟩
        · rw [List.cons_append, List.cons.injEq] at eq
          have fits := binding.along_note type more closer last.here.rest eq.2
          exact absurd typed.firstVisible? (by simpa using fits.bracket closes)
        · rw [List.append_nil] at eq'
          exact ⟨eq', (List.cons.inj eq).1.symm, (List.cons.inj eq).2.symm⟩
        · rw [List.cons_append, List.cons.injEq] at eq
          have inside := closed closer (by simp [eq', eq.1])
          rw [closes] at inside
          cases inside
      rw [behind]
      refine ⟨⟨shape, slots, rfl⟩, fun mem => ?_, typed⟩
      rcases List.mem_cons.1 mem with equal | mem
      · cases shape <;> exact absurd equal (by decide)
      · rcases List.mem_append.1 mem with mem | mem
        · exact clean _ mem rfl
        · rw [List.mem_singleton] at mem
          cases shape <;> exact absurd mem (by decide)

/-! ## Erasing the type -/

theorem isBindingTypeChar_of_mem {type : PlainType} (clean : '=' ∉ type.text ∧ ';' ∉ type.text) :
    ∀ c ∈ type.text, isBindingTypeChar c = true := by
  have newline : '\n' ∉ type.text := by
    refine TypeExpr.text_induction (P := ('\n' ∉ ·)) (by simp_all) (fun id mem => ?_)
      (fun gap mem => (gap.within _ mem).2 rfl) (fun _ _ _ isWord => isWord.elim) ?_ ?_ type
    · exact absurd (id.isNameChar_of_mem mem) (by decide)
    · rintro c sign - - mem
      rw [← List.mem_singleton.1 mem] at sign
      exact absurd sign (by decide)
    · simpa using fun gap mem => (Gap.within gap _ mem).2 rfl
  intro c mem
  have other {d : Char} (absent : d ∉ type.text) : c ≠ d := by
    rintro rfl
    exact absent mem
  simp [isBindingTypeChar, other clean.1, other clean.2, other newline]

theorem prefers_keyword {keyword : BindingKeyword} (reads : here.Reads keyword.text.toList there) :
    (anyOf ["const", "let", "var"]).Prefers here there := by
  have listed : keyword.text ∈ ["const", "let", "var"] := by cases keyword <;> decide
  refine .of_unique (mem_ends_anyOf.2 ⟨_, listed, mem_ends_lit.2 ⟨there, reads, rfl⟩⟩)
    fun other ends => ?_
  obtain ⟨word, mem, spelled⟩ := mem_ends_anyOf.1 ends
  obtain ⟨there', reads', rfl⟩ := mem_ends_lit.1 spelled
  obtain rfl : word = keyword.text := by
    have whole := reads'.rest_eq.symm.trans reads.rest_eq
    simp only [List.mem_cons, List.not_mem_nil, or_false] at mem
    rcases mem with rfl | rfl | rfl <;> cases keyword <;> simp [BindingKeyword.text] at whole ⊢
  rw [reads'.unique reads]
  rfl

theorem prefers_bindingType {type : PlainType} (clean : '=' ∉ type.text ∧ ';' ∉ type.text)
    (reads : here.Reads (typeNote type) there) (rest_eq : there.rest = binding.assignment) :
    bindingType.Prefers here there := by
  obtain ⟨c, others, text_eq, shown⟩ := type.exists_head rfl
  have within := isBindingTypeChar_of_mem clean
  rw [text_eq] at within
  obtain ⟨isIn, within⟩ := List.forall_mem_cons.1 within
  have parts : here.Reads (":".toList ++ (" ".toList ++ ([c] ++ others))) there := by
    rwa [typeNote, text_eq] at reads
  obtain ⟨place₁, reads₁, parts⟩ := parts.exists_middle
  obtain ⟨place₂, reads₂, parts⟩ := parts.exists_middle
  obtain ⟨place₃, reads₃, reads₄⟩ := parts.exists_middle
  have unspaced : begins isBlank here.rest = false := by
    rw [reads₁.rest_eq]
    rfl
  have unspaced' : begins isBlank place₂.rest = false := by
    rw [reads₃.rest_eq]
    exact shown
  have last_shown : ∀ d ∈ others.getLast?, isBlank d = false := by
    intro d mem
    obtain ⟨front, e, eq, shown⟩ := type.exists_last rfl
    have last : (c :: others).getLast? = some e := by
      rw [← text_eq, eq, List.getLast?_append]
      rfl
    rw [List.getLast?_cons, mem] at last
    cases last
    exact shown
  have assigned : ∃ later, later ∈
      (spacing ++ (lit "=" ++ one fun c => c != '=' && c != '>')).ends ⟨there, []⟩ := by
    have there_eq : there.rest = [' '] ++ '=' :: ' ' :: (binding.value.text ++ [';']) := rest_eq
    obtain ⟨spaced, spaces, rest_eq₁⟩ := exists_spacing ⟨there, []⟩ there_eq
      (List.all_eq_true.1 (by decide)) (by decide)
    obtain ⟨place₅, reads₅, rest_eq₂⟩ := exists_reads "=".toList rest_eq₁
    obtain ⟨place₆, reads₆, -⟩ := exists_reads [' '] rest_eq₂
    exact ⟨_, mem_ends_append.2 ⟨spaced, spaces, mem_ends_append.2
      ⟨_, mem_ends_lit.2 ⟨place₅, reads₅, rfl⟩,
        mem_ends_one.2 ⟨' ', place₆, by decide, reads₆, rfl⟩⟩⟩⟩
  rw [bindingType_parts]
  exact (Prefers.every (.refl _) (by simp) unspaced).append ((Prefers.lit reads₁).append
    ((Prefers.many reads₂ (List.all_eq_true.1 (by decide)) unspaced').append
      ((Prefers.one isIn reads₃).append
        ((prefers_rest reads₄ within last_shown (by decide) rest_eq).append (.ahead assigned)))))

/-- A declaration that is found loses its type. -/
theorem replace_found_binding {type : PlainType} (begins : BeginsBinding body)
    (clean : '=' ∉ type.text ∧ ';' ∉ type.text)
    (found : ∀ here there : Cursor, here.Reads binding.target.text there →
      there.rest = typeNote type ++ binding.assignment → body.Prefers here there) :
    (bindingPattern body).replace (·.group 0) (binding.text (some type)) = binding.text none := by
  obtain ⟨place₁, reads₁, rest_eq₁⟩ :=
    exists_reads_start binding.keyword.text.toList (binding.tail (some type))
  obtain ⟨place₂, reads₂, rest_eq₂⟩ := exists_reads [' '] rest_eq₁
  obtain ⟨place₃, reads₃, rest_eq₃⟩ := exists_reads binding.target.text rest_eq₂
  obtain ⟨place₄, reads₄, rest_eq₄⟩ := exists_reads (typeNote type) rest_eq₃
  obtain ⟨place₅, reads₅, rest_eq₅⟩ := exists_reads_rest rest_eq₄
  have edge : wordEdge.Prefers (.start (binding.text (some type)))
      (.start (binding.text (some type))) := by
    refine .wordEdge ?_
    cases keyword : binding.keyword <;>
      simp [Cursor.follows, Cursor.precedes, Cursor.start, BindingText.text, keyword,
        BindingKeyword.text] <;> decide
  have unspaced : Pattern.begins isBlank place₂.rest = false := by
    obtain ⟨c, others, eq, shown⟩ := binding.target.exists_head
    rw [rest_eq₂, eq]
    exact shown
  have space : gap.Prefers place₁ place₂ :=
    (Prefers.one (by decide) reads₂).append (.every (.refl _) (by simp) unspaced)
  have declares : (declarator ++ body).Prefers (.start (binding.text (some type))) place₃ :=
    ((prefers_keyword reads₁).append space).append (found place₂ place₃ reads₃ rest_eq₃)
  have whole := reads₁.trans (reads₂.trans reads₃)
  obtain ⟨found, found_at, group, stop_eq⟩ := exists_at?_of_head?
    (edge.head?_append (declares.head?_capture (prefers_bindingType clean reads₄ rest_eq₄))) whole
  have some : found.text ≠ [] := by
    have text_eq := (reads_of_at? found_at).word_unique (stop_eq ▸ whole.trans reads₄)
    rw [text_eq]
    simp
  have first : (bindingPattern body).Rewrites (·.group 0) (.start (binding.text (.some type)))
      (found.group 0) found.stop := .of_at? found_at some
  rw [group, stop_eq] at first
  have passes : (bindingPattern body).Passes place₄ binding.assignment :=
    passes_binding begins binding.along_assignment.to_word reads₅ rest_eq₅
  have rewrites : (bindingPattern body).Rewrites (·.group 0) (.start (binding.text (.some type)))
      (binding.keyword.text.toList ++ ([' '] ++ binding.target.text) ++ binding.assignment)
      place₅ :=
    first.append (.of_passes reads₅ passes)
  rw [rewrites.replace_eq rest_eq₅]
  simp [BindingText.text, BindingText.tail]

/-! ## Type arguments of hooks -/

/-- What ends the type arguments of a hook is no arrow, and a parenthesis follows it. -/
theorem angle_of_hook (h : hookGeneric.at? here = some found) :
    ∃ front arguments blanks more,
      here.rest = front ++ '<' :: (arguments ++ '>' :: (blanks ++ '(' :: more)) ∧
      '=' ∉ arguments ∧ ∀ c ∈ blanks, isBlank c = true := by
  rw [Pass.hook_parts] at h
  obtain ⟨last, ends, -⟩ := exists_end_of_at? h
  obtain ⟨_, edge, ends⟩ := mem_ends_append.1 ends
  obtain ⟨-, rfl⟩ := mem_ends_wordEdge.1 edge
  obtain ⟨_, names, ends⟩ := mem_ends_append.1 ends
  obtain ⟨_, spaces, ends⟩ := mem_ends_append.1 ends
  obtain ⟨_, angle, ends⟩ := mem_ends_append.1 ends
  obtain ⟨_, items, ends⟩ := mem_ends_append.1 ends
  obtain ⟨_, nested, ends⟩ := mem_ends_append.1 ends
  obtain ⟨_, items', ends⟩ := mem_ends_append.1 ends
  obtain ⟨_, closes, ends⟩ := mem_ends_append.1 ends
  obtain ⟨_, spaces', calls⟩ := mem_ends_append.1 ends
  have unequal {word : List Char} (within : ∀ c ∈ word, isGenericChar c = true) : '=' ∉ word :=
    fun mem => absurd (within _ mem) (by decide)
  obtain ⟨named, reads₁⟩ := reads_of_mem_ends names
  obtain ⟨blanks, reads₂⟩ := reads_of_mem_ends spaces
  have reads₃ := reads_of_lit angle
  obtain ⟨word, place₄, reads₄, within, -, rfl⟩ := mem_ends_every.1 items
  obtain ⟨inner, reads₅, inner_clean⟩ : ∃ inner, place₄.Reads inner _ ∧ '=' ∉ inner := by
    rcases mem_ends_optional.1 nested with nested | same
    · obtain ⟨_, angle, nested⟩ := mem_ends_append.1 nested
      obtain ⟨_, items, closes⟩ := mem_ends_append.1 nested
      obtain ⟨word, place, reads, within, -, rfl⟩ := mem_ends_every.1 items
      exact ⟨_, (reads_of_lit angle).trans (reads.trans (reads_of_lit closes)),
        by simpa using unequal within⟩
    · exact ⟨[], by rw [same]; exact .refl _, by simp⟩
  obtain ⟨word', place₆, reads₆, within', -, rfl⟩ := mem_ends_every.1 items'
  have reads₇ := reads_of_lit closes
  obtain ⟨blanks', place₈, reads₈, areBlank, -, rfl⟩ := mem_ends_every.1 spaces'
  have reads₉ := reads_of_lit calls
  have arguments := reads₄.trans (reads₅.trans reads₆)
  have whole := ((reads₁.trans reads₂).trans (reads₃.trans (arguments.trans
    (reads₇.trans (reads₈.trans reads₉))))).rest_eq
  refine ⟨named ++ blanks, word ++ (inner ++ word'), blanks', last.here.rest, by simpa using whole,
    ?_, areBlank⟩
  simp [unequal within, unequal within', inner_clean]

/-- No declaration has the type arguments of a hook. -/
theorem replace_hooks (edit : Match → List Char) (binding : BindingText)
    (type : Option PlainType) :
    hookGeneric.replace edit (binding.text type) = binding.text type := by
  obtain ⟨place₁, reads₁, rest_eq₁⟩ :=
    exists_reads_start binding.keyword.text.toList (binding.tail type)
  obtain ⟨place₂, reads₂, rest_eq₂⟩ := exists_reads_rest rest_eq₁
  have heads (here : Cursor) (found : Match) (found_at : hookGeneric.at? here = some found) :
      begins (· == 'u') here.rest = true := by
    obtain ⟨-, name, blanks, rest, rest_eq, ⟨initial, tail, rfl, -⟩, -⟩ :=
      Pass.start_of_hook found_at
    rw [rest_eq]
    rfl
  have keyword : hookGeneric.Passes (.start (binding.text type)) binding.keyword.text.toList :=
    .of_heads heads reads₁ (by cases binding.keyword <;> simp [BindingKeyword.text])
  have tail : hookGeneric.Passes place₁ (binding.tail type) := by
    intro lead middle reads shorter
    rw [Option.eq_none_iff_forall_ne_some]
    intro found found_at
    obtain ⟨front, arguments, blanks, more, rest_eq, clean, areBlank⟩ := angle_of_hook found_at
    have whole : binding.tail type =
        (lead ++ front ++ '<' :: arguments) ++ '>' :: (blanks ++ '(' :: more) := by
      have behind := reads₂.rest_eq.symm.trans reads.rest_eq
      rw [rest_eq₂, rest_eq] at behind
      simpa using behind
    refine (binding.along_tail type _ _ _ whole).arguments rfl (fun arrow => ?_) ?_
    · rw [List.getLast?_append, List.getLast?_cons, Option.some_or, ← List.getLast?_cons] at arrow
      simpa [clean] using List.mem_of_getLast? arrow
    · rw [List.append_nil, firstVisible?_append areBlank, firstVisible?_cons (by decide)]
  have rewrites : hookGeneric.Rewrites edit _ (binding.text type) place₂ :=
    (Rewrites.of_passes reads₁ keyword).append (.of_passes reads₂ tail)
  exact rewrites.replace_eq rest_eq₂

/-! ## All patterns -/

theorem named_stays {type : Option PlainType} (stays : (∃ id, binding.target = .name id) →
    ¬Typed (type.elim [] typeNote ++ binding.assignment)) :
    namedBinding.replace (·.group 0) (binding.text type) = binding.text type := by
  refine replace_unfound_binding _ beginsBinding_name
    (Option.eq_none_iff_forall_ne_some.2 fun found found_at => ?_)
  obtain ⟨named, typed⟩ := typed_of_named found_at
  exact stays named typed

theorem destructured_stays {type : Option PlainType}
    (stays : (∃ shape slots, binding.target = .pattern shape slots) → '=' ∉ binding.target.text →
      ¬Typed (type.elim [] typeNote ++ binding.assignment)) :
    destructuredBinding.replace (·.group 0) (binding.text type) = binding.text type := by
  refine replace_unfound_binding _ beginsBinding_flatPattern
    (Option.eq_none_iff_forall_ne_some.2 fun found found_at => ?_)
  obtain ⟨destructured, clean, typed⟩ := typed_of_destructured found_at
  exact stays destructured clean typed

theorem not_typed_assignment (binding : BindingText) : ¬Typed binding.assignment := by
  intro typed
  have visible : firstVisible? binding.assignment = some '=' := by
    rw [BindingText.assignment, show " = ".toList = [' '] ++ ['=', ' '] from rfl,
      List.append_assoc, firstVisible?_append (List.forall_mem_singleton.2 (by decide))]
    exact firstVisible?_cons (by decide) _
  rw [typed.firstVisible?] at visible
  cases visible

theorem prefers_flatPattern {shape : BindingShape} {slots : List BindingSlot}
    (clean : '=' ∉ BindingTarget.listed slots)
    (reads : here.Reads (BindingTarget.pattern shape slots).text there) :
    flatPattern.Prefers here there := by
  have parts :
      here.Reads ([shape.opener] ++ (BindingTarget.listed slots ++ [shape.closer])) there :=
    reads
  obtain ⟨place₁, reads₁, parts⟩ := parts.exists_middle
  obtain ⟨place₂, reads₂, reads₃⟩ := parts.exists_middle
  have opens : isOpener shape.opener = true := by cases shape <;> decide
  have closes : isCloser shape.closer = true := by cases shape <;> decide
  have within : ∀ c ∈ BindingTarget.listed slots, (c != '=' && c != ';') = true := by
    intro c mem
    rw [Bool.and_eq_true, bne_iff_ne, bne_iff_ne]
    constructor
    · rintro rfl
      exact clean mem
    · rintro rfl
      exact absurd (BindingTarget.sign_of_mem_listed _ mem (by decide)) (by decide)
  refine (Prefers.one opens reads₁).append (Prefers.append (.few reads₂ within ?_ ?_)
    (.one closes reads₃))
  · rw [reads₃.rest_eq]
    exact closes
  · intro lead middle reads shorter
    obtain ⟨c, others, eq, rest_eq⟩ := reads₂.exists_ahead reads shorter
    have mem : c ∈ BindingTarget.listed slots := by simp [eq]
    rw [rest_eq]
    exact BindingTarget.not_isCloser_of_mem_listed mem

/-- The type of a binding is erased if neither a default nor the type holds a sign that hides the
assignment, and stays otherwise. -/
theorem bindingTypes_erased (binding : BindingText) (type : PlainType) :
    (binding.Erasable type →
        eraseBindingTypes (binding.text (some type)) = binding.text none) ∧
      (¬binding.Erasable type →
        eraseBindingTypes (binding.text (some type)) = binding.text (some type)) := by
  have untyped : destructuredBinding.replace (·.group 0) (binding.text none) = binding.text none :=
    destructured_stays fun _ _ => not_typed_assignment binding
  rw [eraseBindingTypes]
  constructor
  · rintro ⟨target_clean, clean⟩
    cases target : binding.target with
    | name id =>
        have erased : namedBinding.replace (·.group 0) (binding.text (some type)) =
            binding.text none := by
          refine replace_found_binding beginsBinding_name clean
            fun here there reads rest_eq => ?_
          rw [target] at reads
          exact id.prefers (fun _ isStart => isStart) reads (by rw [rest_eq]; rfl)
        rw [erased, untyped, replace_hooks]
    | pattern shape slots =>
        have unnamed : namedBinding.replace (·.group 0) (binding.text (some type)) =
            binding.text (some type) :=
          named_stays fun named => named.elim fun id named =>
            absurd (target.symm.trans named) (by simp)
        have erased : destructuredBinding.replace (·.group 0) (binding.text (some type)) =
            binding.text none := by
          refine replace_found_binding beginsBinding_flatPattern clean
            fun here there reads _ => ?_
          rw [target] at reads target_clean
          exact prefers_flatPattern (fun mem => target_clean (by simp [BindingTarget.text, mem]))
            reads
        rw [unnamed, erased, replace_hooks]
  · intro hidden
    have typed_clean (typed : Typed (typeNote type ++ binding.assignment)) :
        '=' ∉ type.text ∧ ';' ∉ type.text :=
      ⟨fun mem => absurd (typed.type_clean _ mem) (by decide),
        fun mem => absurd (typed.type_clean _ mem) (by decide)⟩
    have named : namedBinding.replace (·.group 0) (binding.text (some type)) =
        binding.text (some type) := by
      refine named_stays fun named typed => hidden ⟨?_, typed_clean typed⟩
      obtain ⟨id, target⟩ := named
      rw [target]
      exact fun mem => id.not_mem_signs mem (by decide)
    have destructured : destructuredBinding.replace (·.group 0) (binding.text (some type)) =
        binding.text (some type) :=
      destructured_stays fun _ target_clean typed => hidden ⟨target_clean, typed_clean typed⟩
    rw [named, destructured, replace_hooks]

theorem tuple_annotation_erased :
    let a : Identifier := .of 'a' [] rfl rfl
    let b : Identifier := .of 'b' [] rfl rfl
    let none' : Space := ⟨[], List.forall_mem_nil _⟩
    let space : Space := ⟨[' '], List.forall_mem_singleton.2 rfl⟩
    let empty : Gap := ⟨[], List.forall_mem_nil _⟩
    let item : PlainType := .array (.name (.of 'A' [] rfl rfl))
    let type : PlainType := .tuple (.more empty none item empty (.last empty none item empty))
    let target := .pattern .array [⟨none', .name a none, none'⟩, ⟨space, .name b none, none'⟩]
    let binding : BindingText := ⟨.const, target, .of 'e' [] rfl rfl⟩
    binding.text (some type) = "const [a, b]: [A[],A[]] = e;".toList ∧ binding.Erasable type ∧
      binding.text none = "const [a, b] = e;".toList ∧
      eraseBindingTypes (binding.text (some type)) = binding.text none := by
  intro a b none' space empty item type target binding
  have erasable : binding.Erasable type := by
    rw [BindingText.Erasable]
    decide
  exact ⟨by decide, erasable, by decide, (bindingTypes_erased binding type).1 erasable⟩

/-- A semicolon between members, an arrow and a default each hide the assignment. -/
theorem hidden_assignments_stay :
    let a : Identifier := .of 'a' [] rfl rfl
    let empty : Gap := ⟨[], List.forall_mem_nil _⟩
    let space : Gap := ⟨[' '], List.forall_mem_singleton.2 ⟨rfl, by decide⟩⟩
    let blank : Space := ⟨[' '], List.forall_mem_singleton.2 rfl⟩
    let member (c : Char) (isStart : isNameStart c = true) : Option Label :=
      some ⟨.of c [] isStart rfl, empty, space⟩
    let name : PlainType := .name (.of 'A' [] rfl rfl)
    let object : PlainType := .object (.more space (member 'x' rfl) name empty
      (.last space (member 'y' rfl) name space))
    let arrow : PlainType := .function (.last empty (member 'x' rfl) name empty) space space name
    let value : EntryDefault := ⟨blank, blank, ⟨['b'], List.forall_mem_singleton.2 (by decide)⟩,
      List.forall_mem_singleton.2 (by decide)⟩
    let plain : BindingText := ⟨.const, .name a, .of 'e' [] rfl rfl⟩
    let defaulted : BindingText :=
      ⟨.const, .pattern .array [⟨⟨[], List.forall_mem_nil _⟩, .name a (some value),
        ⟨[], List.forall_mem_nil _⟩⟩], .of 'e' [] rfl rfl⟩
    plain.text (some object) = "const a: \x7b x: A; y: A \x7d = e;".toList ∧
      eraseBindingTypes (plain.text (some object)) ≠ plain.text none ∧
      plain.text (some arrow) = "const a: (x: A) => A = e;".toList ∧
      eraseBindingTypes (plain.text (some arrow)) ≠ plain.text none ∧
      defaulted.text (some name) = "const [a = b]: A = e;".toList ∧
      eraseBindingTypes (defaulted.text (some name)) ≠ defaulted.text none := by
  decide +kernel

end Annotation

end ComponentPreview
