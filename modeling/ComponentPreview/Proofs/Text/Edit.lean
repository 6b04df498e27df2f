import ComponentPreview.Proofs.Text.Match

/-!
# Edits

An edit keeps some characters of a text and puts new texts in place of old ones. What occurs in the
text after an edit was carried over from the text before, or else it touches a place where the edit
changed something (`carried_or_crossed`).
-/

namespace ComponentPreview

inductive Change
  | keep (c : Char)
  | put (old new : List Char)

namespace Change

def before : Change → List Char
  | keep c => [c]
  | put old _ => old

def after : Change → List Char
  | keep c => [c]
  | put _ new => new

end Change

/-- What is looked for in a text: which neighbours it may have and how it reads. -/
structure Token where
  follows : Option Char → Prop
  reads : List Char → Prop
  precedes : Option Char → Prop

namespace Token

/-- The token stands between two parts of a text. -/
structure FitsAt (token : Token) (left word right : List Char) : Prop where
  follows : token.follows left.getLast?
  reads : token.reads word
  precedes : token.precedes right.head?

def OccursIn (token : Token) (text : List Char) : Prop :=
  ∃ left word right, text = left ++ (word ++ right) ∧ token.FitsAt left word right

end Token

namespace Edit

def before (edit : List Change) : List Char :=
  edit.flatMap Change.before

def after (edit : List Change) : List Char :=
  edit.flatMap Change.after

def keepAll (text : List Char) : List Change :=
  text.map .keep

variable {edit first last : List Change} {left word right : List Char} {token : Token}

@[simp] theorem before_nil : before [] = [] := rfl

@[simp] theorem after_nil : after [] = [] := rfl

@[simp] theorem before_cons (change : Change) (edit : List Change) :
    before (change :: edit) = change.before ++ before edit :=
  List.flatMap_cons

@[simp] theorem after_cons (change : Change) (edit : List Change) :
    after (change :: edit) = change.after ++ after edit :=
  List.flatMap_cons

@[simp] theorem before_append (first last : List Change) :
    before (first ++ last) = before first ++ before last :=
  List.flatMap_append

@[simp] theorem after_append (first last : List Change) :
    after (first ++ last) = after first ++ after last :=
  List.flatMap_append

@[simp] theorem before_keepAll (text : List Char) : before (keepAll text) = text := by
  induction text with
  | nil => rfl
  | cons c text ih =>
      change [c] ++ before (keepAll text) = c :: text
      rw [ih, List.singleton_append]

@[simp] theorem after_keepAll (text : List Char) : after (keepAll text) = text := by
  induction text with
  | nil => rfl
  | cons c text ih =>
      change [c] ++ after (keepAll text) = c :: text
      rw [ih, List.singleton_append]

/-- A stretch of the text after an edit is made of kept characters with nothing between them. -/
def Carries (edit : List Change) (left word right : List Char) : Prop :=
  ∃ first last, edit = first ++ (keepAll word ++ last) ∧ after first = left ∧ after last = right

/-- A change falls between two places of the text after an edit. -/
def Crosses (edit : List Change) (start stop : Nat) : Prop :=
  ∃ first old new last, edit = first ++ .put old new :: last ∧
    start < (after first).length + new.length ∧ (after first).length < stop

theorem Carries.cons (carries : Carries edit left word right) (change : Change) :
    Carries (change :: edit) (change.after ++ left) word right := by
  obtain ⟨first, last, rfl, rfl, rfl⟩ := carries
  exact ⟨change :: first, last, rfl, after_cons change first, rfl⟩

theorem Crosses.cons {start stop start' stop' : Nat} (crosses : Crosses edit start stop)
    (change : Change) (low : start' ≤ change.after.length + start)
    (high : change.after.length + stop ≤ stop') : Crosses (change :: edit) start' stop' := by
  obtain ⟨first, old, new, last, rfl, h, h'⟩ := crosses
  refine ⟨change :: first, old, new, last, rfl, ?_, ?_⟩
  · rw [after_cons, List.length_append]
    omega
  · rw [after_cons, List.length_append]
    omega

theorem exists_put_of_after_eq_nil (h : after edit = []) (some : edit ≠ []) :
    ∃ old last, edit = .put old [] :: last := by
  cases edit with
  | nil => exact absurd rfl some
  | cons change last =>
      rw [after_cons, List.append_eq_nil_iff] at h
      cases change with
      | keep c => cases h.1
      | put old new => exact ⟨old, last, by rw [show new = [] from h.1]⟩

/-- A kept character before a stretch, or the first one of it. -/
theorem carries_or_crosses_keep {c : Char} (h : c :: after edit = left ++ (word ++ right))
    (ih : ∀ {left word : List Char}, after edit = left ++ (word ++ right) →
      Carries edit left word right ∨ Crosses edit left.length (left.length + word.length)) :
    Carries (.keep c :: edit) left word right ∨
      Crosses (.keep c :: edit) left.length (left.length + word.length) := by
  cases left with
  | cons d left =>
      rw [List.cons_append, List.cons.injEq] at h
      obtain ⟨rfl, tail⟩ := h
      refine (ih tail).imp (·.cons (.keep c)) fun crosses => crosses.cons (.keep c) ?_ ?_
      · simp only [Change.after, List.length_cons, List.length_nil]
        omega
      · simp only [Change.after, List.length_cons, List.length_nil]
        omega
  | nil =>
      cases word with
      | nil => exact .inl ⟨[], .keep c :: edit, rfl, rfl, h⟩
      | cons d word =>
          rw [List.nil_append, List.cons_append, List.cons.injEq] at h
          obtain ⟨rfl, tail⟩ := h
          rw [← List.nil_append (word ++ right)] at tail
          rcases ih tail with ⟨first, last, rfl, gone, rfl⟩ | crosses
          · by_cases adjacent : first = []
            · exact .inl ⟨[], last, by rw [adjacent]; rfl, rfl, rfl⟩
            · obtain ⟨old, others, rfl⟩ := exists_put_of_after_eq_nil gone adjacent
              cases word with
              | nil => exact .inl ⟨[], _, rfl, rfl, tail⟩
              | cons d word =>
                  exact .inr ⟨[.keep c], old, [], _, rfl, by simp [Change.after],
                    by simp [Change.after]⟩
          · refine .inr (crosses.cons (.keep c) ?_ ?_)
            · simp
            · simp only [Change.after, List.length_cons, List.length_nil]
              omega

/-- A new text before a stretch, or one that reaches into it. -/
theorem carries_or_crosses_put {old new : List Char}
    (h : new ++ after edit = left ++ (word ++ right))
    (ih : ∀ {left word : List Char}, after edit = left ++ (word ++ right) →
      Carries edit left word right ∨ Crosses edit left.length (left.length + word.length)) :
    Carries (.put old new :: edit) left word right ∨
      Crosses (.put old new :: edit) left.length (left.length + word.length) := by
  by_cases inside : left.length < new.length
  · by_cases empty : left = [] ∧ word = []
    · obtain ⟨rfl, rfl⟩ := empty
      exact .inl ⟨[], .put old new :: edit, rfl, rfl, h⟩
    · have more : 0 < left.length + word.length := by
        rcases left with _ | ⟨c, left⟩
        · rcases word with _ | ⟨c, word⟩
          · exact absurd ⟨rfl, rfl⟩ empty
          · simp
        · simp only [List.length_cons]
          omega
      exact .inr ⟨[], old, new, edit, rfl, by simpa using inside, more⟩
  · obtain ⟨others, rfl⟩ : new <+: left :=
      List.prefix_of_prefix_length_le ⟨_, h⟩ ⟨_, rfl⟩ (Nat.not_lt.1 inside)
    rw [List.append_assoc] at h
    refine (ih (List.append_cancel_left h)).imp (·.cons (.put old new)) fun crosses =>
      crosses.cons (.put old new) ?_ ?_
    · simp [Change.after]
    · simp only [Change.after, List.length_append]
      omega

theorem carries_or_crosses (h : after edit = left ++ (word ++ right)) :
    Carries edit left word right ∨ Crosses edit left.length (left.length + word.length) := by
  induction edit generalizing left word with
  | nil =>
      obtain ⟨rfl, rest⟩ := List.append_eq_nil_iff.1 h.symm
      obtain ⟨rfl, rfl⟩ := List.append_eq_nil_iff.1 rest
      exact .inl ⟨[], [], rfl, rfl, rfl⟩
  | cons change edit ih =>
      rw [after_cons] at h
      cases change with
      | keep c => exact carries_or_crosses_keep h ih
      | put old new => exact carries_or_crosses_put h ih

/-- A change that falls into a stretch is either reached from its start, or the stretch starts
within the new text. -/
theorem crossing_cases {first new last : List Char}
    (h : first ++ (new ++ last) = left ++ (word ++ right))
    (low : left.length < first.length + new.length)
    (high : first.length < left.length + word.length) :
    (∃ word₁ word₂, word₂ ≠ [] ∧ (word₁ ≠ [] ∨ new ≠ []) ∧ first = left ++ word₁ ∧
      word = word₁ ++ word₂ ∧ new ++ last = word₂ ++ right) ∨
    ∃ new₁ new₂, new₁ ≠ [] ∧ new₂ ≠ [] ∧ new = new₁ ++ new₂ ∧ new₂ ++ last = word ++ right := by
  rcases List.append_eq_append_iff.1 h with ⟨new₁, rfl, rest⟩ | ⟨word₁, rfl, rest⟩
  · rcases List.append_eq_append_iff.1 rest with ⟨more, rfl, -⟩ | ⟨new₂, rfl, others⟩
    · simp only [List.length_append] at low
      omega
    · simp only [List.length_append] at low high
      have some : new₂ ≠ [] := fun none => by simp [none] at low
      cases new₁ with
      | nil =>
          have more : word ≠ [] := fun none => by simp [none] at high
          exact .inl ⟨[], word, more, .inr some, by simp, rfl, others.symm⟩
      | cons c new₁ => exact .inr ⟨c :: new₁, new₂, List.cons_ne_nil _ _, some, rfl, others.symm⟩
  · rcases List.append_eq_append_iff.1 rest with ⟨more, rfl, -⟩ | ⟨word₂, rfl, others⟩
    · simp only [List.length_append] at high
      omega
    · simp only [List.length_append] at low high
      have more : word₂ ≠ [] := fun none => by simp [none] at high
      have some : word₁ ≠ [] ∨ new ≠ [] := by
        cases word₁ with
        | nil => exact .inr fun none => by simp [none] at low
        | cons c word₁ => exact .inl (List.cons_ne_nil _ _)
      exact .inl ⟨word₁, word₂, more, some, rfl, rfl, others⟩

/-- The edit puts the token together: it stands in the text after the edit where the text before
had not the same stretch between the same neighbours. -/
def Assembles (edit : List Change) (token : Token) : Prop :=
  ∃ left word right, after edit = left ++ (word ++ right) ∧ token.FitsAt left word right ∧
    ¬∃ first last, edit = first ++ (keepAll word ++ last) ∧ after first = left ∧
      after last = right ∧ (before first).getLast? = left.getLast? ∧
      (before last).head? = right.head?

/-- A token that an edit did not put together was there before. -/
theorem assembles_of_occursIn (h : token.OccursIn (after edit))
    (missing : ¬token.OccursIn (before edit)) : Assembles edit token := by
  obtain ⟨left, word, right, eq, fits⟩ := h
  refine ⟨left, word, right, eq, fits, ?_⟩
  rintro ⟨first, last, rfl, -, -, previous, next⟩
  refine missing ⟨before first, word, before last, by simp, ?_, fits.reads, ?_⟩
  · exact previous ▸ fits.follows
  · exact next ▸ fits.precedes

/-- An edit leaves a token out of a text that does not hold it, if no change falls into the token
and one right before it hides no neighbour that the token may not have. -/
theorem occursIn_before (free : ∀ next, token.precedes next) (h : token.OccursIn (after edit))
    (uncrossed : ∀ left word right, after edit = left ++ (word ++ right) →
      token.FitsAt left word right → ¬Crosses edit left.length (left.length + word.length))
    (start : ∀ first old new last word right, edit = first ++ .put old new :: last →
      after last = word ++ right → token.reads word →
      token.follows (after (first ++ [.put old new])).getLast? →
      token.follows (before first ++ old).getLast?) :
    token.OccursIn (before edit) := by
  obtain ⟨left, word, right, eq, fits⟩ := h
  obtain ⟨first, last, rfl, rfl, rfl⟩ :=
    (carries_or_crosses eq).resolve_right (uncrossed left word right eq fits)
  refine ⟨before first, word, before last, by simp, ?_, fits.reads, free _⟩
  rcases List.eq_nil_or_concat first with rfl | ⟨others, change, rfl⟩
  · exact fits.follows
  · cases change with
    | keep c => simpa [Change.before, Change.after] using fits.follows
    | put old new =>
        have placed := start others old new (keepAll word ++ last) word (after last) (by simp)
          (by simp) fits.reads (by simpa using fits.follows)
        simpa [Change.before] using placed

end Edit

end ComponentPreview
