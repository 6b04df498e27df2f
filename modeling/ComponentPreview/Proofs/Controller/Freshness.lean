import ComponentPreview.Proofs.Controller.Deadline

/-!
# Freshness of documents

Answers may come in any order and after any delay. Each request is awaited under a version of its
own, and an answer counts only for the newest version, so what is shown and what becomes the
document is always the answer to the newest request.
-/

namespace ComponentPreview

namespace Notice

theorem filterMap_news {read : Notice → Option α}
    (unread : ∀ notice, notice.isNews = false → read notice = none) (notices : List Notice) :
    (notices.filter isNews).filterMap read = notices.filterMap read := by
  rw [List.filterMap_filter]
  congr 1
  funext notice
  cases isNews : notice.isNews with
  | true => simp
  | false => simp [unread notice isNews]

theorem filterMap_requested_news (notices : List Notice) :
    (notices.filter isNews).filterMap requested? = notices.filterMap requested? := by
  refine filterMap_news ?_ notices
  intro notice unnoticed
  cases notice <;> simp_all [requested?]

theorem filterMap_shown_news (notices : List Notice) :
    (notices.filter isNews).filterMap shown? = notices.filterMap shown? := by
  refine filterMap_news ?_ notices
  intro notice unnoticed
  cases notice <;> simp_all [shown?]

end Notice

namespace Effect

variable {before after : Course} {occasion : Occasion} {news : List Notice}

theorem requested_cases (effect : Effect before occasion news after) :
    (news.filterMap Notice.requested? = [] ∧ after.version = before.version) ∨
    ∃ request, news.filterMap Notice.requested? = [request] ∧
      request.version = before.version + 1 ∧ after.version = before.version + 1 ∧
      after.phase = .requesting ∧ after.deadline = none := by
  cases effect with
  | request request metadata isOpen version_eq =>
      exact .inr ⟨request, rfl, version_eq, rfl, rfl, rfl⟩
  | fail kind message metadata suggestions isOpen unfailed blames =>
      refine .inl ⟨?_, rfl⟩
      split <;> rfl
  | accept body isShown deadline renderTime given welcome =>
      refine .inl ⟨?_, rfl⟩
      split <;> split <;> rfl
  | _ => exact .inl ⟨rfl, rfl⟩

/-- At most one document is taken over: that of the answer to the newest version. -/
theorem shown_cases (effect : Effect before occasion news after) :
    (news.filterMap Notice.shown? = [] ∧ after.document = before.document) ∨
    ∃ body, occasion = .answer before.version (.ok body) ∧
      before.Welcomes before.version body ∧ after.document = body.get "previewHTML" ∧
      (news.filterMap Notice.shown? = [] ∨
        news.filterMap Notice.shown? = [(before.version, body.get "previewHTML")]) := by
  cases effect with
  | accept body isShown deadline renderTime given welcome =>
      refine .inr ⟨body, given, welcome, rfl, ?_⟩
      cases isShown
      · left
        split <;> rfl
      · right
        split <;> rfl
  | fail kind message metadata suggestions isOpen unfailed blames =>
      refine .inl ⟨?_, rfl⟩
      split <;> rfl
  | _ => exact .inl ⟨rfl, rfl⟩

end Effect

namespace World

variable {world : World}

def remaining (world : World) : Move → List Request
  | .answer index _ => world.awaited.eraseIdx index
  | _ => world.awaited

theorem remaining_sublist (move : Move) : (world.remaining move).Sublist world.awaited := by
  cases move with
  | answer index answer => exact List.eraseIdx_sublist _ _
  | _ => exact List.Sublist.refl _

theorem awaited_move (move : Move) :
    (world.move move).1.awaited =
      world.remaining move ++ (world.move move).2.filterMap Notice.requested? := by
  cases move with
  | pass span => simp [World.move, remaining]
  | work index =>
      simp only [World.move, work, remaining]
      split
      · split
        · rw [act_awaited]
        · simp
      · simp
  | answer index answer =>
      simp only [World.move, World.answer, remaining]
      split
      · rw [act_awaited]
      · next missing =>
          rw [List.eraseIdx_of_length_le (List.getElem?_eq_none_iff.1 missing)]
          simp
  | _ => simp only [World.move, act_awaited, remaining]

/-- In a sound world an answer is handed over only to a request that is awaited. -/
theorem answer_of_occasion (sound : world.Sound) {move : Move} {version : Nat} {answer : Answer}
    (h : world.occasion move = .answer version answer) :
    ∃ index request, move = .answer index answer ∧ world.awaited[index]? = some request ∧
      request.version = version := by
  cases move with
  | answer index given =>
      simp only [occasion] at h
      split at h
      · next request found =>
          cases h
          exact ⟨index, request, rfl, found, rfl⟩
      · cases h
  | work index =>
      simp only [occasion] at h
      split at h
      · next task found =>
          split at h
          · have mem := List.mem_of_getElem? found
            cases job : task.job with
            | answer version asker answer =>
                exact absurd job (sound.answerless task mem version asker answer)
            | _ =>
                rw [job] at h
                cases h
          · cases h
      · cases h
  | _ => cases h

/-- The requests are awaited in the order of their versions, none of which is above the newest. -/
structure Ordered (world : World) : Prop where
  sound : world.Sound
  ascending : world.awaited.Pairwise (·.version < ·.version)
  awaited_le : ∀ request ∈ world.awaited, request.version ≤ world.controller.version

theorem ordered_start (setup : Setup) : (start setup).Ordered :=
  ⟨sound_start setup, List.Pairwise.nil, by simp [start]⟩

theorem effect_of_sound (sound : world.Sound) (move : Move) :
    Effect world.controller.course (world.occasion move)
      ((world.move move).2.filter Notice.isNews) (world.move move).1.controller.course :=
  effect_move sound.silent move

theorem requested_move (sound : world.Sound) (move : Move) :
    ((world.move move).2.filterMap Notice.requested? = [] ∧
      (world.move move).1.controller.version = world.controller.version) ∨
    ∃ request, (world.move move).2.filterMap Notice.requested? = [request] ∧
      request.version = world.controller.version + 1 ∧
      (world.move move).1.controller.version = world.controller.version + 1 := by
  have cases := (effect_of_sound sound move).requested_cases
  rw [Notice.filterMap_requested_news] at cases
  exact cases.imp id fun ⟨request, requested, version_eq, after_eq, _⟩ =>
    ⟨request, requested, version_eq, after_eq⟩

theorem version_le_move (sound : world.Sound) (move : Move) :
    world.controller.version ≤ (world.move move).1.controller.version := by
  rcases requested_move sound move with ⟨-, eq⟩ | ⟨_, -, -, eq⟩
  · exact Nat.le_of_eq eq.symm
  · exact Nat.le_of_lt (by rw [eq]; exact Nat.lt_succ_self _)

theorem ordered_move (ordered : world.Ordered) (move : Move) : (world.move move).1.Ordered := by
  have kept : ∀ request ∈ world.remaining move, request.version ≤ world.controller.version :=
    fun request mem => ordered.awaited_le request ((remaining_sublist move).subset mem)
  have ascending := ordered.ascending.sublist (remaining_sublist move)
  refine ⟨sound_move ordered.sound move, ?_, ?_⟩
  · rw [awaited_move]
    rcases requested_move ordered.sound move with ⟨none, -⟩ | ⟨request, one, version_eq, -⟩
    · rw [none, List.append_nil]
      exact ascending
    · rw [one, List.pairwise_append]
      refine ⟨ascending, List.pairwise_singleton _ _, ?_⟩
      intro earlier mem later last
      rw [List.mem_singleton] at last
      rw [last, version_eq]
      exact Nat.lt_succ_of_le (kept earlier mem)
  · rw [awaited_move]
    intro request mem
    rcases requested_move ordered.sound move with
      ⟨none, version_eq⟩ | ⟨last, one, last_eq, version_eq⟩
    · rw [none, List.append_nil] at mem
      rw [version_eq]
      exact kept request mem
    · rw [one, List.mem_append, List.mem_singleton] at mem
      rcases mem with mem | rfl
      · exact Nat.le_trans (kept request mem) (version_le_move ordered.sound move)
      · exact Nat.le_of_eq (last_eq.trans version_eq.symm)

/-- Whether a version has begun and is no longer awaited. -/
structure Answered (version : Nat) (world : World) : Prop where
  version_le : version ≤ world.controller.version
  not_awaited : ∀ request ∈ world.awaited, request.version ≠ version

theorem answered_move {version : Nat} (sound : world.Sound) (answered : world.Answered version)
    (move : Move) : (world.move move).1.Answered version where
  version_le := Nat.le_trans answered.version_le (version_le_move sound move)
  not_awaited := by
    have kept : ∀ request ∈ world.remaining move, request.version ≠ version :=
      fun request mem => answered.not_awaited request ((remaining_sublist move).subset mem)
    rw [awaited_move]
    intro request mem
    rcases requested_move sound move with ⟨none, -⟩ | ⟨last, one, last_eq, -⟩
    · rw [none, List.append_nil] at mem
      exact kept request mem
    · rw [one, List.mem_append, List.mem_singleton] at mem
      rcases mem with mem | rfl
      · exact kept request mem
      · rw [last_eq]
        exact Nat.ne_of_gt (Nat.lt_succ_of_le answered.version_le)

theorem version_ne_of_mem_eraseIdx {requests : List Request}
    (ascending : requests.Pairwise (·.version < ·.version)) {index : Nat} {request : Request}
    (found : requests[index]? = some request) :
    ∀ other ∈ requests.eraseIdx index, other.version ≠ request.version := by
  induction requests generalizing index with
  | nil => simp
  | cons first requests ih =>
      rw [List.pairwise_cons] at ascending
      cases index with
      | zero =>
          obtain rfl : first = request := by simpa using found
          intro other mem
          exact Nat.ne_of_gt (ascending.1 other mem)
      | succ index =>
          have found' : requests[index]? = some request := by simpa using found
          intro other mem
          rw [List.eraseIdx_cons_succ, List.mem_cons] at mem
          rcases mem with rfl | mem
          · exact Nat.ne_of_lt (ascending.1 request (List.mem_of_getElem? found'))
          · exact ih ascending.2 found' other mem

theorem answered_of_answer (ordered : world.Ordered) {index : Nat} {request : Request}
    (found : world.awaited[index]? = some request) (answer : Answer) :
    (world.move (.answer index answer)).1.Answered request.version where
  version_le := Nat.le_trans (ordered.awaited_le request (List.mem_of_getElem? found))
    (version_le_move ordered.sound _)
  not_awaited := by
    have kept := version_ne_of_mem_eraseIdx ordered.ascending found
    rw [awaited_move]
    intro other mem
    rcases requested_move ordered.sound (.answer index answer) with
      ⟨none, -⟩ | ⟨last, one, last_eq, -⟩
    · rw [none, List.append_nil] at mem
      exact kept other mem
    · rw [one, List.mem_append, List.mem_singleton] at mem
      rcases mem with mem | rfl
      · exact kept other mem
      · rw [last_eq]
        exact Nat.ne_of_gt
          (Nat.lt_succ_of_le (ordered.awaited_le request (List.mem_of_getElem? found)))

/-! ## Runs -/

theorem ordered_run (ordered : world.Ordered) (moves : List Move) :
    (world.afterAll moves).Ordered ∧ ∀ transition ∈ world.run moves, transition.before.Ordered :=
  invariant (motive := Ordered) (fun _ move ordered => ordered_move ordered move) moves ordered

theorem answered_run {version : Nat} (sound : world.Sound) (answered : world.Answered version)
    (moves : List Move) :
    (world.afterAll moves).Answered version ∧
      ∀ transition ∈ world.run moves, transition.before.Answered version := by
  obtain ⟨last, each⟩ := invariant (motive := fun world => world.Sound ∧ world.Answered version)
    (fun _ move h => ⟨sound_move h.1 move, answered_move h.1 h.2 move⟩) moves ⟨sound, answered⟩
  exact ⟨last.2, fun transition mem => (each transition mem).2⟩

def requests (world : World) (moves : List Move) : List Request :=
  (world.run moves).flatMap fun transition => transition.notices.filterMap Notice.requested?

def shows (world : World) (moves : List Move) : List (Nat × Json) :=
  (world.run moves).flatMap fun transition => transition.notices.filterMap Notice.shown?

/-- Each request has the version one above that of the last. -/
theorem versions_requests (sound : world.Sound) (moves : List Move) :
    (world.requests moves).map Request.version =
        List.range' (world.controller.version + 1) (world.requests moves).length ∧
      (world.afterAll moves).controller.version =
        world.controller.version + (world.requests moves).length := by
  induction moves generalizing world with
  | nil => exact ⟨rfl, rfl⟩
  | cons move moves ih =>
      obtain ⟨versions, last⟩ := ih (sound_move sound move)
      have unfolded : world.requests (move :: moves) =
          (world.move move).2.filterMap Notice.requested? ++
            (world.move move).1.requests moves := rfl
      have after : world.afterAll (move :: moves) = (world.move move).1.afterAll moves := rfl
      rw [unfolded, after, last]
      rcases requested_move sound move with ⟨none, eq⟩ | ⟨request, one, version_eq, eq⟩
      · rw [none, List.nil_append]
        rw [eq] at versions
        exact ⟨versions, by rw [eq]⟩
      · rw [one, List.singleton_append, List.map_cons, List.length_cons, versions, eq, version_eq]
        exact ⟨List.range'_succ.symm, by omega⟩

end World

namespace Transition

/-- The document of the answer to the newest request arrives, and the session is open. -/
def Receives (transition : Transition) (version : Nat) (document : Json) : Prop :=
  ∃ index body request,
    transition.move = .answer index (.ok body) ∧
    transition.before.awaited[index]? = some request ∧
    request.version = version ∧
    version = transition.before.controller.version ∧
    transition.before.controller.isClosed = false ∧
    document = body.get "previewHTML"

variable {transition : Transition}

theorem shown_cases (sound : transition.before.Sound) :
    (transition.notices.filterMap Notice.shown? = [] ∧
      transition.after.controller.document = transition.before.controller.document) ∨
    ∃ version document, transition.Receives version document ∧
      transition.after.controller.document = document ∧
      (transition.notices.filterMap Notice.shown? = [] ∨
        transition.notices.filterMap Notice.shown? = [(version, document)]) := by
  have cases := (World.effect_of_sound sound transition.move).shown_cases
  rw [Notice.filterMap_shown_news] at cases
  refine cases.imp id ?_
  rintro ⟨body, given, welcome, document_eq, shown⟩
  obtain ⟨index, request, move_eq, found, version_eq⟩ := World.answer_of_occasion sound given
  exact ⟨_, _, ⟨index, body, request, move_eq, found, version_eq, rfl, welcome.isOpen, rfl⟩,
    document_eq, shown⟩

theorem receives_of_shown (sound : transition.before.Sound) {version : Nat} {document : Json}
    (h : (version, document) ∈ transition.notices.filterMap Notice.shown?) :
    transition.Receives version document := by
  rcases shown_cases sound with ⟨none, -⟩ | ⟨_, _, receives, -, none | one⟩
  · simp [none] at h
  · simp [none] at h
  · rw [one, List.mem_singleton, Prod.mk.injEq] at h
    rw [h.1, h.2]
    exact receives

theorem answered_after (ordered : transition.before.Ordered) {version : Nat} {document : Json}
    (receives : transition.Receives version document) : transition.after.Answered version := by
  obtain ⟨index, body, request, move_eq, found, rfl, -⟩ := receives
  rw [after, move_eq]
  exact World.answered_of_answer ordered found _

end Transition

namespace World

variable {world : World}

/-- Documents are received in the order of their versions. -/
theorem pairwise_receives (ordered : world.Ordered) (moves : List Move) :
    (world.run moves).Pairwise fun earlier later => ∀ version version' document document',
      earlier.Receives version document → later.Receives version' document' →
        version < version' := by
  induction moves generalizing world with
  | nil => exact .nil
  | cons move moves ih =>
      refine .cons ?_ (ih (ordered_move ordered move))
      intro later mem version version' document document' receives receives'
      have ordered' : (Transition.mk world move).before.Ordered := ordered
      have answered : (world.move move).1.Answered version :=
        Transition.answered_after ordered' receives
      have answered' := (answered_run (sound_move ordered.sound move) answered moves).2 later mem
      obtain ⟨index, body, request, -, found, request_eq, newest, -⟩ := receives'
      refine Nat.lt_of_le_of_ne (newest ▸ answered'.version_le) ?_
      rintro rfl
      exact answered'.not_awaited request (List.mem_of_getElem? found) request_eq

/-- In every run what is shown and what becomes the document is the answer to the newest request, so
that neither ever goes back to an older version. -/
theorem documents_are_fresh (setup : Setup) (moves : List Move) :
    ((start setup).requests moves).map Request.version =
        List.range' 1 ((start setup).afterAll moves).controller.version ∧
      (∀ transition ∈ (start setup).run moves,
        (∀ version document, .shown version document ∈ transition.notices →
          transition.Receives version document) ∧
        (transition.after.controller.document ≠ transition.before.controller.document →
          ∃ version, transition.Receives version transition.after.controller.document)) ∧
      (((start setup).shows moves).map Prod.fst).Pairwise (· < ·) ∧
      ((start setup).run moves).Pairwise fun earlier later =>
        ∀ version version' document document', earlier.Receives version document →
          later.Receives version' document' → version < version' := by
  have ordered := ordered_start setup
  have received := pairwise_receives ordered moves
  refine ⟨?_, ?_, ?_, received⟩
  · obtain ⟨versions, last⟩ := versions_requests ordered.sound moves
    rw [versions, last]
    simp [start, Setup.controller]
  · intro transition mem
    have sound := ((ordered_run ordered moves).2 transition mem).sound
    refine ⟨?_, ?_⟩
    · intro version document shown
      exact Transition.receives_of_shown sound (List.mem_filterMap.2 ⟨_, shown, rfl⟩)
    · intro changed
      rcases Transition.shown_cases sound with ⟨-, same⟩ | ⟨version, _, receives, rfl, -⟩
      · exact absurd same changed
      · exact ⟨version, receives⟩
  · rw [shows, List.pairwise_map, List.pairwise_flatMap]
    refine ⟨?_, received.imp_of_mem ?_⟩
    · intro transition mem
      have sound := ((ordered_run ordered moves).2 transition mem).sound
      rcases Transition.shown_cases sound with ⟨none, -⟩ | ⟨_, _, -, -, none | one⟩
      · rw [none]
        exact .nil
      · rw [none]
        exact .nil
      · rw [one]
        exact List.pairwise_singleton _ _
    · intro earlier later mem mem' inOrder first shown second shown'
      exact inOrder _ _ _ _
        (Transition.receives_of_shown ((ordered_run ordered moves).2 earlier mem).sound shown)
        (Transition.receives_of_shown ((ordered_run ordered moves).2 later mem').sound shown')

end World

end ComponentPreview
