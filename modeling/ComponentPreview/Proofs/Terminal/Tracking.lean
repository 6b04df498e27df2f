import ComponentPreview.Proofs.Terminal.Looking

/-!
# Keeping track of a watched file

In every run, a program that watches has the text of its file once it has seen it, looks at it soon
or waits for an answer (`Follows.run`), and brings its source within the debounce
(`Follows.brings_run`).
-/

namespace ComponentPreview

namespace Terminal

variable {service : Service} {start terminal before after : Terminal} {span limit : Int}

/-! ## Bringing the source, turn by turn -/

/-- An errand by which the source is brought. -/
inductive Carrier (span limit : Int) (terminal : Terminal) : Errand → Prop
  | opens {number : Nat} (debounce_eq : terminal.controller.debounce = some number)
      (early : terminal.schedule.now ≤ limit - span) :
      Carrier span limit terminal (.control (.openDebounce number))
  | closes {number : Nat} (debounce_eq : terminal.controller.debounce = some number)
      (early : terminal.schedule.now ≤ limit) :
      Carrier span limit terminal (.control (.closeDebounce number))
  | requests (number : Nat) : Carrier span limit terminal (.control (.request number))

theorem Brings.turn? (brings : terminal.Brings span limit) {errand : Errand}
    {schedule : Schedule Errand} (turn : terminal.schedule.turn? = some (some errand, schedule)) :
    { terminal with schedule }.Brings span limit ∨
      Carrier span limit { terminal with schedule } errand := by
  have now_eq := (Schedule.works_turn? turn).1
  cases brings with
  | sourceless code_eq => exact .inl (.sourceless code_eq)
  | sent sent => exact .inl (.sent sent)
  | opens number debounce_eq pending =>
      rcases pending.turn? turn with pending | ⟨same, early⟩
      · exact .inl (.opens number debounce_eq pending)
      · cases same
        exact .inr (.opens debounce_eq (now_eq.trans_le early))
  | closes number debounce_eq pending =>
      rcases pending.turn? turn with pending | ⟨same, early⟩
      · exact .inl (.closes number debounce_eq pending)
      · cases same
        exact .inr (.closes debounce_eq (now_eq.trans_le early))
  | requests number pending =>
      rcases pending.turn? turn with pending | ⟨same, -⟩
      · exact .inl (.requests number pending)
      · cases same
        exact .inr (.requests number)

section Carrying

variable (hosts : Hosts service start) (watches : Watches start terminal)

include hosts watches

omit hosts in
theorem perform_control (job : Job) :
    terminal.perform service (.control job) = terminal.work service (·.perform job) := by
  unfold perform
  rw [if_neg (by simp [watches.uninterrupted])]

theorem brings_control {job : Job} (free : job.isAnswer = false) (nonneg : 0 ≤ span)
    (brings : (terminal.act service (·.perform job)).1.Brings span limit) :
    (terminal.perform service (.control job)).Brings span limit := by
  have serves := serves_job hosts watches free
  have acted := goesOn_act (·.perform job) hosts watches serves
  rw [perform_control watches]
  have calm := breakdown_of_returned service (·.perform job) serves
  exact brings.goesOn nonneg (goesOn_foldl_goOn hosts acted.watches calm)

theorem brings_carrier {errand : Errand} {code : String}
    (code_eq : terminal.controller.code = some code)
    (within : max 0 terminal.controller.debounceTime.microseconds ≤ span)
    (carrier : Carrier span limit terminal errand) :
    (terminal.perform service errand).Brings span limit := by
  have nonneg : 0 ≤ span := by omega
  cases carrier with
  | @opens number debounce_eq early =>
      apply brings_control hosts watches rfl nonneg
      have acts := acts_of_serves (·.perform (.openDebounce number)) hosts watches
        (serves_job hosts watches rfl)
      have held : .hold terminal.controller.debounceTime.microseconds (.closeDebounce number) ∈
          (terminal.controller.perform (.openDebounce number)).notices := by
        simp [Controller.perform, Controller.openDebounce, Controller.note, debounce_eq]
      have closes := acts.told _ held
      rw [IsTold, acts.continues.now_eq] at closes
      refine .closes number ?_ (closes.mono (by omega))
      rw [acts.controller_eq]
      exact (terminal.controller.carries_openDebounce number).debounce_eq.trans debounce_eq
  | @closes number debounce_eq early =>
      apply brings_control hosts watches rfl nonneg
      have free : (Job.closeDebounce number).isAnswer = false := rfl
      have serves := serves_job hosts watches free
      have acts := acts_of_serves (·.perform (.closeDebounce number)) hosts watches serves
      have goesOn := acts.goesOn serves
      rcases goesOn.sends with sent | ⟨-, debounce_eq' | ⟨other, posted⟩⟩
      · exact .sent sent
      · have closed := Controller.debounce_closeDebounce debounce_eq
        rw [acts.controller_eq, debounce_eq] at debounce_eq'
        exact absurd (debounce_eq'.symm.trans closed) (Option.some_ne_none number)
      · rw [goesOn.continues.now_eq] at posted
        exact .requests other (posted.mono early)
  | requests number =>
      apply brings_control hosts watches rfl nonneg
      have acts := acts_of_serves (·.perform (.request number)) hosts watches
        (serves_job hosts watches rfl)
      have carries := terminal.controller.carries_request (.job number) code_eq
      obtain ⟨-, requests_eq⟩ := carries.told_of_silent watches.silent
      rw [(watches.isServing hosts).perform_request] at acts
      exact .sent (acts.sent requests_eq (carries.code_eq.trans code_eq))

theorem brings_perform {errand : Errand} (befits : Befits start errand)
    (apart : errand.touchesFiles = false)
    (within : max 0 terminal.controller.debounceTime.microseconds ≤ span)
    (brings : terminal.Brings span limit ∨ Carrier span limit terminal errand) :
    (terminal.perform service errand).Brings span limit := by
  have goesOn := goesOn_perform hosts watches befits apart
  rcases brings with brings | carrier
  · exact brings.goesOn (by omega) goesOn
  · cases code_eq : terminal.controller.code with
    | none => exact .sourceless (goesOn.code_eq.trans code_eq)
    | some code => exact brings_carrier hosts watches code_eq within carrier

end Carrying

/-! ## Keeping track of the file -/

/-- When the file is still going to be written. -/
def writeTimes (schedule : Schedule Errand) : Multiset Int :=
  (schedule.works.filter (·.2.isWrite)).map Prod.fst

/-- A program that has the text of its file if it has seen the file, and whose file is written at
times of which none was a time of writing before. -/
structure Tracks (start terminal : Terminal) : Prop extends Watches start terminal where
  current : ∀ file, File.locate start.path terminal.files = .ok file →
    terminal.seen = some file.written → ∀ code, file.text = .ok code →
    terminal.controller.code = some code
  distinct : (writeTimes terminal.schedule).Nodup
  unseen : ∀ time ∈ writeTimes terminal.schedule, terminal.seen ≠ some time
  fresh : ∀ file, File.locate start.path terminal.files = .ok file →
    file.written ∉ writeTimes terminal.schedule

theorem Moves.writeTimes_eq (moves : Moves start before after) :
    writeTimes after.schedule = writeTimes before.schedule := by
  rw [writeTimes, writeTimes, moves.continues.fixed_eq]

theorem writeTimes_turn? {schedule schedule' : Schedule Errand} {errand : Errand}
    (turn : schedule.turn? = some (some errand, schedule')) :
    writeTimes schedule =
      (if errand.isWrite then {schedule.now} else 0) + writeTimes schedule' := by
  rw [writeTimes, (Schedule.works_turn? turn).2, Multiset.filter_add, Multiset.map_add]
  congr 1
  cases written : errand.isWrite with
  | false => simp [written]
  | true => simp [Multiset.filter_singleton, written]

namespace Tracks

variable (tracks : Tracks start before)

include tracks

/-- The same for a program that has read nothing new and has no other writing ahead. -/
theorem of_le (watches : Watches start after)
    (le : writeTimes after.schedule ≤ writeTimes before.schedule)
    (files_eq : after.files = before.files) (seen_eq : after.seen = before.seen)
    (code_eq : after.controller.code = before.controller.code) : Tracks start after where
  toWatches := watches
  current := by
    rw [files_eq, seen_eq, code_eq]
    exact tracks.current
  distinct := Multiset.nodup_of_le le tracks.distinct
  unseen := by
    intro time mem
    rw [seen_eq]
    exact tracks.unseen time (Multiset.mem_of_le le mem)
  fresh := by
    intro file located mem
    rw [files_eq] at located
    exact tracks.fresh file located (Multiset.mem_of_le le mem)

theorem goesOn (goesOn : GoesOn start before after) : Tracks start after :=
  tracks.of_le goesOn.watches goesOn.writeTimes_eq.le goesOn.files_eq goesOn.seen_eq goesOn.code_eq

theorem looked (looked : Looked start before after) : Tracks start after := by
  cases looked with
  | idles goesOn => exact tracks.goesOn goesOn
  | refuses file fault located text_eq goesOn =>
      have noted : Tracks start { before with seen := some file.written } := {
        toWatches := { tracks.toWatches with }
        current := by
          intro other located' _ code text_eq'
          rw [located] at located'
          cases located'
          rw [text_eq] at text_eq'
          cases text_eq'
        distinct := tracks.distinct
        unseen := by
          rintro time mem same
          cases same
          exact tracks.fresh file located mem
        fresh := tracks.fresh }
      exact noted.goesOn goesOn
  | reads file code located unseen text_eq moves seen_eq code_eq =>
      exact {
        toWatches := moves.watches
        current := by
          intro other located' _ code' text_eq'
          rw [moves.files_eq, located] at located'
          cases located'
          rw [text_eq] at text_eq'
          cases text_eq'
          exact code_eq
        distinct := by
          rw [moves.writeTimes_eq]
          exact tracks.distinct
        unseen := by
          rw [moves.writeTimes_eq, seen_eq]
          rintro time mem same
          cases same
          exact tracks.fresh file located mem
        fresh := by
          rw [moves.writeTimes_eq, moves.files_eq]
          exact tracks.fresh }

theorem passes {schedule : Schedule Errand} (ordered : schedule.Ordered)
    (works_eq : schedule.works = before.schedule.works) :
    Tracks start { before with schedule } := by
  have times : writeTimes schedule = writeTimes before.schedule := by
    rw [writeTimes, writeTimes, works_eq]
  exact tracks.of_le (tracks.toWatches.passes ordered works_eq) times.le rfl rfl rfl

theorem turn? {errand : Errand} {schedule : Schedule Errand}
    (turn : before.schedule.turn? = some (some errand, schedule)) :
    Tracks start { before with schedule } := by
  have le : writeTimes schedule ≤ writeTimes before.schedule := by
    rw [writeTimes_turn? turn]
    exact Multiset.le_add_left _ _
  exact tracks.of_le (tracks.toWatches.turn? turn) le rfl rfl rfl

/-- What is written was not written before. -/
theorem writes {content : List UInt8} {schedule : Schedule Errand}
    (turn : before.schedule.turn? =
      some (some (.happening (.write start.path content)), schedule)) :
    Tracks start { before with
      schedule
      files := File.write ⟨start.path, schedule.now, content⟩ before.files } := by
  have taken := tracks.turn? turn
  have written : (Errand.happening (.write start.path content)).isWrite = true := rfl
  have times : writeTimes before.schedule = schedule.now ::ₘ writeTimes schedule := by
    rw [writeTimes_turn? turn, if_pos written, (Schedule.works_turn? turn).1,
      Multiset.singleton_add]
  have now_mem : schedule.now ∈ writeTimes before.schedule := by
    rw [times]
    exact Multiset.mem_cons_self _ _
  have distinct := tracks.distinct
  rw [times] at distinct
  have located {file : File} (h : File.locate start.path
      (File.write ⟨start.path, schedule.now, content⟩ before.files) = .ok file) :
      file = ⟨start.path, schedule.now, content⟩ := by
    rw [File.locate_write ⟨start.path, schedule.now, content⟩] at h
    cases h
    rfl
  exact {
    toWatches := { taken.toWatches with
      others_eq := by
        rw [File.filter_write ⟨start.path, schedule.now, content⟩]
        exact taken.others_eq }
    current := by
      intro file h seen_eq
      rw [located h] at seen_eq
      exact absurd seen_eq (tracks.unseen _ now_mem)
    distinct := taken.distinct
    unseen := taken.unseen
    fresh := by
      intro file h
      rw [located h]
      exact (Multiset.nodup_cons.1 distinct).1 }

theorem deletes {schedule : Schedule Errand}
    (turn : before.schedule.turn? = some (some (.happening (.delete start.path)), schedule)) :
    Tracks start { before with
      schedule
      files := before.files.filter (·.name != start.path) } := by
  have taken := tracks.turn? turn
  exact {
    toWatches := { taken.toWatches with
      others_eq := by
        rw [List.filter_filter, ← taken.others_eq]
        simp }
    current := fun file h => absurd h (File.locate_delete_ne _ _ _)
    distinct := taken.distinct
    unseen := taken.unseen
    fresh := fun file h => absurd h (File.locate_delete_ne _ _ _) }

theorem step (hosts : Hosts service start) (step : Step service start before after) :
    Tracks start after := by
  cases step with
  | passes later ordered works_eq => exact tracks.passes ordered works_eq
  | goesOn turn befits apart =>
      have taken := tracks.turn? turn
      exact taken.goesOn (goesOn_perform hosts taken.toWatches befits apart)
  | looks turn looking looked => exact (tracks.turn? turn).looked looked
  | writes turn => exact tracks.writes turn
  | deletes turn => exact tracks.deletes turn

end Tracks

/-! ## The command stays attentive -/

theorem IsAttentive.of_dueBy (attentive : before.IsAttentive)
    (later : before.schedule.now ≤ after.schedule.now)
    (kept : ∀ {limit errand}, before.schedule.DueBy limit errand →
      after.schedule.DueBy limit errand) : after.IsAttentive := by
  have le := Int.add_le_add_right later filePause
  rcases attentive with (begins | looks) | ⟨limit, request, outcome, asker, pending⟩
  · exact .inl (.inl ((kept begins).mono le))
  · exact .inl (.inr ((kept looks).mono le))
  · exact .inr ⟨limit, request, outcome, asker, kept pending⟩

/-- Only a look and the answer that is waited for can leave a command inattentive. -/
theorem IsAttentive.turn? (attentive : before.IsAttentive) {errand : Errand}
    {schedule : Schedule Errand} (turn : before.schedule.turn? = some (some errand, schedule)) :
    { before with schedule }.IsAttentive ∨ errand = .start ∨ errand = .look ∨
      ∃ request outcome, errand = .reply request outcome ∧ request.asker = .caller mainCaller := by
  have now_eq := (Schedule.works_turn? turn).1
  rcases attentive with looks | ⟨limit, request, outcome, asker, pending⟩
  · rcases looks.turn? turn with kept | same | same
    · exact .inl (.inl (now_eq.symm ▸ kept))
    · exact .inr (.inl same)
    · exact .inr (.inr (.inl same))
  · rcases pending.turn? turn with kept | ⟨same, -⟩
    · exact .inl (.inr ⟨limit, request, outcome, asker, kept⟩)
    · cases same
      exact .inr (.inr (.inr ⟨request, outcome, rfl, asker⟩))

theorem isAttentive_perform (hosts : Hosts service start) (watches : Watches start terminal)
    {errand : Errand} (befits : Befits start errand) (apart : errand.touchesFiles = false)
    (attentive : terminal.IsAttentive ∨ errand = .start ∨ errand = .look ∨
      ∃ request outcome, errand = .reply request outcome ∧ request.asker = .caller mainCaller) :
    (terminal.perform service errand).IsAttentive := by
  have goesOn := goesOn_perform hosts watches befits apart
  rcases attentive with attentive | rfl | rfl | ⟨request, outcome, rfl, asker⟩
  · exact attentive.of_dueBy goesOn.continues.now_eq.ge goesOn.continues.dueBy
  · cases apart
  · cases apart
  · have looks := look_takeReply hosts watches befits asker
    have performs : terminal.perform service (.reply request outcome) =
        terminal.takeReply service request outcome := by
      unfold perform
      rw [if_neg (by simp [watches.uninterrupted])]
    refine .inl (.inr ?_)
    rw [goesOn.continues.now_eq, performs]
    exact looks

/-- A program that watches keeps track of its file and is attentive. -/
structure Follows (start terminal : Terminal) : Prop extends Tracks start terminal where
  attentive : terminal.IsAttentive

theorem Follows.step (follows : Follows start before) (hosts : Hosts service start)
    (step : Step service start before after) : Follows start after where
  toTracks := follows.toTracks.step hosts step
  attentive := by
    cases step with
    | passes later ordered works_eq =>
        exact follows.attentive.of_dueBy later fun pending => pending.of_works_eq works_eq
    | goesOn turn befits apart =>
        have watches := follows.toWatches.turn? turn
        exact isAttentive_perform hosts watches befits apart (follows.attentive.turn? turn)
    | looks turn looking looked attentive => exact attentive
    | writes turn | deletes turn =>
        rcases follows.attentive.turn? turn with attentive | same | same | ⟨_, _, same, -⟩
        · exact attentive
        all_goals cases same

theorem Follows.run (follows : Follows start terminal) (hosts : Hosts service start)
    (bound : Nat) : Follows start (Terminal.run service Schedule.wake? bound terminal) := by
  induction bound with
  | zero => exact follows
  | succ bound ih =>
      rw [run_succ]
      exact ih.step hosts (step_run hosts ih.toWatches)

/-! ## The source is brought within the debounce -/

/-- A turn brings the source on, or the command has just read a new one. -/
theorem Brings.step (brings : before.Brings span limit) (hosts : Hosts service start)
    (watches : Watches start before)
    (within : max 0 before.controller.debounceTime.microseconds ≤ span)
    (step : Step service start before after) :
    after.Brings span limit ∨
      (∃ file, File.locate start.path before.files = .ok file ∧ before.seen ≠ some file.written ∧
        after.seen = some file.written) ∧ after.Brings span (before.schedule.now + span) := by
  have nonneg : 0 ≤ span := by omega
  cases step with
  | passes later ordered works_eq => exact .inl (brings.of_eq rfl rfl works_eq)
  | goesOn turn befits apart =>
      have watches' := watches.turn? turn
      exact .inl (brings_perform hosts watches' befits apart within (brings.turn? turn))
  | @looks errand schedule after turn looking looked =>
      have kept : { before with schedule }.Brings span limit := by
        rcases brings.turn? turn with kept | carrier
        · exact kept
        · rcases looking with rfl | rfl <;> cases carrier
      cases looked with
      | idles goesOn => exact .inl (kept.goesOn nonneg goesOn)
      | refuses file fault located text_eq goesOn =>
          refine .inl (Brings.goesOn ?_ nonneg goesOn)
          exact kept.of_eq rfl rfl rfl
      | reads file code located unseen text_eq moves seen_eq code_eq brought =>
          have brought := brought span nonneg
          rw [moves.continues.now_eq, (Schedule.works_turn? turn).1] at brought
          exact .inr ⟨⟨file, located, unseen, seen_eq⟩, brought⟩
  | writes turn | deletes turn =>
      rcases brings.turn? turn with kept | carrier
      · exact .inl (kept.of_eq rfl rfl rfl)
      · cases carrier

theorem Step.now_le (hosts : Hosts service start) (watches : Watches start before)
    (step : Step service start before after) : before.schedule.now ≤ after.schedule.now := by
  cases step with
  | passes later => exact later
  | goesOn turn befits apart =>
      have goesOn := goesOn_perform hosts (watches.turn? turn) befits apart
      rw [goesOn.continues.now_eq]
      exact (Schedule.works_turn? turn).1.ge
  | looks turn looking looked =>
      rw [looked.now_eq]
      exact (Schedule.works_turn? turn).1.ge
  | writes turn | deletes turn => exact (Schedule.works_turn? turn).1.ge

/-- Whenever the debounce takes no longer than `span`, the source is brought within it. -/
theorem Follows.brings_run (follows : Follows start terminal) (hosts : Hosts service start)
    (sourceless : terminal.controller.code = none) (bound : Nat)
    (within : ∀ turns ≤ bound, max 0 (Terminal.run service Schedule.wake? turns
      terminal).controller.debounceTime.microseconds ≤ span) :
    (Terminal.run service Schedule.wake? bound terminal).Brings span
      ((Terminal.run service Schedule.wake? bound terminal).schedule.now + span) := by
  induction bound with
  | zero => exact .sourceless sourceless
  | succ bound ih =>
      have brings := ih fun turns le => within turns (Nat.le_succ_of_le le)
      have watches := (follows.run hosts bound).toWatches
      have step := step_run hosts watches
      rw [run_succ]
      have later := Int.add_le_add_right (step.now_le hosts watches) span
      have within' := within bound (Nat.le_succ bound)
      rcases brings.step hosts watches within' step with kept | ⟨-, brings⟩
      · exact kept.mono later
      · exact brings.mono later

end Terminal

end ComponentPreview
