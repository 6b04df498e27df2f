import ComponentPreview.Proofs.Terminal.Watching

/-!
# Looking at a watched file

A look at the file idles, finds a text that cannot be read, or reads a new source, which is called
for at once or by the end of its debounce. With this each turn of a watching program is one of five
kinds (`step_run`).
-/

namespace ComponentPreview

namespace File

variable {path : String} {files : List File}

/-- Where nothing is found, leaving out the files of that name changes nothing. -/
theorem locate_filter {fault : Fault} (h : locate path files = .error fault) :
    locate path (files.filter (·.name != path)) = .error fault := by
  have same : files.filter (·.name != path) = files := by
    rw [List.filter_eq_self]
    unfold locate at h
    split at h
    · cases h
    · next absent => simpa using absent
  rw [same]
  exact h

theorem locate_write (file : File) (files : List File) :
    locate file.name (write file files) = .ok file := by
  have others : (files.filter (·.name != file.name)).find? (·.name == file.name) = none := by
    simp
  rw [locate, write, List.find?_append, others, Option.none_or, List.find?_cons_of_pos (by simp)]

theorem locate_delete_ne (path : String) (files : List File) (file : File) :
    locate path (files.filter (·.name != path)) ≠ .ok file := by
  have others : (files.filter (·.name != path)).find? (·.name == path) = none := by
    simp
  rw [locate, others]
  simp

theorem filter_write (file : File) (files : List File) :
    (write file files).filter (·.name != file.name) = files.filter (·.name != file.name) := by
  rw [write, List.filter_append, List.filter_filter]
  simp

end File

namespace Terminal

variable {service : Service} {start terminal before middle after : Terminal} {span limit : Int}

/-! ## Bringing the source -/

/-- Whether there is no source, the newest call is for it, or a call for it will be made by a time
because a debounce that takes no longer than `span` or a request is under way. -/
inductive Brings (span limit : Int) (terminal : Terminal) : Prop
  | sourceless (code_eq : terminal.controller.code = none)
  | sent (sent : terminal.Sent)
  | opens (number : Nat) (debounce_eq : terminal.controller.debounce = some number)
      (pending : terminal.schedule.DueBy (limit - span) (.control (.openDebounce number)))
  | closes (number : Nat) (debounce_eq : terminal.controller.debounce = some number)
      (pending : terminal.schedule.DueBy limit (.control (.closeDebounce number)))
  | requests (number : Nat) (pending : terminal.schedule.DueBy limit (.control (.request number)))

namespace Brings

theorem mono {limit' : Int} (brings : terminal.Brings span limit) (le : limit ≤ limit') :
    terminal.Brings span limit' := by
  cases brings with
  | sourceless code_eq => exact .sourceless code_eq
  | sent sent => exact .sent sent
  | opens number debounce_eq pending => exact .opens number debounce_eq (pending.mono (by omega))
  | closes number debounce_eq pending => exact .closes number debounce_eq (pending.mono le)
  | requests number pending => exact .requests number (pending.mono le)

theorem of_eq (brings : before.Brings span limit) (calls_eq : after.calls = before.calls)
    (controller_eq : after.controller = before.controller)
    (works_eq : after.schedule.works = before.schedule.works) : after.Brings span limit := by
  cases brings with
  | sourceless code_eq => exact .sourceless (controller_eq ▸ code_eq)
  | sent sent => exact .sent (sent.of_eq calls_eq (congrArg Controller.code controller_eq))
  | opens number debounce_eq pending =>
      exact .opens number (controller_eq ▸ debounce_eq) (pending.of_works_eq works_eq)
  | closes number debounce_eq pending =>
      exact .closes number (controller_eq ▸ debounce_eq) (pending.of_works_eq works_eq)
  | requests number pending => exact .requests number (pending.of_works_eq works_eq)

theorem goesOn (brings : before.Brings span limit) (nonneg : 0 ≤ span)
    (goesOn : GoesOn start before after) : after.Brings span limit := by
  have kept {limit : Int} {errand : Errand} (pending : before.schedule.DueBy limit errand) :
      after.schedule.DueBy limit errand :=
    goesOn.continues.dueBy pending
  rcases goesOn.sends with sent | ⟨calls_eq, served⟩
  · exact .sent sent
  have posted_by (early : before.schedule.now ≤ limit)
      (served : ∃ number, after.schedule.DueBy after.schedule.now (.control (.request number))) :
      after.Brings span limit := by
    obtain ⟨number, posted⟩ := served
    rw [goesOn.continues.now_eq] at posted
    exact .requests number (posted.mono early)
  cases brings with
  | sourceless code_eq => exact .sourceless (goesOn.code_eq.trans code_eq)
  | sent sent => exact .sent (sent.of_eq calls_eq goesOn.code_eq)
  | opens number debounce_eq pending =>
      rcases served with debounce_eq' | served
      · exact .opens number (debounce_eq'.trans debounce_eq) (kept pending)
      · have := pending.now_le
        exact posted_by (by omega) served
  | closes number debounce_eq pending =>
      rcases served with debounce_eq' | served
      · exact .closes number (debounce_eq'.trans debounce_eq) (kept pending)
      · exact posted_by pending.now_le served
  | requests number pending => exact .requests number (kept pending)

/-- The source has been called for once all is done that was due by the time. -/
theorem isSent (brings : terminal.Brings span limit) (nonneg : 0 ≤ span) {code : String}
    (code_eq : terminal.controller.code = some code) (done : terminal.schedule.IsDoneBy limit) :
    terminal.Sent := by
  cases brings with
  | sourceless code_eq' =>
      rw [code_eq] at code_eq'
      cases code_eq'
  | sent sent => exact sent
  | opens number debounce_eq pending => exact absurd done (pending.mono (by omega)).not_isDoneBy
  | closes number debounce_eq pending => exact absurd done pending.not_isDoneBy
  | requests number pending => exact absurd done pending.not_isDoneBy

end Brings

/-! ## Looking at the file -/

/-- Whether the command looks at its file by a time. -/
def LooksBy (limit : Int) (terminal : Terminal) : Prop :=
  terminal.schedule.DueBy limit .start ∨ terminal.schedule.DueBy limit .look

theorem LooksBy.now_le (looks : terminal.LooksBy limit) : terminal.schedule.now ≤ limit :=
  looks.elim Schedule.DueBy.now_le Schedule.DueBy.now_le

theorem LooksBy.turn? (looks : terminal.LooksBy limit) {errand : Errand}
    {schedule : Schedule Errand} (turn : terminal.schedule.turn? = some (some errand, schedule)) :
    { terminal with schedule }.LooksBy limit ∨ errand = .start ∨ errand = .look := by
  rcases looks with begins | looks
  · rcases begins.turn? turn with kept | ⟨same, -⟩
    · exact .inl (.inl kept)
    · cases same
      exact .inr (.inl rfl)
  · rcases looks.turn? turn with kept | ⟨same, -⟩
    · exact .inl (.inr kept)
    · cases same
      exact .inr (.inr rfl)

/-- Whether the command waits for the answer to a request. -/
def AwaitsAnswer (terminal : Terminal) : Prop :=
  ∃ limit request outcome, request.asker = .caller mainCaller ∧
    terminal.schedule.DueBy limit (.reply request outcome)

/-- A command that has an answer to wait for, or looks at its file soon. -/
def IsAttentive (terminal : Terminal) : Prop :=
  terminal.LooksBy (terminal.schedule.now + filePause) ∨ terminal.AwaitsAnswer

/-- How a command looks at its file. -/
inductive Looked (start before after : Terminal) : Prop
  | idles (goesOn : GoesOn start before after)
      (known : ∀ file, File.locate start.path before.files = .ok file →
        before.seen = some file.written)
  | refuses (file : File) (fault : File.Fault)
      (located : File.locate start.path before.files = .ok file)
      (text_eq : file.text = .error fault)
      (goesOn : GoesOn start { before with seen := some file.written } after)
  | reads (file : File) (code : String)
      (located : File.locate start.path before.files = .ok file)
      (unseen : before.seen ≠ some file.written) (text_eq : file.text = .ok code)
      (moves : Moves start before after)
      (seen_eq : after.seen = some file.written) (code_eq : after.controller.code = some code)
      (brings : ∀ span, 0 ≤ span → after.Brings span (after.schedule.now + span))

theorem Looked.now_eq (looked : Looked start before after) :
    after.schedule.now = before.schedule.now := by
  cases looked with
  | idles goesOn | refuses _ _ _ _ goesOn => exact goesOn.continues.now_eq
  | reads _ _ _ _ _ moves => exact moves.continues.now_eq

/-- A command has seen the file at which it has looked. -/
theorem Looked.seen_eq (looked : Looked start before after) {file : File}
    (located : File.locate start.path before.files = .ok file) :
    after.seen = some file.written := by
  cases looked with
  | idles goesOn known => exact goesOn.seen_eq.trans (known file located)
  | refuses other _ located' _ goesOn =>
      rw [located] at located'
      cases located'
      exact goesOn.seen_eq
  | reads other _ located' _ _ _ seen_eq =>
      rw [located] at located'
      cases located'
      exact seen_eq

theorem GoesOn.looked (goesOn : GoesOn start before middle) (looked : Looked start middle after) :
    Looked start before after := by
  cases looked with
  | idles goesOn' known =>
      rw [goesOn.files_eq, goesOn.seen_eq] at known
      exact .idles (goesOn.trans goesOn') known
  | refuses file fault located text_eq goesOn' =>
      rw [goesOn.files_eq] at located
      refine .refuses file fault located text_eq (GoesOn.trans ?_ goesOn')
      exact ⟨⟨{ goesOn.watches with }, goesOn.continues, goesOn.files_eq⟩, rfl, goesOn.code_eq,
        goesOn.sends⟩
  | reads file code located unseen text_eq moves seen_eq code_eq brings =>
      rw [goesOn.files_eq] at located
      rw [goesOn.seen_eq] at unseen
      exact .reads file code located unseen text_eq (goesOn.toMoves.trans moves) seen_eq code_eq
        brings

theorem goesOn_rest (watches : Watches start terminal) :
    GoesOn start terminal (terminal.hold filePause .look) :=
  goesOn_hold watches filePause trivial rfl

theorem isAttentive_rest (terminal : Terminal) : (terminal.hold filePause .look).IsAttentive := by
  have looks := terminal.schedule.dueBy_hold .look (le_refl filePause) (by decide)
  rw [← terminal.schedule.now_hold filePause .look] at looks
  exact .inl (.inr looks)

section Look

variable (hosts : Hosts service start) (watches : Watches start terminal)

include hosts watches

theorem acts_edit (code : String) : Acts start terminal (terminal.controller.edit code)
    (terminal.act service (·.edit code)).1 := by
  have isOpen := (watches.isServing hosts).isOpen
  refine acts_act (·.edit code) hosts watches ?_ ?_
  · rw [terminal.controller.edit_eq isOpen]
    rfl
  · rw [terminal.controller.notices_edit watches.silent isOpen]
    intro notice mem
    rcases List.mem_append.1 mem with mem | mem
    · exact Notice.isCalm_hurry _ notice mem
    · obtain rfl := List.mem_singleton.1 mem
      rfl

theorem code_edit (code : String) :
    (terminal.act service (·.edit code)).1.controller.code = some code := by
  rw [(acts_edit hosts watches code).controller_eq,
    terminal.controller.edit_eq (watches.isServing hosts).isOpen]
  rfl

theorem brings_edit (code : String) (span : Int) :
    (terminal.act service (·.edit code)).1.Brings span
      ((terminal.act service (·.edit code)).1.schedule.now + span) := by
  have isOpen := (watches.isServing hosts).isOpen
  have acts : Acts start terminal _ (terminal.act service (·.edit code)).1 :=
    acts_edit hosts watches code
  have posted : .post (.openDebounce terminal.controller.nextJob) ∈
      (terminal.controller.edit code).notices := by
    simp [terminal.controller.notices_edit watches.silent isOpen]
  refine .opens terminal.controller.nextJob ?_ ?_
  · rw [acts.controller_eq, terminal.controller.edit_eq isOpen]
    rfl
  · rw [Int.add_sub_cancel]
    exact acts.told _ posted

/-- Who asks for some source has it called for, and waits for the answer. -/
theorem refresh_main {code : String} (h : terminal.controller.code = some code) :
    GoesOn start terminal (terminal.refresh service) ∧ (terminal.refresh service).Sent ∧
      (terminal.refresh service).AwaitsAnswer := by
  have isOpen := (watches.isServing hosts).isOpen
  have serves := Controller.serves_refresh watches.silent isOpen mainCaller
  have acts : Acts start terminal _ (terminal.refresh service) :=
    acts_of_serves (·.refresh mainCaller) hosts watches serves
  obtain ⟨version, options, requests_eq⟩ :=
    Controller.requested_refresh watches.silent isOpen h mainCaller
  refine ⟨acts.goesOn serves, acts.sent requests_eq (serves.code_eq.trans h), ?_⟩
  have requested := List.mem_singleton_self (⟨code, version, options, .caller mainCaller⟩ : Request)
  rw [← requests_eq] at requested
  obtain ⟨notice, mem, same⟩ := List.mem_filterMap.1 requested
  cases notice with
  | requested request =>
      cases same
      obtain ⟨limit, outcome, pending⟩ := acts.told _ mem
      exact ⟨limit, _, outcome, rfl, pending⟩
  | _ => cases same

theorem looked_takeUp {file : File} (located : File.locate start.path terminal.files = .ok file)
    (unseen : terminal.seen ≠ some file.written) :
    Looked start terminal (terminal.takeUp service file) ∧
      (terminal.takeUp service file).IsAttentive := by
  have watches' : Watches start { terminal with seen := some file.written } := { watches with }
  unfold takeUp
  dsimp only
  split
  · next fault text_eq =>
      have printed := goesOn_print watches' (File.refusal terminal.path fault)
      have goesOn := printed.trans (goesOn_rest printed.watches)
      exact ⟨.refuses file fault located text_eq goesOn, isAttentive_rest _⟩
  · next code text_eq =>
      have acts := acts_edit hosts watches' code
      have code_eq := code_edit hosts watches' code
      have moves (after : Terminal) (goesOn : GoesOn start _ after) : Moves start terminal after :=
        ⟨goesOn.watches, acts.continues.trans goesOn.continues,
          goesOn.files_eq.trans acts.files_eq⟩
      split
      · obtain ⟨goesOn, sent, awaits⟩ := refresh_main hosts acts.watches code_eq
        exact ⟨.reads file code located unseen text_eq (moves _ goesOn)
          (goesOn.seen_eq.trans acts.seen_eq) (goesOn.code_eq.trans code_eq)
          (fun _ _ => .sent sent), .inr awaits⟩
      · have goesOn := goesOn_rest acts.watches
        refine ⟨.reads file code located unseen text_eq (moves _ goesOn) acts.seen_eq code_eq ?_,
          isAttentive_rest _⟩
        intro span nonneg
        rw [goesOn.continues.now_eq]
        exact (brings_edit hosts watches' code span).goesOn nonneg goesOn

theorem looked_look : Looked start terminal (terminal.look service) ∧
    (terminal.look service).IsAttentive := by
  have isOpen := (watches.isServing hosts).isOpen
  have holds := goesOn_rest watches
  rw [look, if_neg (by simp [isOpen]), watches.path_eq]
  split
  · next file located =>
      split
      · next known =>
          refine ⟨.idles holds ?_, isAttentive_rest terminal⟩
          intro other located'
          rw [located] at located'
          cases located'
          exact known
      · next unseen => exact looked_takeUp hosts watches located unseen
  · next fault located =>
      have missing := File.locate_filter located
      rw [watches.others_eq, hosts.missing] at missing
      cases missing
      refine ⟨.idles holds ?_, isAttentive_rest terminal⟩
      intro other located'
      rw [located] at located'
      cases located'

/-- The command begins with a look, after all else that it does at its start. -/
theorem looked_startWatch : Looked start terminal (terminal.startWatch service) ∧
    (terminal.startWatch service).IsAttentive := by
  have dials : GoesOn start terminal (terminal.post .dial) := goesOn_post watches trivial rfl
  have opens : GoesOn start terminal ((terminal.post .dial).post .openConsole) :=
    dials.trans (goesOn_post dials.watches trivial rfl)
  have warns := opens.trans (goesOn_print opens.watches terminal.warnings)
  have greets := warns.trans (goesOn_print warns.watches
    ("Watching " ++ terminal.path ++ " (session " ++ terminal.session ++ ")\n"))
  obtain ⟨looked, attentive⟩ := looked_look hosts greets.watches
  exact ⟨greets.looked looked, attentive⟩

theorem looked_perform {errand : Errand} (looking : errand = .start ∨ errand = .look) :
    Looked start terminal (terminal.perform service errand) ∧
      (terminal.perform service errand).IsAttentive := by
  have performs : ¬(terminal.isInterrupted && errand.isMain) := by
    simp [watches.uninterrupted]
  unfold perform
  rw [if_neg performs]
  rcases looking with rfl | rfl
  · dsimp only
    rw [watches.command_eq]
    exact looked_startWatch hosts watches
  · exact looked_look hosts watches

end Look

/-! ## Turns -/

/-- A run stands still or takes its first turn whatever its bound. -/
theorem run_cases (service : Service) (terminal : Terminal) :
    (∀ bound, run service Schedule.wake? bound terminal = terminal) ∨
    ∃ after, ∀ bound,
      run service Schedule.wake? (bound + 1) terminal = run service Schedule.wake? bound after := by
  by_cases ended : terminal.ending.isSome
  · refine .inl fun bound => ?_
    cases bound <;> simp [run, ended]
  · cases turn : terminal.schedule.turn? with
    | some taken =>
        obtain ⟨_ | errand, schedule⟩ := taken
        · exact .inr ⟨{ terminal with schedule }, fun bound => by simp [run, ended, turn]⟩
        · exact .inr ⟨_, fun bound => by rw [run, if_neg ended, turn]⟩
    | none =>
        cases woken : terminal.schedule.wake? with
        | some schedule =>
            exact .inr ⟨{ terminal with schedule }, fun bound => by simp [run, ended, turn, woken]⟩
        | none =>
            refine .inl fun bound => ?_
            cases bound <;> simp [run, ended, turn, woken]

theorem run_succ (service : Service) (bound : Nat) (terminal : Terminal) :
    run service Schedule.wake? (bound + 1) terminal =
      run service Schedule.wake? 1 (run service Schedule.wake? bound terminal) := by
  induction bound generalizing terminal with
  | zero => rfl
  | succ bound ih =>
      rcases run_cases service terminal with still | ⟨after, first⟩
      · rw [still, still, still]
      · rw [first, first, ih]

/-- What a turn is to a watching program. -/
inductive Step (service : Service) (start before : Terminal) : Terminal → Prop
  | passes {schedule : Schedule Errand} (later : before.schedule.now ≤ schedule.now)
      (ordered : schedule.Ordered) (works_eq : schedule.works = before.schedule.works) :
      Step service start before { before with schedule }
  | goesOn {errand : Errand} {schedule : Schedule Errand}
      (turn : before.schedule.turn? = some (some errand, schedule))
      (befits : Befits start errand) (apart : errand.touchesFiles = false) :
      Step service start before ({ before with schedule }.perform service errand)
  | looks {errand : Errand} {schedule : Schedule Errand} {after : Terminal}
      (turn : before.schedule.turn? = some (some errand, schedule))
      (looking : errand = .start ∨ errand = .look)
      (looked : Looked start { before with schedule } after) (attentive : after.IsAttentive) :
      Step service start before after
  | writes {content : List UInt8} {schedule : Schedule Errand}
      (turn : before.schedule.turn? =
        some (some (.happening (.write start.path content)), schedule)) :
      Step service start before { before with
        schedule
        files := File.write ⟨start.path, schedule.now, content⟩ before.files }
  | deletes {schedule : Schedule Errand}
      (turn : before.schedule.turn? = some (some (.happening (.delete start.path)), schedule)) :
      Step service start before { before with
        schedule
        files := before.files.filter (·.name != start.path) }

theorem Watches.passes (watches : Watches start terminal) {schedule : Schedule Errand}
    (ordered : schedule.Ordered) (works_eq : schedule.works = terminal.schedule.works) :
    Watches start { terminal with schedule } :=
  { watches with
    befits := by
      rw [Schedule.All, works_eq]
      exact watches.befits
    ordered }

theorem Watches.turn? (watches : Watches start terminal) {work? : Option Errand}
    {schedule : Schedule Errand} (turn : terminal.schedule.turn? = some (work?, schedule)) :
    Watches start { terminal with schedule } :=
  { watches with
    befits := (Schedule.all_turn? watches.befits turn).1
    ordered := Schedule.ordered_turn? watches.ordered turn }

theorem step_perform (hosts : Hosts service start) (watches : Watches start terminal)
    {errand : Errand} {schedule : Schedule Errand}
    (turn : terminal.schedule.turn? = some (some errand, schedule)) :
    Step service start terminal ({ terminal with schedule }.perform service errand) := by
  have befits := (Schedule.all_turn? watches.befits turn).2 errand rfl
  have watches' := watches.turn? turn
  cases apart : errand.touchesFiles with
  | false => exact .goesOn turn befits apart
  | true =>
      cases errand with
      | start =>
          obtain ⟨looked, attentive⟩ := looked_perform hosts watches' (.inl rfl)
          exact .looks turn (.inl rfl) looked attentive
      | look =>
          obtain ⟨looked, attentive⟩ := looked_perform hosts watches' (.inr rfl)
          exact .looks turn (.inr rfl) looked attentive
      | happening happening =>
          have performs : { terminal with schedule }.perform service (.happening happening) =
              { terminal with schedule }.face service happening := by
            unfold perform
            rw [if_neg (by simp [watches.uninterrupted])]
          rw [performs]
          cases happening with
          | write name content =>
              obtain rfl : name = start.path := befits
              exact .writes turn
          | delete name =>
              obtain rfl : name = start.path := befits
              exact .deletes turn
          | _ => cases apart
      | _ => cases apart

theorem step_run (hosts : Hosts service start) (watches : Watches start terminal) :
    Step service start terminal (run service Schedule.wake? 1 terminal) := by
  rw [run, if_neg (by simp [watches.unended])]
  split
  · next errand schedule turn => exact step_perform hosts watches turn
  · next schedule turn =>
      have works := Schedule.works_turn? turn
      rw [Option.toList_none, List.map_nil, Multiset.coe_nil, zero_add] at works
      exact .passes works.1.ge (Schedule.ordered_turn? watches.ordered turn) works.2.symm
  · next idle =>
      split
      · next schedule woken =>
          obtain ⟨later, works_eq⟩ := Schedule.works_wake? watches.ordered idle woken
          refine .passes later ?_ works_eq
          obtain ⟨first, -, rfl⟩ := Option.map_eq_some_iff.1 woken
          exact watches.ordered
      · exact .passes le_rfl watches.ordered rfl

end Terminal

end ComponentPreview
