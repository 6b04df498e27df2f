import ComponentPreview.Proofs.Terminal.Tracking

/-!
# Watching converges

A program that watches a file looks at it again and again, and what it has read is requested by the
end of the debounce. So once a file has been left alone for long enough, the newest request was for
its text.
-/

namespace ComponentPreview

open Controller (IsVerdict)

namespace Terminal

variable {service : Service} {start terminal before after : Terminal} {span limit : Int}

/-! ## A file that is left alone -/

/-- How far a program is with a file: it has not seen it and is going to look in time, or it has and
the source is brought in time. -/
inductive Pursues (file : File) (span limit : Int) (terminal : Terminal) : Prop
  | looks (unseen : terminal.seen ≠ some file.written) (looks : terminal.LooksBy (limit - span))
  | brings (seen_eq : terminal.seen = some file.written) (brings : terminal.Brings span limit)

theorem LooksBy.of_dueBy (looks : before.LooksBy limit)
    (dueBy : ∀ errand, before.schedule.DueBy limit errand → after.schedule.DueBy limit errand) :
    after.LooksBy limit :=
  looks.imp (dueBy .start) (dueBy .look)

/-- A look stays pending until the command has seen its file. -/
theorem LooksBy.step (looks : before.LooksBy limit) (hosts : Hosts service start)
    (watches : Watches start before) (step : Step service start before after) :
    after.LooksBy limit ∨
      ∀ file, File.locate start.path before.files = .ok file → after.seen = some file.written := by
  cases step with
  | passes later ordered works_eq =>
      exact .inl (looks.of_dueBy fun errand pending => pending.of_works_eq works_eq)
  | goesOn turn befits apart =>
      have goesOn := goesOn_perform hosts (watches.turn? turn) befits apart
      rcases looks.turn? turn with kept | rfl | rfl
      · exact .inl (kept.of_dueBy fun errand => goesOn.continues.dueBy)
      · cases apart
      · cases apart
  | looks turn looking looked => exact .inr fun file located => looked.seen_eq located
  | writes turn | deletes turn =>
      rcases looks.turn? turn with kept | same | same
      · exact .inl (kept.of_dueBy fun _ => id)
      · cases same
      · cases same

/-- What a command has seen of its file it goes on to have seen. -/
theorem seen_step {file : File} (hosts : Hosts service start) (watches : Watches start before)
    (located : File.locate start.path before.files = .ok file)
    (seen_eq : before.seen = some file.written) (step : Step service start before after) :
    after.seen = some file.written := by
  cases step with
  | passes => exact seen_eq
  | goesOn turn befits apart =>
      have goesOn := goesOn_perform hosts (watches.turn? turn) befits apart
      exact goesOn.seen_eq.trans seen_eq
  | looks turn looking looked => exact looked.seen_eq located
  | writes | deletes => exact seen_eq

theorem Pursues.step {file : File} (pursues : before.Pursues file span limit)
    (hosts : Hosts service start) (watches : Watches start before)
    (within : max 0 before.controller.debounceTime.microseconds ≤ span)
    (brings : before.Brings span (before.schedule.now + span))
    (located : File.locate start.path before.files = .ok file)
    (step : Step service start before after) : after.Pursues file span limit := by
  cases pursues with
  | looks unseen looks =>
      have early := looks.now_le
      have brought : before.Brings span limit := brings.mono (by omega)
      have brought : after.Brings span limit := by
        rcases brought.step hosts watches within step with kept | ⟨-, brought⟩
        · exact kept
        · exact brought.mono (by omega)
      by_cases seen_eq : after.seen = some file.written
      · exact .brings seen_eq brought
      · rcases looks.step hosts watches step with kept | seen
        · exact .looks seen_eq kept
        · exact absurd (seen file located) seen_eq
  | brings seen_eq brought =>
      apply Pursues.brings (seen_step hosts watches located seen_eq step)
      rcases brought.step hosts watches within step with kept | ⟨⟨other, located', unseen, -⟩, -⟩
      · exact kept
      · rw [located] at located'
        cases located'
        exact absurd seen_eq unseen

/-- Whether the answer to some request is outstanding. -/
def IsOutstanding (terminal : Terminal) : Prop :=
  ∃ entry ∈ terminal.schedule.works, entry.2.isReply = true

/-- A command that no answer keeps from looking begins to pursue its file. -/
theorem Follows.pursues (follows : Follows start terminal)
    (answered : ¬terminal.IsOutstanding)
    (brings : terminal.Brings span (terminal.schedule.now + span)) (file : File) :
    terminal.Pursues file span (terminal.schedule.now + filePause + span) := by
  by_cases seen_eq : terminal.seen = some file.written
  · exact .brings seen_eq (brings.mono (by simp [filePause]))
  · refine .looks seen_eq ?_
    rw [Int.add_sub_cancel]
    rcases follows.attentive with looks | ⟨limit, request, outcome, -, due, -, mem⟩
    · exact looks
    · exact absurd ⟨_, mem, rfl⟩ answered

theorem Follows.pursues_run (follows : Follows start start) (hosts : Hosts service start)
    (sourceless : start.controller.code = none) {first last : Nat} {file : File} (le : first ≤ last)
    (within : ∀ turns ≤ last, max 0 (Terminal.run service Schedule.wake? turns
      start).controller.debounceTime.microseconds ≤ span)
    (located : ∀ turns, first ≤ turns → turns ≤ last →
      File.locate start.path (Terminal.run service Schedule.wake? turns start).files = .ok file)
    (answered : ¬(Terminal.run service Schedule.wake? first start).IsOutstanding) :
    (Terminal.run service Schedule.wake? last start).Pursues file span
      ((Terminal.run service Schedule.wake? first start).schedule.now + filePause + span) := by
  induction last, le using Nat.le_induction with
  | base =>
      exact (follows.run hosts first).pursues answered
        (follows.brings_run hosts sourceless first within) file
  | succ last le ih =>
      have within' : ∀ turns ≤ last, _ := fun turns le => within turns (Nat.le_succ_of_le le)
      have pursues := ih within' fun turns after before =>
        located turns after (Nat.le_succ_of_le before)
      have watches := (follows.run hosts last).toWatches
      rw [run_succ]
      exact pursues.step hosts watches (within' last le_rfl)
        (follows.brings_run hosts sourceless last within')
        (located last le (Nat.le_succ last)) (step_run hosts watches)

/-! ## Starting -/

/-- When something is written in a setting. -/
def Setting.writeTimes (setting : Setting) : List Int :=
  (setting.happenings.filter (·.2.isWrite)).map fun entry => max 0 entry.1

/-- A setting in which only the file at `path` is written and deleted, each time of writing is a new
one, and nobody quits. -/
structure Setting.Feeds (setting : Setting) (path : String) : Prop where
  plain : ∀ entry ∈ setting.happenings, entry.2.IsPlain path
  missing : File.locate path (setting.files.filter (·.name != path)) = .error (.missing path)
  distinct : setting.writeTimes.Nodup
  fresh : ∀ file, File.locate path setting.files = .ok file → file.written ∉ setting.writeTimes

theorem works_alarms (happenings : List (Int × Happening)) {schedule : Schedule Errand}
    (origin : schedule.now = 0) (ordered : schedule.Ordered) :
    (happenings.foldl (fun (schedule : Schedule Errand) (time, happening) =>
        schedule.alarm time (.happening happening)) schedule).Ordered ∧
      (happenings.foldl (fun (schedule : Schedule Errand) (time, happening) =>
        schedule.alarm time (.happening happening)) schedule).works =
        ↑(happenings.map fun entry => (max 0 entry.1, Errand.happening entry.2)) +
          schedule.works := by
  induction happenings generalizing schedule with
  | nil => exact ⟨ordered, (zero_add _).symm⟩
  | cons entry happenings ih =>
      have origin' : (schedule.alarm entry.1 (.happening entry.2)).now = 0 := origin
      obtain ⟨ordered', works_eq⟩ := ih origin' (Schedule.ordered_insert _ ordered)
      refine ⟨ordered', works_eq.trans ?_⟩
      rw [Schedule.works_alarm, origin, zero_add, List.map_cons, ← Multiset.cons_coe,
        Multiset.cons_add, Multiset.add_cons]

/-- What a program starts with. -/
structure Begins (setting : Setting) (path : String) (start : Terminal) : Prop where
  command_eq : start.command = .watch
  path_eq : start.path = path
  files_eq : start.files = setting.files
  seen_eq : start.seen = none
  lines_eq : start.lines = {}
  uninterrupted : start.isInterrupted = false
  unended : start.ending = none
  isServing : start.controller.IsServing
  silent : start.controller.notices = []
  sourceless : start.controller.code = none
  objection_eq : start.controller.objection = Report.objection
  ordered : start.schedule.Ordered
  works_eq : start.schedule.works = (start.schedule.now, .start) ::ₘ
    ↑(setting.happenings.map fun entry => (max 0 entry.1, Errand.happening entry.2))

theorem begins_prepare {setting : Setting} {arguments : Arguments} {path : String}
    (prepared : prepare setting arguments .watch path = .ok start) : Begins setting path start := by
  unfold prepare at prepared
  dsimp only at prepared
  cases called : Client.forService (Terminal.apiUrl setting.environment arguments.apiUrl)
      (some (Terminal.socketUrl (Terminal.apiUrl setting.environment arguments.apiUrl))) with
  | error error =>
      rw [called] at prepared
      cases prepared
  | ok client =>
      rw [called] at prepared
      cases prepared
      have origin : ({} : Schedule Errand).now = 0 := rfl
      obtain ⟨ordered, works_eq⟩ := works_alarms setting.happenings origin .nil
      exact {
        command_eq := rfl, path_eq := rfl, files_eq := rfl, seen_eq := rfl, lines_eq := rfl
        uninterrupted := rfl, unended := rfl, isServing := ⟨rfl, rfl, rfl⟩, silent := rfl
        sourceless := rfl, objection_eq := rfl, ordered := ordered
        works_eq := by
          rw [Schedule.works_post, works_eq]
          exact congrArg _ (add_zero _) }

namespace Begins

variable {setting : Setting} (begins : Begins setting start.path start)
  (feeds : setting.Feeds start.path)

include begins feeds

theorem watches : Watches start start where
  command_eq := begins.command_eq
  path_eq := rfl
  client_eq := rfl
  stance_eq := rfl
  silent := begins.silent
  uninterrupted := begins.uninterrupted
  unended := begins.unended
  noQuit := by
    rw [begins.lines_eq]
    exact List.not_mem_nil
  others_eq := rfl
  befits := by
    intro entry mem
    rw [begins.works_eq, Multiset.mem_cons] at mem
    rcases mem with rfl | mem
    · trivial
    · obtain ⟨given, mem', rfl⟩ := List.mem_map.1 (Multiset.mem_coe.1 mem)
      exact feeds.plain given mem'
  ordered := begins.ordered

omit feeds in
theorem writeTimes_eq : writeTimes start.schedule = ↑setting.writeTimes := by
  rw [writeTimes, begins.works_eq, Multiset.filter_cons_of_neg _ (by simp [Errand.isWrite]),
    Setting.writeTimes, Multiset.filter_coe, Multiset.map_coe, List.filter_map, List.map_map]
  have same : setting.happenings.filter
      (fun entry => decide ((Errand.happening entry.2).isWrite = true)) =
        setting.happenings.filter (·.2.isWrite) :=
    List.filter_congr fun _ _ => Bool.decide_eq_true
  rw [← same]
  rfl

theorem follows : Follows start start where
  toWatches := begins.watches feeds
  current := by
    intro file _ seen_eq
    rw [begins.seen_eq] at seen_eq
    cases seen_eq
  distinct := by
    rw [begins.writeTimes_eq]
    exact Multiset.coe_nodup.2 feeds.distinct
  unseen := by
    intro time _
    rw [begins.seen_eq]
    exact (Option.some_ne_none time).symm
  fresh := by
    rw [begins.writeTimes_eq, begins.files_eq]
    exact feeds.fresh
  attentive := by
    refine .inl (.inl (Schedule.dueBy_of_works begins.works_eq ?_))
    simp [filePause]

end Begins

theorem launchCommand_watch {setting : Setting} {arguments : Arguments} {path : String}
    (launched : launchCommand setting arguments .watch path = .ok (.running start)) :
    Begins setting start.path start := by
  unfold launchCommand at launched
  dsimp only at launched
  cases prepared : prepare setting arguments .watch (File.canonicalPath path) with
  | error error =>
      rw [prepared] at launched
      cases launched
  | ok terminal =>
      rw [prepared] at launched
      cases launched
      have begins := begins_prepare prepared
      rw [← begins.path_eq] at begins
      exact begins

end Terminal

namespace File

theorem unifyLineBreaks_eq_self {text : List Char} (h : '\r' ∉ text) :
    unifyLineBreaks text = text := by
  fun_induction unifyLineBreaks text <;> simp_all

theorem text_of_decode {file : File} {text : List Char} (h : Utf8.decode file.content = .ok text) :
    file.text = .ok (String.ofList (unifyLineBreaks text)) := by
  rw [File.text, h]

end File

namespace Terminal

/-- The body of a verdict on which there is nothing to show. -/
def emptyVerdict : Json :=
  .obj [("success", .bool true)]

/-- A service that answers all requests at once with the same verdict. -/
def promptService : Service := fun _ _ =>
  { delay := 0, delivery := .ok ⟨200, Utf8.encode (emptyVerdict.print true).toList⟩ }

def isEmptyVerdict : Except Json.ByteFault Json → Bool
  | .ok (.obj [("success", .bool true)]) => true
  | _ => false

theorem readBytes_emptyVerdict :
    Json.readBytes (Utf8.encode (emptyVerdict.print true).toList) = .ok emptyVerdict := by
  have evaluated : isEmptyVerdict
      (Json.readBytes (Utf8.encode (emptyVerdict.print true).toList)) = true := by
    decide +kernel
  generalize Json.readBytes (Utf8.encode (emptyVerdict.print true).toList) = read at evaluated
  unfold isEmptyVerdict at evaluated
  split at evaluated
  · rfl
  · cases evaluated

theorem isVerdict_emptyVerdict : IsVerdict Report.objection (.ok emptyVerdict) := by
  have success : (Json.get "success" emptyVerdict).isTruthy = true := rfl
  rw [emptyVerdict] at success ⊢
  rw [IsVerdict, if_pos success]
  exact ⟨rfl, rfl⟩

theorem readVerdict_ok {outgoing : Outgoing} {reply : HttpReply} {body : Json}
    (known : Client.namesKind outgoing.url = true) (status_eq : reply.status = 200)
    (read : Json.readBytes reply.body = .ok body) :
    Client.readVerdict outgoing (.ok reply) = .ok body := by
  rw [Client.readVerdict, Client.receive, if_pos known]
  simp only [bind, Except.bind]
  rw [if_pos (.inl status_eq), read]
  rfl

theorem answers_promptService {start : Terminal} {url : String}
    (resolved : start.client.resolve "/api/live-preview" = .ok url)
    (known : Client.namesKind url = true) (now : Int) (request : Request) :
    IsVerdict Report.objection
      (start.answerOf request (promptService now (start.callOf request)).delivery) := by
  have submitted : start.client.submission (start.callOf request) =
      .ok ⟨"POST", url, some (start.callOf request).encode⟩ := by
    rw [Client.submission, resolved]
    rfl
  have verdict : Client.readVerdict ⟨"POST", url, some (start.callOf request).encode⟩
      (promptService now (start.callOf request)).delivery = .ok emptyVerdict :=
    readVerdict_ok known rfl readBytes_emptyVerdict
  rw [answerOf, submitted]
  dsimp only
  rw [verdict]
  exact isVerdict_emptyVerdict

/-- What is saved over the text that a program has begun to watch, with a line break of two
characters. -/
def savedFile : File :=
  ⟨"a", 1, Utf8.encode "a\r\nb".toList⟩

def savedSetting : Setting :=
  { environment := [("PREVIEW_DEBOUNCE_MS", "0")]
    files := [⟨"a", -1, Utf8.encode "x".toList⟩]
    happenings := [(1, .write "a" savedFile.content)] }

def savedLaunch : Except ProgramError Launch :=
  launchCommand savedSetting { session := some "s" } .watch "a"

/-- Whether a program that was launched rests after the file was saved, its newest request made. -/
def restsSaved : Except ProgramError Launch → Bool
  | .ok (.running start) =>
      let after turns := run promptService Schedule.wake? turns start
      start.path == "a" &&
      (start.client.resolve "/api/live-preview").toOption.any Client.namesKind &&
      ((List.range 30).all fun turns =>
        decide ((after turns).controller.debounceTime.microseconds ≤ 0)) &&
      ((List.range' 12 18).all fun turns =>
        (File.locate "a" (after turns).files).toOption == some savedFile) &&
      decide (∀ entry ∈ (after 12).schedule.works, entry.2.isReply = false) &&
      decide (∀ entry ∈ (after 29).schedule.works,
        (after 12).schedule.now + filePause < entry.1) &&
      (after 29).calls.getLast?.any (·.code == "a\nb")
  | _ => false

theorem restsSaved_savedLaunch : restsSaved savedLaunch = true := by
  decide +kernel

/-- What comes of saving the file, between the turn that writes it and the last that is due. -/
structure RestsSaved (start : Terminal) : Prop where
  feeds : savedSetting.Feeds start.path
  answers : ∀ now request, IsVerdict Report.objection
    (start.answerOf request (promptService now (start.callOf request)).delivery)
  within : ∀ turns ≤ 29, max 0 (run promptService Schedule.wake? turns
    start).controller.debounceTime.microseconds ≤ 0
  located : ∀ turns, 12 ≤ turns → turns ≤ 29 → File.locate start.path
    (run promptService Schedule.wake? turns start).files = .ok savedFile
  answered : ¬(run promptService Schedule.wake? 12 start).IsOutstanding
  done : (run promptService Schedule.wake? 29 start).schedule.IsDoneBy
    ((run promptService Schedule.wake? 12 start).schedule.now + filePause + 0)
  newest : ∃ call, (run promptService Schedule.wake? 29 start).calls.getLast? = some call ∧
    call.code = "a\nb"

theorem feeds_savedSetting : savedSetting.Feeds "a" where
  plain := by simp [savedSetting, Happening.IsPlain]
  missing := by
    have others : savedSetting.files.filter (·.name != "a") = [] := by decide
    rw [others, File.locate, List.find?_nil]
    dsimp only
    rw [if_neg (by simp), if_neg (by decide), if_neg (by decide +kernel),
      if_neg (by decide +kernel)]
  distinct := by decide
  fresh := by
    have located : File.locate "a" savedSetting.files = .ok ⟨"a", -1, Utf8.encode "x".toList⟩ := rfl
    intro file located'
    rw [located] at located'
    cases located'
    decide

theorem eq_ok_of_toOption {ε α : Type} {result : Except ε α} {value : α}
    (h : result.toOption = some value) : result = .ok value := by
  cases result with
  | error => cases h
  | ok => exact congrArg _ (Option.some.inj h)

theorem exists_restsSaved : ∃ start, savedLaunch = .ok (.running start) ∧ RestsSaved start := by
  have evaluated := restsSaved_savedLaunch
  generalize savedLaunch = launched at evaluated
  obtain error | ended | start := launched
  · cases evaluated
  · cases evaluated
  · refine ⟨start, rfl, ?_⟩
    simp only [restsSaved, Bool.and_eq_true, beq_iff_eq, List.all_eq_true, decide_eq_true_eq,
      Option.any_eq_true] at evaluated
    obtain ⟨⟨⟨⟨⟨⟨path_eq, url, resolved, known⟩, within⟩, located⟩, answered⟩, done⟩, newest⟩ :=
      evaluated
    exact {
      feeds := path_eq ▸ feeds_savedSetting
      answers := answers_promptService (eq_ok_of_toOption resolved) known
      within := by
        intro turns le
        exact max_le le_rfl (within turns (List.mem_range.2 (by omega)))
      located := by
        intro turns after before
        rw [path_eq]
        exact eq_ok_of_toOption (located turns (List.mem_range'_1.2 (by omega)))
      answered := by
        rintro ⟨entry, mem, isReply⟩
        rw [answered entry mem] at isReply
        cases isReply
      done := by
        rw [add_zero]
        exact done
      newest := newest }

end Terminal

end ComponentPreview
