import ComponentPreview.Proofs.Service.Posting
import ComponentPreview.Proofs.Service.Store
import ComponentPreview.Service.App
import Mathlib.Data.List.DropRight

/-!
# The newest version of a session

A session shows the newest of the previews that were posted for it since it was last absent, in
whatever order their versions came, and the last of those with one version. Two routes read a
session whose name is one segment of a path, one for its version and one for its host page, and both
show the same.
-/

/-! ## Routes that read a session -/

namespace ComponentPreview.App

/-- Whether a session can stand as one segment in the path of a request. -/
def isSegment (session : String) : Bool :=
  !session.toList.isEmpty && !session.toList.contains '/'

def versionPath (session : String) : List Char :=
  "/api/live-preview/".toList ++ session.toList

def pagePath (session : String) : List Char :=
  "/preview/".toList ++ session.toList

theorem segmentAfter?_append (start : String) {session : String}
    (segment : isSegment session = true) :
    segmentAfter? start (start.toList ++ session.toList) = some session := by
  simp only [isSegment, Bool.and_eq_true, Bool.not_eq_true'] at segment
  have starts : Text.startsWith (start.toList ++ session.toList) start = true := by
    simp [Text.startsWith]
  have rest : (start.toList ++ session.toList).drop start.length = session.toList := by
    rw [← String.length_toList, List.drop_left]
  rw [segmentAfter?, if_pos starts, rest]
  dsimp only
  rw [segment.1, segment.2]
  simp

theorem isFixedPath_versionPath (segment : List Char) :
    isFixedPath ("/api/live-preview/".toList ++ segment) "/api/live-preview" = false := by
  simp [isFixedPath]

theorem isFixedPath_pagePath (segment : List Char) :
    isFixedPath ("/preview/".toList ++ segment) "/api/live-preview" = false := by
  simp [isFixedPath]

theorem segmentAfter?_pagePath (segment : List Char) :
    segmentAfter? "/api/live-preview/" ("/preview/".toList ++ segment) = none := by
  simp [segmentAfter?, Text.startsWith, List.isPrefixOf]

theorem ofPath?_versionPath {session : String} (segment : isSegment session = true) :
    Route.ofPath? (versionPath session) = some (.version session) := by
  unfold Route.ofPath? versionPath
  rw [isFixedPath_versionPath, segmentAfter?_append _ segment, if_neg Bool.false_ne_true]

theorem ofPath?_pagePath {session : String} (segment : isSegment session = true) :
    Route.ofPath? (pagePath session) = some (.page session) := by
  unfold Route.ofPath? pagePath
  rw [isFixedPath_pagePath, segmentAfter?_pagePath, segmentAfter?_append _ segment,
    if_neg Bool.false_ne_true]

def get (app : App) (path : List Char) : Response :=
  (app.handle ⟨"GET", path, Submission.ofJson none, ""⟩).2

theorem get_versionPath (app : App) {session : String} (segment : isSegment session = true) :
    app.get (versionPath session) = app.version session := by
  simp [get, handle, ofPath?_versionPath segment, Route.method]

theorem get_pagePath (app : App) {session : String} (segment : isSegment session = true) :
    app.get (pagePath session) = app.page session := by
  simp [get, handle, ofPath?_pagePath segment, Route.method]

end ComponentPreview.App

/-! ## What a session holds -/

namespace ComponentPreview

/-- A preview that none of those before surpasses and that surpasses those after. -/
structure Posted.Newest (earlier : List Posted) (posted : Posted) (later : List Posted) : Prop where
  earlier_le : ∀ other ∈ earlier, other.version ≤ posted.version
  later_lt : ∀ other ∈ later, other.version < posted.version

namespace StoredPreview

/-- Whether an entry is what a number of posted previews come to. -/
inductive Holds (entry : StoredPreview) : List Posted → Prop
  | nothing : entry.document = none → entry.version = 0 → entry.Holds []
  | newest (earlier later : List Posted) (posted : Posted) (document : Document) :
      entry.document = some document → entry.version = posted.version →
      document.componentName = posted.componentName → document.html = posted.html →
      posted.Newest earlier later → entry.Holds (earlier ++ posted :: later)

variable {entry : StoredPreview} {posteds : List Posted}

theorem Holds.setRegistry (holds : entry.Holds posteds) (registry : Registry) :
    Holds { entry with registry } posteds := by
  cases holds with
  | nothing document_eq version_eq => exact .nothing document_eq version_eq
  | newest earlier later posted document document_eq version_eq name_eq html_eq newest =>
      exact .newest earlier later posted document document_eq version_eq name_eq html_eq newest

/-- One more preview is recorded unless its version is older than the newest. -/
theorem Holds.record (holds : entry.Holds posteds) {posted : Posted} (h : 1 ≤ posted.version)
    {document : Document} (name_eq : document.componentName = posted.componentName)
    (html_eq : document.html = posted.html) (now : Instant) :
    (if posted.version < entry.version then entry
      else Store.record posted.version document now entry).Holds (posteds ++ [posted]) := by
  cases holds with
  | nothing document_eq version_eq =>
      rw [if_neg (by omega)]
      exact .newest [] [] posted document rfl rfl name_eq html_eq ⟨by simp, by simp⟩
  | newest earlier later best old document_eq version_eq old_name_eq old_html_eq newest =>
      split
      · next stale =>
          -- An older version stands after the newest one and below it.
          rw [List.append_assoc, List.cons_append]
          refine .newest earlier (later ++ [posted]) best old document_eq version_eq old_name_eq
            old_html_eq ⟨newest.earlier_le, ?_⟩
          intro other mem
          rcases List.mem_append.1 mem with mem | mem
          · exact newest.later_lt other mem
          · rw [List.mem_singleton.1 mem]
            omega
      · next recent =>
          refine .newest (earlier ++ best :: later) [] posted document rfl rfl name_eq html_eq
            ⟨?_, by simp⟩
          intro other mem
          rcases List.mem_append.1 mem with mem | mem
          · have := newest.earlier_le other mem
            omega
          · rcases List.mem_cons.1 mem with rfl | mem
            · omega
            · have := newest.later_lt other mem
              omega

end StoredPreview

namespace Store

/-- Whether the entry of a session, if it has one, is what the previews posted for it come to. -/
def Reflects (store : Store) (session : String) (posteds : List Posted) : Prop :=
  match store.find? session with
  | some entry => entry.Holds posteds
  | none => posteds = []

variable {store : Store} {session : String} {posteds : List Posted}

theorem Reflects.of_find?_eq {after : Store} (reflects : store.Reflects session posteds)
    (same : after.find? session = store.find? session) : after.Reflects session posteds := by
  rw [Reflects, same]
  exact reflects

theorem Reflects.holds (reflects : store.Reflects session posteds) (now : Instant) :
    ((store.find? session).getD (fresh session now)).Holds posteds := by
  unfold Reflects at reflects
  cases found : store.find? session with
  | some entry =>
      rw [found] at reflects
      exact reflects
  | none =>
      rw [found] at reflects
      subst reflects
      exact .nothing rfl rfl

theorem Reflects.setRegistry (reflects : store.Reflects session posteds) (registry : Registry)
    (now : Instant) :
    ((store.ensure session now).setRegistry session registry).Reflects session posteds := by
  rw [Reflects, find?_setRegistry_self, find?_ensure_self]
  exact (reflects.holds now).setRegistry registry

theorem Reflects.save (reflects : store.Reflects session posteds) (posted : Posted)
    (h : 1 ≤ posted.version) {document : Document}
    (name_eq : document.componentName = posted.componentName)
    (html_eq : document.html = posted.html) (now : Instant) :
    (store.save session posted.version document now).1.Reflects session (posteds ++ [posted]) := by
  rw [Reflects, find?_save_self]
  exact (reflects.holds now).record h name_eq html_eq now

end Store

namespace App

variable {before after : Store} {posted : Option Posted}

theorem distinct_dropped (distinct : before.Distinct) (cutoffs : List Instant) :
    (dropped before cutoffs).Distinct := by
  induction cutoffs generalizing before with
  | nil => exact distinct
  | cons cutoff cutoffs ih => exact ih (Store.distinct_dropBefore distinct cutoff)

theorem find?_dropped_cases (distinct : before.Distinct) (session : String)
    (cutoffs : List Instant) :
    (dropped before cutoffs).find? session = none ∨
      (dropped before cutoffs).find? session = before.find? session := by
  induction cutoffs generalizing before with
  | nil => exact .inr rfl
  | cons cutoff cutoffs ih =>
      rcases ih (Store.distinct_dropBefore distinct cutoff) with missing | same
      · exact .inl missing
      · rcases Store.find?_dropBefore_cases distinct session cutoff with missing | kept
        · exact .inl (same.trans missing)
        · exact .inr (same.trans kept)

namespace StoreChange

theorem distinct (change : StoreChange before posted after) (distinct : before.Distinct) :
    after.Distinct := by
  have prepared : ∀ session registry now,
      ((before.ensure session now).setRegistry session registry).Distinct :=
    fun session registry now =>
      Store.distinct_setRegistry (Store.distinct_ensure distinct session now) session registry
  cases change with
  | drops cutoffs => exact distinct_dropped distinct cutoffs
  | refuses session registry now => exact prepared session registry now
  | grants session version document registry now =>
      exact Store.distinct_save (prepared session registry now) session version document now

/-- A change drops the entry of a session or takes in what is posted for it. -/
theorem reflects (change : StoreChange before posted after) (distinct : before.Distinct)
    {session : String} {posteds : List Posted} (reflects : before.Reflects session posteds) :
    after.find? session = none ∨
      after.Reflects session (posteds ++ (posted.filter (·.session == session)).toList) := by
  cases change with
  | drops cutoffs =>
      refine (find?_dropped_cases distinct session cutoffs).imp_right fun same => ?_
      simpa using reflects.of_find?_eq same
  | refuses other registry now =>
      right
      by_cases own : session = other
      · subst own
        simpa using reflects.setRegistry registry now
      · refine Store.Reflects.of_find?_eq (by simpa using reflects) ?_
        rw [Store.find?_setRegistry_of_ne own, Store.find?_ensure_of_ne own]
  | grants other version document registry now positive =>
      right
      by_cases own : session = other
      · subst own
        have recorded := (reflects.setRegistry registry now).save
          ⟨session, version, document.componentName, document.html⟩ positive rfl rfl now
        simpa [Option.filter] using recorded
      · refine Store.Reflects.of_find?_eq (by simpa [Option.filter, Ne.symm own] using reflects) ?_
        rw [Store.find?_save_of_ne own, Store.find?_setRegistry_of_ne own,
          Store.find?_ensure_of_ne own]

end StoreChange

/-! ## Runs -/

/-- The previews posted for a session since it was last absent. -/
def postedFor (session : String) (turns : List Turn) : List Posted :=
  ((turns.rtakeWhile fun turn => (turn.after.store.find? session).isSome).filterMap
    Turn.posted?).filter (·.session == session)

theorem postedFor_append_singleton (session : String) (turns : List Turn) (turn : Turn) :
    postedFor session (turns ++ [turn]) =
      if (turn.after.store.find? session).isSome then
        postedFor session turns ++ (turn.posted?.filter (·.session == session)).toList
      else [] := by
  unfold postedFor
  rw [List.rtakeWhile_concat]
  split
  · rw [List.filterMap_append, List.filter_append]
    cases found : turn.posted? with
    | none => simp [found]
    | some posted => cases own : posted.session == session <;> simp [found, Option.filter, own]
  · rfl

theorem run_append_singleton (app : App) (events : List Event) (event : Event) :
    app.run (events ++ [event]) = app.run events ++ [⟨app.afterAll events, event⟩] :=
  run_append events [event]

theorem afterAll_append_singleton (app : App) (events : List Event) (event : Event) :
    app.afterAll (events ++ [event]) = Turn.after ⟨app.afterAll events, event⟩ :=
  afterAll_append events [event]

/-- After every run the store shows of each session what was posted for it. -/
theorem reflects_run (settings : Settings) (events : List Event) (session : String) :
    ((initial settings).afterAll events).store.Distinct ∧
      ((initial settings).afterAll events).store.Reflects session
        (postedFor session ((initial settings).run events)) := by
  induction events using List.reverseRecOn with
  | nil => exact ⟨List.nodup_nil, rfl⟩
  | append_singleton events event ih =>
      obtain ⟨distinct, reflects⟩ := ih
      let turn : Turn := ⟨(initial settings).afterAll events, event⟩
      have change : StoreChange turn.before.store turn.posted? turn.after.store := turn.storeChange
      rw [run_append_singleton, afterAll_append_singleton, postedFor_append_singleton]
      refine ⟨change.distinct distinct, ?_⟩
      -- If the session is absent now, nothing counts as posted for it.
      rcases change.reflects distinct reflects with missing | taken
      · rw [Store.Reflects, missing]
        rfl
      · cases found : turn.after.store.find? session with
        | none =>
            rw [Store.Reflects, found]
            rfl
        | some entry => exact taken

end App

namespace Response

/-- Whether a response tells the version of a posted preview and what its document is. -/
structure ShowsVersion (response : Response) (posted : Posted) : Prop where
  status_eq : response.status = 200
  body : ∃ body, response.body = .json body ∧
    body.get "sessionId" = .str posted.session ∧ body.get "version" = .int posted.version ∧
    body.get "componentName" = .str posted.componentName ∧
    body.get "documentHash" = .str (Digest.sha256 posted.html.toUTF8)

/-- Whether a response is the host page of the document of a posted preview. -/
structure ShowsPage (response : Response) (posted : Posted) : Prop where
  status_eq : response.status = 200
  body : ∃ document, document.componentName = posted.componentName ∧
    document.html = posted.html ∧
    response.body = .page document (HostPage.render posted.session posted.version document)

end Response

namespace App

variable {app : App} {session : String}

theorem not_found_of_reflects (reflects : app.store.Reflects session []) :
    (app.version session).status = 404 ∧ (app.page session).status = 404 := by
  have missing : app.store.latest? session = none := by
    unfold Store.Reflects at reflects
    unfold Store.latest?
    cases found : app.store.find? session with
    | none => rfl
    | some entry =>
        rw [found] at reflects
        generalize none : ([] : List Posted) = posteds at reflects
        cases reflects with
        | nothing document_eq version_eq => simp [Option.filter, document_eq]
        | newest => simp at none
  rw [version, page, missing]
  exact ⟨rfl, rfl⟩

theorem shows_of_reflects {posteds : List Posted} (reflects : app.store.Reflects session posteds)
    (own : ∀ posted ∈ posteds, posted.session = session) (nonempty : posteds ≠ []) :
    ∃ earlier posted later, posteds = earlier ++ posted :: later ∧ posted.Newest earlier later ∧
      (app.version session).ShowsVersion posted ∧ (app.page session).ShowsPage posted := by
  unfold Store.Reflects at reflects
  cases found : app.store.find? session with
  | none =>
      rw [found] at reflects
      exact absurd reflects nonempty
  | some entry =>
      rw [found] at reflects
      cases reflects with
      | nothing => exact absurd rfl nonempty
      | newest earlier later posted document document_eq version_eq name_eq html_eq newest =>
          have latest : app.store.latest? session = some entry := by
            simp [Store.latest?, found, Option.filter, document_eq]
          have session_eq : entry.session = posted.session :=
            (Store.session_of_find? found).trans (own posted (by simp)).symm
          obtain ⟨name, number, _, registry, updatedAt⟩ := entry
          dsimp only at document_eq version_eq session_eq
          subst document_eq version_eq session_eq
          refine ⟨earlier, posted, later, rfl, newest, ?_, ?_⟩
          · rw [version, latest]
            refine ⟨rfl, _, rfl, rfl, rfl, ?_, ?_⟩
            · rw [← name_eq]
              rfl
            · rw [← html_eq]
              rfl
          · rw [page, latest]
            exact ⟨rfl, document, name_eq, html_eq, rfl⟩

def submissionOf (session : String) (version : Int) : Event :=
  .http "POST" "/api/live-preview".toList
    (.value (some (.obj [("code", .str "x"), ("sessionId", .str session),
      ("version", .int version)])))
    "127.0.0.1"

end App

end ComponentPreview
