import ComponentPreview.Terminal.Arguments

/-!
# The order of arguments

Options are adopted one after the other, each with its value (`readFrom_options`). The command and
the path may stand anywhere among them, and what is read depends on the options alone (`read_line`).
A switch is on if it is given anywhere, and of several values of one option the last counts
(`tells_foldl`).
-/

namespace ComponentPreview

def Command.word : Command → String
  | watch => "watch"
  | render => "render"

@[simp]
theorem Command.ofWord?_word (command : Command) : ofWord? command.word = some command := by
  cases command <;> rfl

namespace Arguments

/-- An option as it is given, with its value. Two switches have a short form too. -/
inductive Given
  | noBrowser
  | overlay (shown : Overlay)
  | help (isShort : Bool)
  | version (isShort : Bool)
  | apiUrl (url : String)
  | session (id : String)

namespace Given

/-- The words of an option, which stand together. -/
def words : Given → List String
  | noBrowser => ["--no-browser"]
  | overlay .debug => ["--debug"]
  | overlay .performance => ["--performance"]
  | overlay .accessibility => ["--accessibility"]
  | overlay .info => ["--info"]
  | help isShort => [if isShort then "-h" else "--help"]
  | version isShort => [if isShort then "-v" else "--version"]
  | apiUrl url => ["--api-url", url]
  | session id => ["--session", id]

def apiUrl? : Given → Option String
  | apiUrl url => some url
  | _ => none

def session? : Given → Option String
  | session id => some id
  | _ => none

end Given

/-- The words of a command line: the command, the path behind it, and options before, between and
behind the two. -/
def line (command : Command) (path : String) (front middle back : List Given) : List String :=
  front.flatMap Given.words ++ command.word ::
    (middle.flatMap Given.words ++ path :: back.flatMap Given.words)

/-- What arguments say after a command, a path and some options were given. -/
structure Tells (command : Command) (path : String) (options : List Given)
    (arguments : Arguments) : Prop where
  command_eq : arguments.command = some command
  path_eq : arguments.path = some path
  opensBrowser_iff : arguments.opensBrowser = false ↔ .noBrowser ∈ options
  mem_overlays_iff : ∀ shown, shown ∈ arguments.overlays ↔ .overlay shown ∈ options
  nodup_overlays : arguments.overlays.Nodup
  apiUrl_eq : arguments.apiUrl = (options.filterMap Given.apiUrl?).getLast?
  session_eq : arguments.session = (options.filterMap Given.session?).getLast?
  showsHelp_iff : arguments.showsHelp = true ↔ ∃ isShort, .help isShort ∈ options
  showsVersion_iff : arguments.showsVersion = true ↔ ∃ isShort, .version isShort ∈ options

/-! ## Adopting options -/

def adopt (arguments : Arguments) : Given → Arguments
  | .noBrowser => { arguments with opensBrowser := false }
  | .overlay shown => arguments.display shown
  | .help _ => { arguments with showsHelp := true }
  | .version _ => { arguments with showsVersion := true }
  | .apiUrl url => { arguments with apiUrl := some url }
  | .session id => { arguments with session := some id }

def placed (arguments : Arguments) (command : Option Command) (path : Option String) : Arguments :=
  { arguments with command, path }

variable {arguments next : Arguments} {word : String} {rest : List String}

theorem mem_overlays_display {shown other : Overlay} :
    other ∈ (arguments.display shown).overlays ↔ other ∈ arguments.overlays ∨ other = shown := by
  unfold display
  split
  · next known =>
      have mem : shown ∈ arguments.overlays := by simpa using known
      exact ⟨.inl, fun h => h.elim id fun same => same ▸ mem⟩
  · simp

theorem nodup_overlays_display (nodup : arguments.overlays.Nodup) (shown : Overlay) :
    (arguments.display shown).overlays.Nodup := by
  unfold display
  split
  · exact nodup
  · next unknown =>
      have fresh : shown ∉ arguments.overlays := by simpa using unknown
      rw [List.nodup_append]
      refine ⟨nodup, by simp, ?_⟩
      rintro other mem last isLast rfl
      obtain rfl := List.mem_singleton.1 isLast
      exact fresh mem

theorem nodup_overlays_adopt (nodup : arguments.overlays.Nodup) (given : Given) :
    (arguments.adopt given).overlays.Nodup := by
  cases given with
  | overlay shown => exact nodup_overlays_display nodup shown
  | noBrowser | help | version | apiUrl | session => exact nodup

theorem adopt_placed (arguments : Arguments) (command : Option Command) (path : Option String)
    (given : Given) :
    (arguments.placed command path).adopt given = (arguments.adopt given).placed command path := by
  cases given with
  | overlay shown =>
      by_cases known : shown ∈ arguments.overlays <;> simp [adopt, display, placed, known]
  | noBrowser | help | version | apiUrl | session => rfl

/-- The options are adopted without regard to the command and the path. -/
theorem foldl_adopt_placed (arguments : Arguments) (command : Option Command)
    (path : Option String) (options : List Given) :
    options.foldl adopt (arguments.placed command path) =
      (options.foldl adopt arguments).placed command path := by
  induction options generalizing arguments with
  | nil => rfl
  | cons given options ih => rw [List.foldl_cons, adopt_placed, ih, List.foldl_cons]

theorem nodup_overlays_foldl (nodup : arguments.overlays.Nodup) (options : List Given) :
    (options.foldl adopt arguments).overlays.Nodup := by
  induction options generalizing arguments with
  | nil => exact nodup
  | cons given options ih => exact ih (nodup_overlays_adopt nodup given)

/-- What one option turns on stays on. -/
theorem holds_foldl (holds : Arguments → Prop) (turnsOn : Given → Prop)
    (step : ∀ arguments given, holds (adopt arguments given) ↔ holds arguments ∨ turnsOn given)
    (options : List Given) (arguments : Arguments) :
    holds (options.foldl adopt arguments) ↔
      holds arguments ∨ ∃ given ∈ options, turnsOn given := by
  induction options generalizing arguments with
  | nil => simp
  | cons given options ih => simp [ih, step, or_assoc]

/-- Of several values the last counts. -/
theorem value_foldl (value : Arguments → Option String) (value? : Given → Option String)
    (step : ∀ arguments given, value (adopt arguments given) = (value? given).or (value arguments))
    (options : List Given) (arguments : Arguments) :
    value (options.foldl adopt arguments) =
      (options.filterMap value?).getLast?.or (value arguments) := by
  induction options generalizing arguments with
  | nil => rfl
  | cons given options ih =>
      rw [List.foldl_cons, ih, step, List.filterMap_cons]
      cases value? given with
      | none => rfl
      | some newer =>
          rw [List.getLast?_cons]
          cases (options.filterMap value?).getLast? <;> rfl

theorem tells_foldl (command : Command) (path : String) (options : List Given) :
    Tells command path options ((options.foldl adopt {}).placed (some command) (some path)) where
  command_eq := rfl
  path_eq := rfl
  opensBrowser_iff := by
    have step (arguments : Arguments) (given : Given) :
        (arguments.adopt given).opensBrowser = false ↔
          arguments.opensBrowser = false ∨ given = .noBrowser := by
      cases given <;> simp [adopt, display, apply_ite]
    simpa [placed] using holds_foldl (·.opensBrowser = false) (· = .noBrowser) step options {}
  mem_overlays_iff shown := by
    have step (arguments : Arguments) (given : Given) :
        shown ∈ (arguments.adopt given).overlays ↔
          shown ∈ arguments.overlays ∨ given = .overlay shown := by
      cases given <;> simp [adopt, mem_overlays_display, eq_comm]
    simpa [placed] using holds_foldl (shown ∈ ·.overlays) (· = .overlay shown) step options {}
  nodup_overlays := nodup_overlays_foldl List.nodup_nil options
  apiUrl_eq := by
    have step (arguments : Arguments) (given : Given) :
        (arguments.adopt given).apiUrl = given.apiUrl?.or arguments.apiUrl := by
      cases given <;> simp [adopt, display, apply_ite, Given.apiUrl?]
    simpa [placed] using value_foldl (·.apiUrl) Given.apiUrl? step options {}
  session_eq := by
    have step (arguments : Arguments) (given : Given) :
        (arguments.adopt given).session = given.session?.or arguments.session := by
      cases given <;> simp [adopt, display, apply_ite, Given.session?]
    simpa [placed] using value_foldl (·.session) Given.session? step options {}
  showsHelp_iff := by
    have step (arguments : Arguments) (given : Given) :
        (arguments.adopt given).showsHelp = true ↔
          arguments.showsHelp = true ∨ ∃ isShort, given = .help isShort := by
      cases given <;> simp [adopt, display, apply_ite]
    simpa [placed, and_or_left, exists_or] using
      holds_foldl (·.showsHelp = true) (∃ isShort, · = .help isShort) step options {}
  showsVersion_iff := by
    have step (arguments : Arguments) (given : Given) :
        (arguments.adopt given).showsVersion = true ↔
          arguments.showsVersion = true ∨ ∃ isShort, given = .version isShort := by
      cases given <;> simp [adopt, display, apply_ite]
    simpa [placed, and_or_left, exists_or] using
      holds_foldl (·.showsVersion = true) (∃ isShort, · = .version isShort) step options {}

/-! ## Reading -/

theorem readFrom_of_switch (unvalued : word ≠ "--api-url" ∧ word ≠ "--session")
    (isSwitch : arguments.switch? word = some next) :
    readFrom arguments (word :: rest) = readFrom next rest := by
  rw [readFrom.eq_def]
  simp only [if_neg unvalued.1, if_neg unvalued.2, isSwitch]

theorem readFrom_of_place (unvalued : word ≠ "--api-url" ∧ word ≠ "--session")
    (noSwitch : arguments.switch? word = none) (isPlaced : arguments.place word = .ok next) :
    readFrom arguments (word :: rest) = readFrom next rest := by
  rw [readFrom.eq_def]
  simp only [if_neg unvalued.1, if_neg unvalued.2, noSwitch, isPlaced]

theorem readFrom_given (arguments : Arguments) (given : Given) (rest : List String) :
    readFrom arguments (given.words ++ rest) = readFrom (arguments.adopt given) rest := by
  cases given with
  | apiUrl url => simp [Given.words, readFrom, adopt]
  | session id => simp [Given.words, readFrom, adopt]
  | noBrowser => exact readFrom_of_switch (by decide) (by simp [switch?, adopt])
  | help isShort =>
      cases isShort <;> exact readFrom_of_switch (by decide) (by simp [switch?, adopt])
  | version isShort =>
      cases isShort <;> exact readFrom_of_switch (by decide) (by simp [switch?, adopt])
  | overlay shown =>
      cases shown <;> exact readFrom_of_switch (by decide) rfl

theorem readFrom_options (arguments : Arguments) (options : List Given) (rest : List String) :
    readFrom arguments (options.flatMap Given.words ++ rest) =
      readFrom (options.foldl adopt arguments) rest := by
  induction options generalizing arguments with
  | nil => rfl
  | cons given options ih =>
      rw [List.flatMap_cons, List.append_assoc, readFrom_given, ih, List.foldl_cons]

theorem ne_of_head {option : String} (named : word.toList.head? ≠ some '-')
    (hyphened : option.toList.head? = some '-') : word ≠ option := by
  rintro rfl
  exact named hyphened

theorem unvalued_of_head (named : word.toList.head? ≠ some '-') :
    word ≠ "--api-url" ∧ word ≠ "--session" :=
  ⟨ne_of_head named (by decide), ne_of_head named (by decide)⟩

theorem ofFlag?_of_head (named : word.toList.head? ≠ some '-') : Overlay.ofFlag? word = none := by
  rw [Overlay.ofFlag?, List.find?_eq_none]
  intro shown _ same
  have hyphened : ("--" ++ shown.label).toList.head? = some '-' := by cases shown <;> decide
  exact ne_of_head named hyphened (eq_of_beq same).symm

/-- A word without a hyphen in front is no switch. -/
theorem switch?_of_head (named : word.toList.head? ≠ some '-') :
    arguments.switch? word = none := by
  have unhelpful : ¬(word = "--help" ∨ word = "-h") :=
    not_or.2 ⟨ne_of_head named (by decide), ne_of_head named (by decide)⟩
  have unversioned : ¬(word = "--version" ∨ word = "-v") :=
    not_or.2 ⟨ne_of_head named (by decide), ne_of_head named (by decide)⟩
  rw [switch?, if_neg (ne_of_head named (by decide)), if_neg unhelpful, if_neg unversioned,
    ofFlag?_of_head named]
  rfl

theorem readFrom_command (path : Option String) (command : Command) (rest : List String) :
    readFrom (arguments.placed none path) (command.word :: rest) =
      readFrom (arguments.placed (some command) path) rest := by
  have named : command.word.toList.head? ≠ some '-' := by cases command <;> decide
  refine readFrom_of_place (unvalued_of_head named) (switch?_of_head named) ?_
  simp [place, placed]

/-- Behind the command a word without a hyphen in front is the path, also one that is spelled like
a command. -/
theorem readFrom_path {path : String} (named : path.toList.head? ≠ some '-') (command : Command)
    (rest : List String) :
    readFrom (arguments.placed (some command) none) (path :: rest) =
      readFrom (arguments.placed (some command) (some path)) rest := by
  have unhyphened : Text.startsWith path.toList "-" = false := by
    rw [Text.startsWith, Bool.eq_false_iff, Ne, List.isPrefixOf_iff_prefix]
    rintro ⟨others, whole⟩
    exact named (by rw [← whole]; rfl)
  refine readFrom_of_place (unvalued_of_head named) (switch?_of_head named) ?_
  simp [place, placed, unhyphened]

/-- What is read depends on the options alone, not on where the command and the path stand among
them. -/
theorem read_line {path : String} (named : path.toList.head? ≠ some '-') (command : Command)
    (front middle back : List Given) :
    read (line command path front middle back) =
      .ok (((front ++ middle ++ back).foldl adopt {}).placed (some command) (some path)) := by
  calc read (line command path front middle back)
    _ = readFrom ((front.foldl adopt {}).placed none none)
          (command.word :: (middle.flatMap Given.words ++ path :: back.flatMap Given.words)) := by
        rw [read, line, readFrom_options, ← foldl_adopt_placed]
        rfl
    _ = readFrom ((middle.foldl adopt (front.foldl adopt {})).placed (some command) none)
          (path :: back.flatMap Given.words) := by
        rw [readFrom_command, readFrom_options, foldl_adopt_placed]
    _ = readFrom ((middle.foldl adopt (front.foldl adopt {})).placed (some command) (some path))
          (back.flatMap Given.words ++ []) := by
        rw [readFrom_path named, List.append_nil]
    _ = .ok (((front ++ middle ++ back).foldl adopt {}).placed (some command) (some path)) := by
        rw [readFrom_options, foldl_adopt_placed, readFrom, List.foldl_append, List.foldl_append]

/-- However a command, a path and some options are put together, the same is read, and it says
which switches were given and which value of an option was given last. -/
theorem read_in_any_order (command : Command) (path : String)
    (named : path.toList.head? ≠ some '-') (options : List Given) :
    ∃ arguments, Tells command path options arguments ∧
      ∀ front middle back, front ++ middle ++ back = options →
        read (line command path front middle back) = .ok arguments := by
  refine ⟨_, tells_foldl command path options, ?_⟩
  rintro front middle back rfl
  exact read_line named command front middle back

/-- Values may look like options and commands, and a path like a command. -/
theorem misleading_words_are_read :
    "watch".toList.head? ≠ some '-' ∧
    ∃ arguments, Tells .render "watch"
      [.apiUrl "--session", .session "render", .overlay .info, .version true, .apiUrl "-x",
        .overlay .info] arguments ∧
      read ["--api-url", "--session", "--session", "render", "render", "--info", "-v", "watch",
        "--api-url", "-x", "--info"] = .ok arguments := by
  have named : "watch".toList.head? ≠ some '-' := by decide
  obtain ⟨arguments, tells, reads⟩ := read_in_any_order .render "watch" named
    [.apiUrl "--session", .session "render", .overlay .info, .version true, .apiUrl "-x",
      .overlay .info]
  exact ⟨named, arguments, tells, reads [.apiUrl "--session", .session "render"]
    [.overlay .info, .version true] [.apiUrl "-x", .overlay .info] rfl⟩

end Arguments

end ComponentPreview
