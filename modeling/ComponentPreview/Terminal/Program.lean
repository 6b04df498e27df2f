import ComponentPreview.Preview
import ComponentPreview.Terminal.Basic
import ComponentPreview.Terminal.Defaults
import ComponentPreview.Terminal.Usage

/-!
# Running the program

`render` requests the file once and, if a browser shows it, waits for the verdict of the sandbox.
`watch` looks at the file again and again, requests it at once when it is there for the first time
and after the debounce time when it has changed. An interrupt ends what the command sleeps over;
while it waits for a request, it ends only that request.
-/

namespace ComponentPreview.Terminal

/-! ## Watching and rendering -/

/-- What the command does when its own request has been answered. -/
def resume (service : Service) (terminal : Terminal) : Terminal :=
  match terminal.command with
  | .watch => terminal.hold filePause .look
  | .render =>
      if terminal.browser.isUsed then
        (terminal.act service fun controller =>
          (controller.await mainCaller verdictPause).attend mainCaller).1
      else terminal.stop (if terminal.controller.phase = .rendering then 0 else 1)

/-- Requests the file after an edit. -/
def refresh (service : Service) (terminal : Terminal) : Terminal :=
  (terminal.act service (·.refresh mainCaller)).1

/-- Takes up a file that has been written since it was read last. -/
def takeUp (service : Service) (terminal : Terminal) (file : File) : Terminal :=
  let isFirst := terminal.seen.isNone
  let terminal := { terminal with seen := some file.written }
  match file.text with
  | .error fault => (terminal.print (File.refusal terminal.path fault)).hold filePause .look
  | .ok code =>
      let terminal := (terminal.act service (·.edit code)).1
      if isFirst then terminal.refresh service else terminal.hold filePause .look

/-- Looks at the file, and sleeps unless a request is under way. -/
def look (service : Service) (terminal : Terminal) : Terminal :=
  if terminal.controller.isClosed then terminal.stop 0
  else
    match File.locate terminal.path terminal.files with
    | .ok file =>
        if terminal.seen = some file.written then terminal.hold filePause .look
        else terminal.takeUp service file
    | .error fault =>
        if fault.isReported then terminal.hold filePause .look else terminal.fall (.file fault)

/-! ## The console -/

/-- Does what a line asks for, and tells whether that takes time. -/
def obey (service : Service) (terminal : Terminal) (line : String) : Terminal × Bool :=
  match line with
  | "r" =>
      let (terminal, returned) := terminal.act service (·.refresh consoleCaller)
      (terminal, !returned.any (·.1 == consoleCaller))
  | "f" => ((terminal.act service Controller.fullscreen).1, false)
  | "q" => ((terminal.act service Controller.close).1, false)
  | "" => (terminal, false)
  | _ => (terminal.print "  commands: r (refresh), f (fullscreen), q (quit)\n", false)

def closeConsole (terminal : Terminal) : Terminal :=
  { terminal with lines := {} }

/-- Takes lines until one takes time or the console ends. -/
def readFrom (service : Service) : List (Option String) → Terminal → Terminal
  | [], terminal => { terminal with lines := .opened }
  | none :: _, terminal => terminal.closeConsole
  | some line :: lines, terminal =>
      let (terminal, isBusy) := terminal.obey service line
      if isBusy then { terminal with lines := { reader := .busy, items := lines } }
      else if terminal.controller.isClosed then terminal.closeConsole
      else readFrom service lines terminal

def readLines (service : Service) (terminal : Terminal) : Terminal :=
  readFrom service terminal.lines.items terminal

/-- Goes on for whoever got an answer, or whose request broke down. -/
def goOn (service : Service) (terminal : Terminal) (returned : String × Option Breakdown) :
    Terminal :=
  if returned.1 = mainCaller then
    match returned.2 with
    | none => terminal.resume service
    | some breakdown => terminal.fall (.broken breakdown)
  else if returned.1 = consoleCaller then
    if returned.2.isSome || terminal.controller.isClosed then terminal.closeConsole
    else terminal.readLines service
  else terminal

/-! ## The relay -/

def dial (terminal : Terminal) : Terminal :=
  let terminal :=
    { terminal with dialed := terminal.dialed ++ [terminal.client.relayUrl terminal.session] }
  match terminal.refusals with
  | 0 => { terminal with frames := .opened }
  | refusals + 1 => { terminal with refusals }.hold relayPause .dial

/-- Hands a message of the sandbox to the controller, if it still listens. -/
def publish (service : Service) (terminal : Terminal) (message : LifecycleMessage) : Terminal :=
  (Bus.publish Terminal.bus
    (fun _ terminal => ((terminal.act service (·.handle message)).1, true))
    message.session terminal).1

/-- Takes frames until the connection ends. A frame that holds too much ends it for good. -/
def takeFrames (service : Service) : List (Option Frame) → Terminal → Terminal
  | [], terminal => { terminal with frames := .opened }
  | none :: _, terminal => { terminal with frames := {} }.hold relayPause .dial
  | some frame :: frames, terminal =>
      match Relay.readFrame frame with
      | .error (.unreadable _) => { terminal with frames := {} }
      | .error _ => { terminal with frames := {} }.hold relayPause .dial
      | .ok message =>
          match message.bind fun raw => LifecycleMessage.read? raw terminal.session none with
          | some message => takeFrames service frames (terminal.publish service message)
          | none => takeFrames service frames terminal

/-! ## Happenings -/

def takeFrame (terminal : Terminal) (frame : Option Frame) : Terminal :=
  let (frames, isCalled) := terminal.frames.put frame
  let terminal := { terminal with frames }
  if isCalled then terminal.post .readFrames else terminal

def takeLine (terminal : Terminal) (line : Option String) : Terminal :=
  let (lines, isCalled) := terminal.lines.put line
  let terminal := { terminal with lines }
  if isCalled then terminal.post .readLines else terminal

/-- The job that the command waits for. -/
def awaited? (terminal : Terminal) : Option Nat :=
  (terminal.controller.waiters.find? (·.name == mainCaller)).bind (·.watched.head?)

/-- Interrupts the command: the request it waits for, or else its sleep. -/
def interrupt (service : Service) (terminal : Terminal) : Terminal :=
  match terminal.awaited? with
  | some number =>
      if terminal.controller.hasEnded number then terminal
      else (terminal.act service (·.callOffRequest number)).1
  | none =>
      { terminal with isInterrupted := true, schedule := terminal.schedule.hurry Errand.isMain }

/-- Ends an interrupted command. -/
def abort (service : Service) (terminal : Terminal) : Terminal :=
  ((terminal.act service Controller.close).1.print "\n").stop 0

def face (service : Service) (terminal : Terminal) : Happening → Terminal
  | .write name content =>
      { terminal with
        files := File.write ⟨name, terminal.schedule.now, content⟩ terminal.files }
  | .delete name => { terminal with files := terminal.files.filter (·.name != name) }
  | .frame frame => terminal.takeFrame (some frame)
  | .hangUp => terminal.takeFrame none
  | .line text => terminal.takeLine text
  | .interrupt => terminal.interrupt service

/-! ## Errands -/

def answerOf (terminal : Terminal) (request : Request) (delivery : Delivery) : Answer :=
  match terminal.client.submission (terminal.callOf request) with
  | .error _ => .error (.transport "")
  | .ok outgoing =>
      match Client.readVerdict outgoing delivery with
      | .ok body => .ok body
      | .error (.transport error) => .error (.transport error.message)
      | .error error => .error (.broken (.call error))

/-- Lets a controller act and goes on for those who got an answer. -/
def work (service : Service) (terminal : Terminal) (action : Controller → Controller) : Terminal :=
  let (terminal, returned) := terminal.act service action
  returned.foldl (goOn service) terminal

/-- Takes the reply to a request. The verdict of the sandbox follows it. -/
def takeReply (service : Service) (terminal : Terminal) (request : Request) (outcome : Outcome) :
    Terminal :=
  let terminal := match outcome.verdict with
    | some (delay, text) =>
        if terminal.controller.isCalledOff request.asker then terminal
        else terminal.alarm delay (.happening (.frame (.text text)))
    | none => terminal
  terminal.work service (·.perform
    (.answer request.version request.asker (terminal.answerOf request outcome.delivery)))

def startWatch (service : Service) (terminal : Terminal) : Terminal :=
  ((((terminal.post .dial).post .openConsole).print terminal.warnings).print ("Watching " ++
    terminal.path ++ " (session " ++ terminal.session ++ ")\n")).look service

def startRender (service : Service) (terminal : Terminal) : Terminal :=
  match File.read terminal.path terminal.files with
  | .error fault => terminal.fall (.file fault)
  | .ok code =>
      let terminal := terminal.print terminal.warnings
      let terminal := if terminal.browser.isUsed then terminal.post .dial else terminal
      (terminal.act service (·.edit code)).1.refresh service

def perform (service : Service) (terminal : Terminal) (errand : Errand) : Terminal :=
  if terminal.isInterrupted && errand.isMain then terminal.abort service
  else
    match errand with
    | .start =>
        match terminal.command with
        | .watch => terminal.startWatch service
        | .render => terminal.startRender service
    | .control job => terminal.work service (·.perform job)
    | .reply request outcome => terminal.takeReply service request outcome
    | .look => terminal.look service
    | .dial => terminal.dial
    | .readFrames => takeFrames service terminal.frames.items terminal
    | .openConsole => { terminal with lines := .opened }
    | .readLines => terminal.readLines service
    | .happening happening => terminal.face service happening

/-- Runs until the program ends or `wake?` finds nothing that is due, in at most `bound` turns. -/
def run (service : Service) (wake? : Schedule Errand → Option (Schedule Errand)) :
    Nat → Terminal → Terminal
  | 0, terminal => terminal
  | bound + 1, terminal =>
      if terminal.ending.isSome then terminal
      else
        match terminal.schedule.turn? with
        | some (some errand, schedule) =>
            run service wake? bound ({ terminal with schedule }.perform service errand)
        | some (none, schedule) => run service wake? bound { terminal with schedule }
        | none =>
            match wake? terminal.schedule with
            | some schedule => run service wake? bound { terminal with schedule }
            | none => terminal

/-- Runs up to a moment. -/
def advance (service : Service) (bound : Nat) (stop : Int) (terminal : Terminal) : Terminal :=
  let terminal := run service (·.wakeBy? stop) bound terminal
  { terminal with schedule := { terminal.schedule with now := max terminal.schedule.now stop } }

/-! ## Starting -/

/-- What the program finds when it starts. -/
structure Setting where
  environment : Environment := []
  files : List File := []
  happenings : List (Int × Happening) := []
  refusals : Nat := 0
  serial : Nat := 1

def newSession (serial : Nat) : String :=
  "cli_" ++ String.ofList ((Preview.serialDigits serial).toList.take 12)

def warningsOf (environment : Environment) : String :=
  (debounceMs environment).2 ++ (maxRenderTimeMs environment).2

/-- The program before its first errand. What happens at the very start comes after that. -/
def prepare (setting : Setting) (arguments : Arguments) (command : Command) (path : String) :
    Except AddressError Terminal := do
  let apiUrl := Terminal.apiUrl setting.environment arguments.apiUrl
  let given := arguments.session.getD ""
  let session := if given.isEmpty then newSession setting.serial else given
  let schedule := setting.happenings.foldl
    (fun (schedule : Schedule Errand) (time, happening) =>
      schedule.alarm time (.happening happening)) {}
  return {
    command
    path
    client := ← Client.forService apiUrl (some (Terminal.socketUrl apiUrl))
    controller := {
      session
      options := arguments.options
      objection := Report.objection
      debounceTime := .count (debounceMs setting.environment).1
      renderTime := .count (maxRenderTimeMs setting.environment).1 }
    browser := Browser.forService apiUrl arguments.opensBrowser
    bus := Bus.empty.subscribe session session
    warnings := warningsOf setting.environment
    schedule := schedule.post .start
    files := setting.files
    refusals := setting.refusals }

/-- What the program leaves behind. -/
structure Result where
  exitCode : Nat
  printed : String
  calls : List PreviewCall := []
  opened : List String := []
  dialed : List String := []
  endedAt : Int := 0

def Result.ofTerminal (terminal : Terminal) (exitCode : Nat) : Result where
  exitCode := exitCode
  printed := terminal.printed
  calls := terminal.calls
  opened := terminal.opened
  dialed := terminal.dialed
  endedAt := terminal.schedule.now

/-- The result of a program; one that has not ended counts as successful. -/
def result (terminal : Terminal) : Except ProgramError Result :=
  (terminal.ending.getD (.ok 0)).map (Result.ofTerminal terminal)

/-- The beginning of a program: it has ended at once, or it is to be run. -/
inductive Launch
  | ended (result : Result)
  | running (terminal : Terminal)

/-- Launches a command. A file that cannot be read once ends `render` before anything else. -/
def launchCommand (setting : Setting) (arguments : Arguments) (command : Command)
    (path : String) : Except ProgramError Launch :=
  let path := File.canonicalPath path
  match command, File.read path setting.files with
  | .render, .error fault =>
      if fault.isReported then
        .ok (.ended { exitCode := 1, printed := File.refusal path fault })
      else .error (.file fault)
  | _, _ => ((prepare setting arguments command path).map .running).mapError .address

def launch (setting : Setting) (words : List String) : Except ProgramError Launch :=
  match Arguments.read words with
  | .error error => .ok (.ended { exitCode := 1, printed := error.message })
  | .ok arguments =>
      if arguments.showsHelp then .ok (.ended { exitCode := 0, printed := Usage.help })
      else if arguments.showsVersion then
        .ok (.ended { exitCode := 0, printed := Usage.versionLine })
      else
        match arguments.command, arguments.path with
        | some command, some path => launchCommand setting arguments command path
        | _, _ => .ok (.ended { exitCode := 1, printed := Usage.help })

/-- Runs the program from start to end, in at most `bound` turns. -/
def runArguments (service : Service) (setting : Setting) (bound : Nat) (words : List String) :
    Except ProgramError Result := do
  match ← launch setting words with
  | .ended result => return result
  | .running terminal => (run service Schedule.wake? bound terminal).result

end ComponentPreview.Terminal
