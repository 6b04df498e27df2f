import ComponentPreview.Terminal.Local
import ComponentPreview.Terminal.Program

/-!
# The command line program

The thin layer around the program: it reads the file, the clock and the console, hands over what
has happened, and prints what the program says.
-/

namespace ComponentPreview.CommandLine

open ComponentPreview

def variableNames : List String :=
  ["PREVIEW_API_URL", "PREVIEW_DEBOUNCE_MS", "PREVIEW_MAX_RENDER_TIME_MS"]

def readEnvironment : IO Environment :=
  variableNames.filterMapM fun name => do
    return (← IO.getEnv name).map fun value => (name, value)

def readFile (name : String) (now : Int) : IO (Option File) := do
  try
    let content ← IO.FS.readBinFile name
    return some ⟨name, now, content.toList⟩
  catch _ =>
    return none

/-- How many steps are done at most before the console and the file are looked at again. -/
def stepLimit : Nat := 1000000

/-- What has happened to the file since it was last looked at. -/
def changeOf (known : Option File) (found : Option File) : Option Happening :=
  match known, found with
  | none, some file => some (.write file.name file.content)
  | some file, none => some (.delete file.name)
  | some old, some file =>
      if old.content == file.content then none else some (.write file.name file.content)
  | none, none => none

def readLine (input : IO.FS.Stream) : IO (Option String) := do
  let line ← input.getLine
  return if line.isEmpty then none
    else some (String.ofList (Text.trim isBlank line.toList))

def knownFile (terminal : Terminal) : Option File :=
  terminal.files.find? (·.name == terminal.path)

def say (terminal : Terminal) : IO Terminal := do
  IO.print terminal.printed
  (← IO.getStdout).flush
  return { terminal with printed := "" }

def complain (error : ProgramError) : IO UInt32 := do
  IO.eprintln error.message
  return 1

partial def loop (service : Service) (started : Nat) (terminal : Terminal)
    (line : Option (Task (Except IO.Error (Option String)))) : IO UInt32 := do
  let now : Int := 1000 * (((← IO.monoMsNow) - started : Nat) : Int)
  let found ← readFile terminal.path now
  let terminal := match changeOf (knownFile terminal) found with
    | some happening => terminal.face service happening
    | none => terminal
  let (terminal, line) ← do
    match line with
    | none => pure (terminal, line)
    | some task =>
        if ← IO.hasFinished task then
          match task.get with
          | .ok text =>
              let next ← match text with
                | some _ => do
                    let input ← IO.getStdin
                    pure (some (← IO.asTask (readLine input)))
                | none => pure none
              pure (terminal.face service (.line text), next)
          | .error _ => pure (terminal.face service (.line none), none)
        else pure (terminal, line)
  let terminal ← say (terminal.advance service stepLimit now)
  match terminal.ending with
  | some (.ok code) => return code.toUInt32
  | some (.error error) => complain error
  | none =>
      IO.sleep 20
      loop service started terminal line

def run (words : List String) : IO UInt32 := do
  let environment ← readEnvironment
  let service := Service.inProcess {}
  let path := match Arguments.read words with
    | .ok arguments => File.canonicalPath (arguments.path.getD "")
    | .error _ => ""
  let files := (← readFile path 0).toList
  let serial ← IO.rand 0 (Nat.pow 16 12 - 1)
  match Terminal.launch { environment, files, serial } words with
  | .error error => complain error
  | .ok (.ended result) =>
      IO.print result.printed
      return result.exitCode.toUInt32
  | .ok (.running terminal) =>
      let input ← IO.getStdin
      let line ← match terminal.command with
        | .watch => do pure (some (← IO.asTask (readLine input)))
        | .render => pure none
      loop service (← IO.monoMsNow) terminal line

end ComponentPreview.CommandLine

def main (words : List String) : IO UInt32 :=
  ComponentPreview.CommandLine.run words
