/-
The run command: start an engine over an owner loop and report on it.

Views are created first; then the engine is started, by the owner thread itself or because worker
threads need it; then a closure is sent to the owner thread and back, so that all views have been
told before they are counted.

Design notes: views and workers are kept in vectors, and a count whose vector could not be allocated
whatever memory there is ends the process before the first of them is made (`Run.fits`).
-/
import LazyEngine.CommandLine.Arguments
import LazyEngine.CommandLine.Output
import LazyEngine.Provider

namespace LazyEngine.CommandLine

namespace Run

/-- The configuration with what the options of the command say. -/
def configure (config : Config) (o : RunOptions) : Config :=
  { config with
    warmup := o.warmup.getD config.warmup
    switchFile := o.switchFile.or config.switchFile
    debuggable := config.debuggable || o.debuggable }

/-- The initializer: an engine, unless starting is to fail. -/
def initializer (config : Config) (fail : Bool) : Initializer Host Engine :=
  if fail then fun host => (.failed ["simulated engine library failed to load"], host)
  else config.boot

def aboutVersion (config : Config) : VersionChange → List Output
  | .firstRun => [.line ("🆕 First run in " ++ config.baseDirectory)]
  | .unchanged => []
  | .upgraded last => [.line ("⬆️  Upgraded from version " ++ toString last.toNat)]
  | .downgraded last =>
    [.line ("⬇️  Downgraded from version " ++ toString last.toNat ++ "; engine data was wiped")]

/-- Whether a vector of so many pointers, of eight bytes each, stays below `2 ^ 63` bytes. -/
def fits (count : Nat) : Bool :=
  count < 0x1000000000000000

/-- Create so many views. -/
def createViews : Nat → Provider → Provider
  | 0, p => p
  | n + 1, p =>
    let p := createViews n p
    (p.createView ("view " ++ toString n)).2

/-- Have worker threads start the engine and wait for all of them. -/
def startByWorkers (p : Provider) (workers : Nat) :
    List (Option (Except StartupError Engine)) × Provider :=
  let m := p.session.machine
  let ids := (List.range workers).map (m.threads.length + ·)
  let m := { m with threads :=
    m.threads ++ ids.map fun _ => [.script .caller [.ensureStarted .none]] }
  let session := { p.session with machine := Session.drive m 1 (ids.map .join) }
  (ids.map session.answerTo, { p with session })

/-- The lines of workers up to the first one that got no engine, and what that one got. -/
def aboutWorkers (first : Nat) : List (Option (Except StartupError Engine)) →
    List Output × Option StartupError
  | [] => ([], none)
  | some (.error e) :: _ => ([], some e)
  | _ :: rest =>
    let (lines, e) := aboutWorkers (first + 1) rest
    (.waited first :: lines, e)

/-- Start the engine: the lines about it, and why it failed if it did. -/
def start (p : Provider) (o : RunOptions) : List Output × Option Failure × Provider :=
  match o.trigger with
  | .owner =>
    let (response, p) := p.act (.startup (.ensure .owner true))
    let failure : Option Failure := match response with
      | .startup (.outcome (.answered (.engine (.error e)))) => some ⟨[.startOnOwner], .startup e⟩
      | .startup (.outcome (.refused e)) => some ⟨[], .startup e⟩
      | _ => none
    ([], failure, p)
  | .worker =>
    let (answers, p) := startByWorkers p o.workers
    let (lines, e) := aboutWorkers 0 answers
    (lines, e.map fun e => ⟨[], .startup e⟩, p)

/-- What is said about a started engine. -/
def aboutEngine (p : Provider) (engine : Engine) : List Output :=
  let attached := p.views.countP fun v => v.2.attached
  [.line "", .started]
    ++ (p.coordinator.owner.map Output.owner).toList
    ++ [.line ("   Engine: " ++ engine.name),
      .line ("   User agent: " ++ engine.userAgent),
      .line ("   Remote debugging: " ++ toString p.host.remoteDebugging),
      .line ("   Views attached: " ++ toString attached ++ "/" ++ toString p.views.length)]

/-- Send a closure to the owner thread and back, then get the engine. -/
def finish (p : Provider) : Except StartupError (List Output) × Provider :=
  match p.act (.startup (.runOnOwner .other "" none)) with
  | (.startup (.outcome (.answered (.returned (.error e)))), p) => (.error e, p)
  | (_, p) =>
    match p.fetch .other .statics with
    | (.error (.result (.error e)), p) => (.error e, p)
    | (_, p) => (.ok ((p.coordinator.engine.map (aboutEngine p)).getD []), p)

end Run

/-- Run an engine. `now` is the time to be recorded. -/
def run (config : Config) (o : RunOptions) (fs : FileSystem) (now : String) : Report :=
  let config := Run.configure config o
  if (Owner.nameFault? config.ownerName).isSome then
    { ending := .code 101, files := fs }
  else match Provider.create config fs now (Run.initializer config o.fail)
      (Session.overLoop config.ownerName) with
    | .error (f, fs) => .failed fs [] f
    | .ok p =>
      let news := Run.aboutVersion config p.versionChange
      if !Run.fits o.views then
        { ending := .code 101, output := news, files := p.host.files }
      else
      let p := Run.createViews o.views p
      let opening := news
        ++ [.line ("🪟 Created " ++ toString o.views ++ " views before startup")]
      if o.trigger == .worker && !Run.fits o.workers then
        { ending := .code 101, output := opening, files := p.host.files }
      else
      let (lines, failure, p) := Run.start p o
      if p.session.hasFatal then
        { ending := .aborted, output := opening, files := p.host.files }
      else match failure with
        | some f => .failed p.host.files (opening ++ lines) f
        | none =>
          match Run.finish p with
          | (.error e, p) => .failed p.host.files (opening ++ lines) ⟨[], .startup e⟩
          | (.ok closing, p) =>
            if p.session.hasFatal then
              { ending := .aborted, output := opening ++ lines, files := p.host.files }
            else
              { Report.done p.host.files (opening ++ lines ++ closing) with
                pause := config.warmup }

end LazyEngine.CommandLine
