import SpikeWatch.Alert.Webhook
import SpikeWatch.CommandLine.Ending
import SpikeWatch.Pipeline.Lines
import SpikeWatch.Pipeline.Wiring
import Std.Time.DateTime.Timestamp

/-!
# The program

Reads batches line by line from a file or the standard input, and answers each on the standard
output.  Between the lines and while waiting for the next one, the tasks of the pipeline do their
work; every alert goes to the error output, in the form in which a webhook would get it.

How a run ends, and with which status, is told by `Ending`.
-/

set_option autoImplicit false

open SpikeWatch SpikeWatch.CommandLine

/-- What is said when help is asked for. -/
def helpText : String :=
  "Telemetry of game clients, with alerts about spikes as they happen\n\n" ++
  "Reads batches of events (one JSON body per line), validates and stores them, keeps\n" ++
  "counts of crashes, exceptions and janks per version over a sliding window, and raises\n" ++
  "an alert when a count reaches its threshold.\n\n" ++
  "Options:\n" ++
  "  -c, --config <FILE>  Settings (TOML)\n" ++
  "  -i, --input <FILE>   Read batches from FILE instead of the standard input\n" ++
  "  -v, --verbose        Show the totals at the end\n" ++
  "      --linger <SECS>  Go on sweeping and evaluating for SECS seconds after the input ends\n" ++
  "  -h, --help           Show this help\n"

/-- The present by the clock of the system. -/
def presentInstant : IO Instant := do
  let now ← Std.Time.Timestamp.now
  match Instant.ofNanos? now.toNanosecondsSinceUnixEpoch.val with
  | some t => return t
  | none => throw (IO.userError "the clock of the system is out of range")

/-- Finds out what a path leads to.  Arguments come as text, so its bytes are text as well. -/
def lookUp (path : Path) : IO Target := do
  let place := (← IO.currentDir) / Text.showBytes path
  try
    if (← place.metadata).type != .file then return .notAFile
  catch _ => return .missing
  try
    return .file (.ok (← IO.FS.readBinFile place))
  catch e => return .file (.error (toString e))

/-- Reads a line with its end.  At the end of the input there is nothing left of it. -/
partial def readLine (input : IO.FS.Stream) (line : ByteArray) : IO ByteArray := do
  let byte ← input.read 1
  let line := line ++ byte
  if byte.isEmpty || byte.toList == [lineFeed] then return line
  readLine input line

/-- A task beside the lines: the step that its ticks take, and when the next one is due, by a clock
of milliseconds that never goes back. -/
structure Chore where
  task : SpikeWatch.Task
  step : Step
  due : Nat

/-- Does the chores that are due. -/
def doChores (p : Pipeline) (chores : List Chore) : IO (Pipeline × List Chore) := do
  let mut p := p
  let mut later := []
  for chore in chores do
    let clock ← IO.monoMsNow
    if clock < chore.due then later := chore :: later
    else
      let (after, outcome) := { p with now := ← presentInstant }.step chore.step
      p := after
      if let .fired alerts := outcome then
        for alert in alerts do IO.eprintln (Webhook.ofAlert alert).text
      later := { chore with due := clock + chore.task.period.millis.toNat } :: later
  return (p, later.reverse)

/-- How long to wait before looking again, in milliseconds. -/
def pause : UInt32 := 5

/-- Does chores until a line has been read. -/
partial def awaitLine (p : Pipeline) (chores : List Chore)
    (line : Task (Except IO.Error ByteArray)) : IO (Pipeline × List Chore × ByteArray) := do
  let (p, chores) ← doChores p chores
  if ← IO.hasFinished line then
    return (p, chores, ← IO.ofExcept line.get)
  IO.sleep pause
  awaitLine p chores line

/-- Answers line after line, and tells whether all were text. -/
partial def answerLines (input output : IO.FS.Stream) (p : Pipeline) (chores : List Chore) :
    IO (Pipeline × List Chore × Bool) := do
  let (p, chores, line) ← awaitLine p chores (← IO.asTask (readLine input .empty))
  if line.isEmpty then return (p, chores, true)
  match { p with now := ← presentInstant }.takeLine line.toList with
  | none => return (p, chores, false)
  | some (p, answer) =>
    if let some answer := answer then
      output.putStrLn answer
      output.flush
    answerLines input output p chores

/-- Does chores until a moment has come. -/
partial def linger (p : Pipeline) (chores : List Chore) (till : Nat) : IO Pipeline := do
  let (p, chores) ← doChores p chores
  if till ≤ (← IO.monoMsNow) then return p
  IO.sleep pause
  linger p chores till

/-- The whole work, once it is known under which settings. -/
def work (a : Arguments) (s : Settings) : IO Ending := do
  let clock ← IO.monoMsNow
  let chores := s.chores.map fun (task, step) => ⟨task, step, clock + task.period.millis.toNat⟩
  let input ← match a.input with
    | none => IO.getStdin
    | some path => do
      let place := (← IO.currentDir) / Text.showBytes path
      pure (IO.FS.Stream.ofHandle (← IO.FS.Handle.mk place .read))
  let (p, chores, complete) ←
    answerLines input (← IO.getStdout) (.ofSettings s (← presentInstant) .log) chores
  let p ← match complete, a.linger with
    | true, some seconds => do linger p chores ((← IO.monoMsNow) + 1000 * seconds.toNat)
    | _, _ => pure p
  if a.verbose then
    match p.totals.summary? with
    | some line => IO.eprintln line
    | none => throw (IO.userError "attempt to add with overflow")
  return .ofComplete complete

/-- A run of the program. -/
def run (arguments : List String) : IO Ending := do
  match Arguments.ofBytes (arguments.map fun s => s.toUTF8.toList) with
  | .error stop =>
    if stop = .help then IO.print helpText
    return .ofStop stop
  | .ok a =>
    let found ← ([a.config, a.input].filterMap id).mapM fun path => do
      return (path, ← lookUp path)
    let target (path : Path) : Target := (found.lookup path).getD .missing
    match a.settings target (← IO.getEnv Settings.webhookVariable) with
    | .error refusal => return .refused refusal
    | .ok s => work a s

/-- Runs the program, says what there is to complain about, and gives the status. -/
def main (arguments : List String) : IO UInt32 := do
  let ending ← run arguments
  if let some complaint := ending.complaint? then IO.eprintln complaint
  return ending.status
