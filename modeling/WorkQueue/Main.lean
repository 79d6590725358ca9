import WorkQueue.Accounts.Service
import WorkQueue.Config.Load
import WorkQueue.Simulation.Run

/-!
# Program

Loads the configuration as a deployment would, runs the deployment on its virtual clock, signs up
one account, waits until its verification task is due, and stops.  It says where the configuration
came from and what is left in the parts of the broker, and fails with the first error that it meets.
-/

namespace WorkQueue.Program

/-- A deployment of a configuration, before anything happens in it. -/
def deployment (config : Config) : World :=
  World.start 0 (Broker.empty (BrokerLimits.ofConfig config)) (Store.empty Store.standardLifetime)
    ⟨"Work Queue", "noreply@work-queue.local", fun _ => false, []⟩

/-- The account that is signed up. -/
def account : NewUser :=
  ⟨"demo", "Demo User", "demo@work-queue.local"⟩

/-- The deployment of a configuration after the account was signed up, its task was executed, and
the pool was stopped. -/
def outcome (config : Config) : Except String World := do
  let registry ←
    (Registry.ofDeployment config.verifyEmailBaseUrl).mapError QueueError.message
  let w := deployment config
  let pool ← (Pool.make config w.broker registry .log).mapError QueueError.message
  let w ← ((w.setPool pool).startPool pool).mapError QueueError.message
  let (result, w) := w.run false (Accounts.createUser ⟨.ofNat config.defaultMaxRetry⟩ account)
  let _ ← (← result).mapError AccountError.message
  let w := w.wait (Accounts.verifyEmailDelay.millis + config.pollIntervalMs + 1)
  match w.shutdownWithin pool (.ofMillis w.elapsedMs) config.shutdownTimeout with
  | (.ok (), w) => return w
  | (.error error, _) => throw error.message
  | (.crashed, _) => throw "overflow when adding duration to instant"

/-- What is left in a deployment, in words. -/
def summary (w : World) : String :=
  let stats := w.broker.stats w.now
  "Stopped with " ++ toString stats.pending ++ " pending, " ++ toString stats.scheduled ++
    " scheduled, " ++ toString stats.inFlight ++ " in flight, " ++ toString stats.completed ++
    " completed and " ++ toString stats.dead ++ " dead tasks, " ++ toString w.mailer.sent.length ++
    " emails sent"

/-- The names under which a settings file may be found. -/
def fileNames (name : String) : List String :=
  name :: Files.formats.map fun format => name ++ "." ++ format.1

/-! ## Reading the surroundings -/

/-- The variables of the configuration that are set. -/
def readEnvironment : IO Environment := do
  let names := "CONFIG" :: Config.allVariables.map (·.name)
  let entries ← names.filterMapM fun name => do
    let value ← IO.getEnv (Config.variableStem ++ name)
    return value.map fun value => (Config.variableStem ++ name, RawText.text value)
  return Table.ofEntries entries

/-- The settings files that are there, out of a list of names. -/
def readFiles (names : List String) : IO Files := do
  let entries ← names.filterMapM fun (name : String) => do
    try
      let text ← IO.FS.readFile name
      return some (name, text)
    catch _ => return none
  return Table.ofEntries entries

/-- Runs the program, and says whether it succeeded. -/
def run : IO Bool := do
  let env ← readEnvironment
  let chosen := (Config.valueOf env "CONFIG").toList
  let files ← readFiles ((chosen ++ Config.defaultFiles).flatMap fileNames)
  let result := do
    let (config, source) ← (Config.load env files).mapError QueueError.message
    return (source, ← outcome config)
  match result with
  | .error message =>
    IO.eprintln message
    return false
  | .ok (source, w) =>
    IO.println ("Loaded config from " ++ source.describe)
    IO.println (summary w)
    return true

end WorkQueue.Program

/-- Runs the program; the exit code is zero if it succeeded. -/
def main : IO UInt32 := do
  return if ← WorkQueue.Program.run then 0 else 1
