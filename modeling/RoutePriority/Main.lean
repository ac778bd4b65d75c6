import RoutePriority.CommandLine.Run

/-!
# The program

Runs the command line with the files of the machine.  The account goes to the error output, events
of the debug level only on demand.
-/

open RoutePriority RoutePriority.CommandLine

/-- The files of the machine. -/
def machineFiles : Files IO where
  isFile path := do
    try
      let _ ← IO.FS.readBinFile path
      return true
    catch _ => return false
  text? path := do
    try return some (← IO.FS.readFile path) catch _ => return none

/-- Whether the arguments ask for all events. -/
def asksForAllEvents (arguments : List String) : Bool :=
  match Request.parse arguments with
  | .ok request => request.verbose
  | .error _ => false

def main (arguments : List String) : IO UInt32 := do
  let settings ← IO.getEnv "XDG_CONFIG_HOME"
  let home ← IO.getEnv "HOME"
  let answer ← run machineFiles (defaultProfilesDirectory settings home) arguments
  for event in answer.log do
    if event.level ≠ .debug || asksForAllEvents arguments then IO.eprintln event.line
  IO.print answer.output
  unless answer.error.isEmpty do IO.eprintln answer.error
  return answer.code.toUInt32
