import Muster.Http.Message
import Muster.Session.Resume
import Std.Async.DNS
import Std.Async.Signal
import Std.Async.TCP

/-! The program. It looks at its surroundings, makes the requests that the run asks for, and writes what
the run ends with. -/

namespace Muster.Main

open Std.Async

def readFile (path : String) : IO Config.File := do
  try
    return .content (← IO.FS.readBinFile path)
  catch
    | .noFileOrDirectory .. => return .missing
    | .inappropriateType .. => return .directory
    | e => return .unreadable (toString e)

def surroundings (words : List String) : IO Surroundings := do
  let values ← Surroundings.variableNames.filterMapM fun name => do
    return (← IO.getEnv name).map (name, ·)
  let place : Surroundings := { env := fun name => values.lookup name, file := fun _ => .missing }
  let files ← (place.paths words).mapM fun path => do return (path, ← readFile path)
  return { place with file := fun path => (files.lookup path).getD .missing }

partial def receive (c : TCP.Socket.Client) (bytes : ByteArray) : Async ByteArray := do
  match ← c.recv? 65536 with
  | some more => receive c (bytes ++ more)
  | none => return bytes

/-- Makes a request. There is no answer over connections that have to be secure. -/
def ask (q : Http.Request) : Async (Option Http.Response) := do
  if q.url.secure then return none
  let some address := (← DNS.getAddrInfo q.url.host (toString q.url.endpoint))[0]? | return none
  let c ← TCP.Socket.Client.mk
  c.connect (match address with
    | .v4 a => .v4 ⟨a, q.url.endpoint.toUInt16⟩
    | .v6 a => .v6 ⟨a, q.url.endpoint.toUInt16⟩)
  c.send q.message.toUTF8
  return Http.Response.ofBytes? (← receive c .empty).toList

/-- Waits until something has happened, but not beyond a time. -/
partial def waitUntil (time : Nat) (happened : BaseIO Bool) : IO Unit := do
  if (← happened) || time ≤ (← IO.monoMsNow) then return
  IO.sleep 5
  waitUntil time happened

def answer (q : Http.Request) (patience : Nat) : IO (Option Http.Response) := do
  let task ← (ask q).toIO
  waitUntil ((← IO.monoMsNow) + patience * 1000) (IO.hasFinished task)
  if !(← IO.hasFinished task) then return none
  match ← IO.wait task with
  | .ok r => return r
  | .error _ => return none

/-- Writes the output of a run. If that fails, the run ends as one without room for output does. -/
def write (words : List String) (place : Surroundings) (known : List (Option Http.Response))
    (t : Transcript) : IO Transcript := do
  try
    let out ← IO.getStdout
    out.putStr t.output
    out.flush
    return t
  catch _ =>
    match Session.resume { place with room? := some 0 } words known with
    | .ends t => return t
    | .asks .. => return t

/-- Carries out the run from the answers known so far on. Its time zero is at `start`. -/
partial def carryOut (words : List String) (interrupt : AsyncTask Int) (place : Surroundings)
    (start : Nat) (known : List (Option Http.Response)) : IO Transcript := do
  match Session.resume place words known with
  | .ends t => write words place known t
  | .asks time q =>
    let isNews : BaseIO Bool := do
      return place.interrupts.values.isEmpty && (← IO.hasFinished interrupt)
    waitUntil (start + time) isNews
    let now ← IO.monoMsNow
    if now < start + time then
      carryOut words interrupt { place with interrupts := { values := [(now - start, true)] } } start known
    else
      let r ← answer q (Session.patience place words)
      let place := if ← isNews then { place with interrupts := { values := [(time + 1, true)] } } else place
      carryOut words interrupt place ((← IO.monoMsNow) - (time + 1)) (known ++ [r])

end Muster.Main

def main (words : List String) : IO UInt32 := do
  let place ← Muster.Main.surroundings words
  let interrupt ← (← Std.Async.Signal.Waiter.mk .sigint false).wait
  let t ← Muster.Main.carryOut words interrupt place (← IO.monoMsNow) []
  (← IO.getStderr).putStr t.messages
  return t.code.toUInt32
