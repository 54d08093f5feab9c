import Muster.Rehearsal.Disk
import Muster.Rehearsal.Host
import Muster.Session

/-! A whole run against a host that plays a part. -/

namespace Muster.Rehearsal

/-- Runs a command line against a host. If one of its answers was to interrupt the run, the run begins
anew, and this time is interrupted then. -/
def visit (place : Surroundings) (words : List String) (host : Host) : Transcript × Host :=
  match Session.run place Host.peer words host with
  | (transcript, after) =>
    match after.interrupted? with
    | none => (transcript, after)
    | some time =>
      Session.run { place with interrupts := { values := [(time, true)] } } Host.peer words host

end Muster.Rehearsal
