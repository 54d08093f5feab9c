import Muster.Program

/-! What a task tells on its progress line. -/

namespace Muster.Task

open Progress (Change Outcome)

def failureLead : String := "error: "

def update (message : String) : Program Unit := .change (.message message)

def started (message : String) : Program Unit := do
  update message
  .change .start

def success (message : String) : Program Unit := do
  update message
  .change (.finish .success)

def warning (message details : String) : Program Unit := do
  update message
  .change (.details details "")
  .change (.finish .warning)

/-- Ends the line of a task that failed and shows why. The failure counts as handled from then on. -/
def fail (message : String) (e : CommandError) : Program CommandError := do
  update message
  .change (.details e.message failureLead)
  .change (.finish .failed)
  return e.markHandled

end Muster.Task
