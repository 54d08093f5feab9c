import Muster.Queue

/-! All orders in which a queue may run. The scheduler, the tasks and the clock take turns in any order: a
task has one effect at a time, and each wait of the scheduler ends with any task that has ended or with
a rendering. -/

namespace Muster

/-- Where the scheduler is: it takes tasks, it waits, all tasks have been joined, the log has been
rendered after that, or it has returned. -/
inductive Position where
  | filling
  | waiting
  | closing
  | leaving
  | returned
  deriving DecidableEq, Repr

inductive Choice where
  | proceed
  | join (k : Nat)
  | tick
  | enter (job : Nat)
  | act (job : Nat)
  | pass (time : Nat)
  deriving DecidableEq, Repr

structure Running (σ α : Type) where
  position : Position
  queue : Queue σ α

namespace Queue

variable {σ α : Type}

def isDue (i : Nat) (q : Queue σ α) : Bool :=
  match q.slots[i]?.bind Slot.due? with
  | some (wake, _) => wake ≤ q.world.now
  | none => false

/-- Runs a task that runs, up to the end of its next effect. -/
def act (b : Backend σ) (i : Nat) (q : Queue σ α) : Option (Queue σ α) :=
  match q.slots[i]? with
  | some (.running entry (.done a)) => some (q.settle i entry (.ended a, q.world))
  | some (.running entry .crash) => some (q.settle i entry (.crashed, q.world))
  | some (.running entry (.act e next)) =>
    match q.world.begin b (some entry) e with
    | .answered a w =>
      some { q with slots := q.slots.set i (.running entry (next a)), world := w }
    | .crashed w => some (q.settle i entry (.crashed, w))
    | .later time finish w => some (q.settle i entry (.suspended time ⟨e, finish, next⟩, w))
  | _ => none

end Queue

namespace Running

variable {σ α : Type}

def start (limit : Nat) (tasks : List (Program α)) (world : World σ) (display : Display) :
    Running σ α :=
  ⟨.filling, .ofTasks limit tasks world display⟩

def proceed (r : Running σ α) : Option (Running σ α) :=
  match r.position with
  | .filling =>
    if r.queue.hasRoom then r.queue.spawn.map (⟨.filling, ·⟩)
    else some ⟨if r.queue.taken = 0 then .closing else .waiting, r.queue⟩
  | .closing => some ⟨.leaving, r.queue.render⟩
  | .leaving => some ⟨.returned, r.queue.renderOpen⟩
  | .waiting => none
  | .returned => none

def choose (b : Backend σ) (r : Running σ α) : Choice → Option (Running σ α)
  | .proceed => r.proceed
  | .join k => if r.position = .waiting then (r.queue.join k).map (⟨.filling, ·⟩) else none
  | .tick => if r.position = .waiting then some ⟨.filling, r.queue.tick⟩ else none
  | .enter i =>
    if r.queue.isDue i then (r.queue.enter i).map fun q => { r with queue := q } else none
  | .act i => (r.queue.act b i).map fun q => { r with queue := q }
  | .pass time => some { r with queue := r.queue.waitUntil time }

end Running

end Muster
