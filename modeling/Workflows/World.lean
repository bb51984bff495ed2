import Workflows.Event.Basic
import Workflows.Http
import Workflows.Settings
import Workflows.Store.Records

/-!
# The world of a run

A run reads settings, a clock, generated ids and answers of services from its environment, and changes a world: the
store, and a record of what was sent, emitted, locked and refused.

* `Env`: what is given from outside
* `World`: what a run changes
* `Run ε`: an operation on the world that may fail with an `ε`; a failure keeps the changes made before it
* `Env.now`, `Env.freshId`, `Env.emit`, `Env.send`: clock, ids, events and requests
* `Run.locked`: an operation under the lock of an instance
-/

namespace Workflows

/-- What a run is given from outside. -/
structure Env where
  settings : Settings
  /-- the reading of the clock at the beginning -/
  epoch : Instant
  /-- the generated ids, in the order in which they are used -/
  idName : Nat → String
  /-- the answer to the request with a number -/
  reply : Nat → HttpRequest → Except NodeError HttpReply

/-- A use of the lock of an instance. -/
inductive LockStep where
  | acquire (instanceId : String)
  | release (instanceId : String)
  deriving DecidableEq, Repr

/-- What a run changes. -/
structure World where
  store : Store := {}
  /-- nanoseconds since the beginning; the clock moves only where a later record has to be younger -/
  ticks : Nat := 0
  /-- how many ids were generated -/
  ids : Nat := 0
  sent : Array HttpRequest := #[]
  events : Array Event := #[]
  locks : Array LockStep := #[]
  /-- the writes of instances that the store has refused -/
  refusals : Array StorageError := #[]

/-- An operation on the world that may fail. -/
abbrev Run (ε : Type) := ExceptT ε (StateM World)

namespace World

/-- move the clock -/
def tick : StateM World Unit := modify fun w => { w with ticks := w.ticks + 1 }

/-- an operation on the store -/
def onStore (f : Store → α × Store) : StateM World α := do
  let w ← get
  let (a, store) := f w.store
  set { w with store := store }
  return a

/-- a value read from the store -/
def fromStore (f : Store → α) : StateM World α := return f (← get).store

/-- a change of the store -/
def changeStore (f : Store → Store) : StateM World Unit := modify fun w => { w with store := f w.store }

def noteLock (step : LockStep) : StateM World Unit := modify fun w => { w with locks := w.locks.push step }

def noteRefusal (e : StorageError) : StateM World Unit := modify fun w => { w with refusals := w.refusals.push e }

end World

namespace Env
variable (env : Env)

def now : StateM World Instant := return env.epoch.addNanos (← get).ticks

def freshId : StateM World String := do
  let w ← get
  set { w with ids := w.ids + 1 }
  return env.idName w.ids

def emit (instanceId : String) (happening : Happening) : StateM World Unit := do
  let time ← env.now
  modify fun w => { w with events := w.events.push ⟨instanceId, happening, time⟩ }

def send (request : HttpRequest) : StateM World (Except NodeError HttpReply) := do
  let w ← get
  set { w with sent := w.sent.push request }
  return env.reply w.sent.size request

end Env

namespace Run

/-- a value read from the store -/
def fromStore (f : Store → α) : Run ε α := ExceptT.lift (World.fromStore f)

/-- an operation that holds the lock of an instance to its end, also where it fails -/
def locked (instanceId : String) (body : Run ε α) : Run ε α := ExceptT.mk do
  World.noteLock (.acquire instanceId)
  let result ← body.run
  World.noteLock (.release instanceId)
  return result

end Run
end Workflows
