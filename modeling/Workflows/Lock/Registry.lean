import Workflows.Dict

/-!
# The registry of locks

Operations on one instance exclude each other by a lock.  The registry makes a lock for an instance when it is first
asked for, and forgets it when nobody uses it any more.  Clients move in atomic steps, in any order:

* `request?`: find or make the lock of an instance, and use it
* `obtain?`: take that lock while it is free
* `release?`: free it and stop using it
* `tidy?`: forget it if nobody uses it
-/

namespace Workflows

/-- What a client of the registry is doing. -/
inductive LockPhase where
  | idle
  /-- it uses the lock of an instance and waits until it is free -/
  | waiting (instanceId : String) (lock : Nat)
  | holding (instanceId : String) (lock : Nat)
  /-- it has freed the lock and has still to tidy up -/
  | leaving (instanceId : String)
  deriving DecidableEq, Repr

/-- whether a client uses a lock -/
def LockPhase.uses (lock : Nat) : LockPhase → Bool
  | .waiting _ l => l = lock
  | .holding _ l => l = lock
  | _ => false

/-- The registry, its locks and its clients. -/
structure LockRegistry where
  /-- the lock of each instance that is in use -/
  entries : Dict Nat := []
  /-- how many locks were made; locks are numbered -/
  made : Nat := 0
  /-- the locks that are not free -/
  taken : List Nat := []
  clients : List LockPhase
  deriving DecidableEq, Repr

namespace LockRegistry

/-- no locks, and a number of idle clients -/
def start (clients : Nat) : LockRegistry := { clients := List.replicate clients .idle }

def phase? (r : LockRegistry) (client : Nat) : Option LockPhase := r.clients[client]?

def setPhase (r : LockRegistry) (client : Nat) (p : LockPhase) : LockRegistry :=
  { r with clients := r.clients.set client p }

/-- how many clients use a lock -/
def users (r : LockRegistry) (lock : Nat) : Nat := r.clients.countP (·.uses lock)

/-- the lock of an instance, made if there is none -/
def lockOf (r : LockRegistry) (id : String) : Nat × LockRegistry :=
  match Dict.get? r.entries id with
  | some lock => (lock, r)
  | none => (r.made, { r with entries := Dict.insert r.entries id r.made, made := r.made + 1 })

/-- an idle client begins to wait for the lock of an instance -/
def request? (r : LockRegistry) (client : Nat) (id : String) : Option LockRegistry :=
  match r.phase? client with
  | some .idle =>
    let (lock, r) := r.lockOf id
    some (r.setPhase client (.waiting id lock))
  | _ => none

/-- a waiting client takes its lock, if it is free -/
def obtain? (r : LockRegistry) (client : Nat) : Option LockRegistry :=
  match r.phase? client with
  | some (.waiting id lock) =>
    if r.taken.contains lock then none
    else some ({ r with taken := lock :: r.taken }.setPhase client (.holding id lock))
  | _ => none

/-- a holding client frees its lock -/
def release? (r : LockRegistry) (client : Nat) : Option LockRegistry :=
  match r.phase? client with
  | some (.holding id lock) => some ({ r with taken := r.taken.erase lock }.setPhase client (.leaving id))
  | _ => none

/-- the registry without the lock of an instance, if nobody uses it -/
def forget (r : LockRegistry) (id : String) : LockRegistry :=
  match Dict.get? r.entries id with
  | some lock => if r.users lock = 0 then { r with entries := Dict.erase r.entries id } else r
  | none => r

/-- a leaving client tidies up -/
def tidy? (r : LockRegistry) (client : Nat) : Option LockRegistry :=
  match r.phase? client with
  | some (.leaving id) => some ((r.forget id).setPhase client .idle)
  | _ => none

/-- One step of one client. -/
inductive Step : LockRegistry → LockRegistry → Prop where
  | request {r s : LockRegistry} (client : Nat) (id : String) (h : r.request? client id = some s) : Step r s
  | obtain {r s : LockRegistry} (client : Nat) (h : r.obtain? client = some s) : Step r s
  | release {r s : LockRegistry} (client : Nat) (h : r.release? client = some s) : Step r s
  | tidy {r s : LockRegistry} (client : Nat) (h : r.tidy? client = some s) : Step r s

/-- What can be reached in steps from idle clients. -/
inductive Reached (clients : Nat) : LockRegistry → Prop where
  | start : Reached clients (start clients)
  | step {r s : LockRegistry} (h : Reached clients r) (t : Step r s) : Reached clients s

end LockRegistry
end Workflows
