import Workflows.Proofs.Engine.Family

/-!
# How records are rewritten

A stored record is replaced by the next one of the same instance, under a new version, and in no
other way.  So an operation is a sequence of writings, each of one record or link.

* `Rewrite`    a record, and the one that replaces it
* `Writing`    one write to a world
* `Writings`   any number of them

Main statement: all that an operation does is a sequence of writings (`Performed.writings`).
-/

namespace Workflows.Engine
variable {names : Nat → String} {maxLevel : Nat} {env : Env} {s s' : Scene} {w w' : World}
  {act : Act} {op : Operation} {result : Except EngineError Unit} {fuel : Nat} {st : Store}
  {i j child : Instance}

inductive Rewrite (st : Store) (i : Instance) : Instance → Prop
  | advance {d : Definition} {j : Instance} (hr : i.status = .running) (h : Advance st d i j) :
    Rewrite st i j
  | halt {j : Instance} (hr : i.status = .running) (h : Halt st i j) : Rewrite st i j
  | resume (nodeId : String) (data : Option Json) (now : Instant)
    (hp : i.status.isParked = true) : Rewrite st i (goingOn (withData i nodeId data) nodeId now)
  | wake {d : Definition} {child : Instance} {link : ChildLink} (now : Instant)
    (h : Woken st d i child link) :
    Rewrite st i (goingOn (withOutputs i child link) link.parentNodeId now)
  | note {d : Definition} {child : Instance} {link : ChildLink} (h : Woken st d i child link)
    (hp : i.status = .paused) : Rewrite st i (noted i child link)
  | failWith {d : Definition} {child : Instance} {link : ChildLink} (now : Instant)
    (h : Woken st d i child link) : Rewrite st i (failedWith i child link now)
  | hold (now : Instant) (ha : i.status.isTerminal = false) : Rewrite st i (held i now)
  | cancel (now : Instant) (ha : i.status.isTerminal = false) :
    Rewrite st i (i.setStatus .cancelled now)
  | step (n : Node) (o : Outcome) (vars : Vars) (startedAt completedAt : Instant) :
    Rewrite st i (recordStep i n o vars startedAt completedAt)

theorem Rewrite.sameOrigin (h : Rewrite st i j) : i.SameOrigin j := by
  cases h with
  | advance _ h => exact h.sameOrigin
  | halt _ h => exact h.sameOrigin
  | resume nodeId data now =>
    exact (sameOrigin_withData i nodeId data).trans (sameOrigin_goingOn _ nodeId now)
  | wake now =>
    exact (sameOrigin_withOutputs i _ _).trans (sameOrigin_goingOn _ _ now)
  | note => exact sameOrigin_noted i _ _
  | failWith now => exact sameOrigin_failedWith i _ _ now
  | hold now => exact sameOrigin_held i now
  | cancel now => exact sameOrigin_setStatus i .cancelled now
  | step n o vars t t' => exact sameOrigin_recordStep i n o vars t t'

inductive Writing (names : Nat → String) (maxLevel : Nat) (w : World) : World → Prop
  | quiet {w' : World} (h : Quiet w w') : Writing names maxLevel w w'
  | create {r : StartRequest} {d : Definition} {i : Instance}
    (h : Created names maxLevel w r d i) : Writing names maxLevel w (w.started i d)
  | link (l : ChildLink) : Writing names maxLevel w (w.link l)
  | rewrite {i j : Instance} {w' : World} (hi : w.store.getInstance? i.id = some i)
    (h : Rewrite w.store i j) (now : Instant) (hs : w'.store = (w.put (j.written now)).store) :
    Writing names maxLevel w w'

abbrev Writings (names : Nat → String) (maxLevel : Nat) : World → World → Prop :=
  Relation.ReflTransGen (Writing names maxLevel)

theorem Move.writing (h : Move names maxLevel s s') : Writing names maxLevel s.world s'.world := by
  cases h with
  | quiet h => exact .quiet h
  | create _ _ _ _ hc => exact .create hc
  | @link _ _ _ _ l _ _ _ => exact .link l
  | advance hi hid hr h now => exact .rewrite (stored_of_frame hi hid) (.advance hr h) now rfl
  | halt hi hid hr h now => exact .rewrite (stored_of_frame hi hid) (.halt hr h) now rfl

theorem Opening.writing (h : Opening names maxLevel act w s) :
    Writing names maxLevel w s.world := by
  cases h with
  | start hc => exact .create hc
  | resume data now hi hp _ _ => exact .rewrite hi (.resume _ data now hp) now rfl
  | wake now h _ _ => exact .rewrite h.stored (.wake now h) now rfl
  | note now h _ hp => exact .rewrite h.stored (.note h hp) now rfl
  | failWith now h _ => exact .rewrite h.stored (.failWith now h) now rfl
  | pause now hi ht _ => exact .rewrite hi (.hold now ht) now rfl
  | cancel now hi ht => exact .rewrite hi (.cancel now ht) now rfl

theorem upkeep_writings (start : World) :
    Upkeep names maxLevel (fun _ => True) (Writings names maxLevel start) where
  quiet hq h := h.tail (.quiet hq)
  move hm h := h.tail hm.writing
  opening ho _ h := h.tail ho.writing
  step n o vars t t' now hstored h := h.tail (.rewrite hstored (.step n o vars t t') now rfl)

theorem Moves.writings (h : Moves names maxLevel s s') :
    Writings names maxLevel s.world s'.world :=
  (upkeep_writings s.world).moves h .refl

/-- **An operation is a sequence of writings.** -/
theorem Performed.writings (h : Performed names maxLevel w op result w') :
    Writings names maxLevel w w' :=
  (upkeep_writings w).performed h (fun _ _ => trivial) .refl

end Workflows.Engine
