import Workflows.Proofs.Engine.History

/-!
# Resumptions

The caller of a resumption names the node behind which an instance goes on.  What the instance waits
for is not looked at.

* `Resumable`   an instance that stands still, and a node of its definition

Main statement: a resumption goes on behind every node of the definition, at any time at which the
instance stands still (`resume_regardless`).
-/

namespace Workflows.Engine
variable {env : Env} {w u : World} {id nodeId : String} {data : Option Json} {i j : Instance}
  {d : Definition} {n : Node}

structure Resumable (s : Store) (id nodeId : String) (i : Instance) (d : Definition) (n : Node) :
    Prop where
  stored : s.getInstance? id = some i
  parked : i.status.isParked = true
  definition : definitionOf? s i = some d
  node : d.findNode? nodeId = some n

theorem runFrom_resume (h : Resumable w.store id nodeId i d n)
    (hrun : runFrom (continueAfter env d (withData i nodeId data) n nodeId (data.bind routeOf))
      (w.locked id) = (.ok j, u)) :
    runFrom (resume env id nodeId data) w = runFrom (finish env j) (u.unlocked id) := by
  have hi : (w.locked id).store.getInstance? id = some i := h.stored
  have hd : definitionOf? (w.locked id).store i = some d := h.definition
  have hbody : runFrom (do
      let i ← getInstance id
      if i.status.isParked then
        let d ← definitionFor i
        let n ← getNode d nodeId
        continueAfter env d (withData i nodeId data) n nodeId (data.bind routeOf)
      else throw (i.refuse "resume")) (w.locked id) = (.ok j, u) := by
    rw [runFrom_bind_ok (runFrom_getInstance hi), if_pos h.parked,
      runFrom_bind_ok (runFrom_definitionFor hd), runFrom_bind_ok (runFrom_getNode h.node)]
    exact hrun
  unfold Engine.resume
  exact runFrom_bind_ok (runFrom_locked_ok hbody) _

/-- the world in which an instance that is resumed is written, under its lock -/
def resumedAt (env : Env) (i : Instance) (nodeId : String) (data : Option Json) (w : World) :
    World :=
  goneOn env (withData i nodeId data) nodeId (w.locked i.id)

/-- the record of an instance that is resumed, before its walk -/
def resumedAs (env : Env) (i : Instance) (nodeId : String) (data : Option Json) (w : World) :
    Instance :=
  (goingOn (withData i nodeId data) nodeId (env.time w)).written (env.time w)

theorem resumedAt_current (ho : Orderly env.idName w) (hi : w.store.getInstance? i.id = some i)
    (d : Definition) (nodeId : String) (data : Option Json) :
    Current env.idName ⟨i.id, d⟩ [] (resumedAs env i nodeId data w)
      (resumedAt env i nodeId data w) := by
  have hsame := sameOrigin_withData i nodeId data
  have hstored : (w.locked i.id).store.getInstance? (withData i nodeId data).id = some i := by
    rw [hsame.id]
    exact hi
  have hcurrent : Current env.idName ⟨(withData i nodeId data).id, d⟩ []
      (resumedAs env i nodeId data w) (resumedAt env i nodeId data w) :=
    goneOn_current (ho.locked i.id).fresh hstored
  rw [hsame.id] at hcurrent
  exact hcurrent

theorem resumedAt_orderly (ho : Orderly env.idName w) (hi : w.store.getInstance? i.id = some i)
    (d : Definition) (nodeId : String) (data : Option Json) :
    Orderly env.idName (resumedAt env i nodeId data w) :=
  ⟨(resumedAt_current ho hi d nodeId data).ready.fresh, keyed_put (ho.locked i.id).keyed _⟩

/-- What a resumption does: the instance walks behind the node that is named, and its record is
stored when the lock is released. -/
structure Resumed (env : Env) (w : World) (nodeId : String) (data : Option Json) (i : Instance)
    (d : Definition) (n : Node) (j : Instance) (u : World) : Prop where
  walk : runFrom (walkFrom env (start env) d (d.nextNodes n (data.bind routeOf))
    (resumedAs env i nodeId data w)) (resumedAt env i nodeId data w) = (.ok j, u)
  halted : Halted env.idName env.settings.maxNestingLevel ⟨i.id, d⟩ []
    (resumedAt env i nodeId data w) u (resumedAs env i nodeId data w) j
  locked : runFrom (continueAfter env d (withData i nodeId data) n nodeId (data.bind routeOf))
    (w.locked i.id) = (.ok j, u)
  told : runFrom (resume env i.id nodeId data) w = runFrom (finish env j) (u.unlocked i.id)
  orderly : Orderly env.idName (u.unlocked i.id)
  stored : Has i.id j (u.unlocked i.id)

theorem resume_walks (ho : Orderly env.idName w) (h : Resumable w.store i.id nodeId i d n)
    (data : Option Json) : ∃ j u, Resumed env w nodeId data i d n j u := by
  have hsame := sameOrigin_withData i nodeId data
  have hstored : (w.locked i.id).store.getInstance? (withData i nodeId data).id = some i := by
    rw [hsame.id]
    exact h.stored
  obtain ⟨j, u, hwalk, hj⟩ := walk_halted start_starts env.settings.maxStepsPerTraversal
    (d.nextNodes n (data.bind routeOf)) (resumedAt_current ho h.stored d nodeId data)
  have hlocked : runFrom (continueAfter env d (withData i nodeId data) n nodeId
      (data.bind routeOf)) (w.locked i.id) = (.ok j, u) := by
    rw [runFrom_continueAfter hstored (withData_version i nodeId data).symm]
    exact hwalk
  have horderly : Orderly env.idName u :=
    Moves.induct hj.stretch.moves (resumedAt_orderly ho h.stored d nodeId data) Writes.orderly
  have hrelease := Quiet.unlocked u i.id
  have hhas : Has (resumedAs env i nodeId data w).id j u := hj.stretch.stored
  have hid : (resumedAs env i nodeId data w).id = i.id := hsame.id
  rw [hid] at hhas
  exact ⟨j, u, hwalk, hj, hlocked, runFrom_resume h hlocked,
    ⟨hrelease.fresh horderly.fresh, horderly.keyed⟩, hhas.quiet hrelease⟩

/-- Whatever the end of the instance does to its parents, its own record stays as its walk has left
it. -/
theorem Resumed.has (h : Resumed env w nodeId data i d n j u) :
    Has i.id j (runFrom (resume env i.id nodeId data) w).2 := by
  rw [h.told]
  exact (finish_climbs h.orderly h.stored).has_start h.stored

theorem resume_has (ho : Orderly env.idName w) (h : Resumable w.store id nodeId i d n)
    (hrun : runFrom (continueAfter env d (withData i nodeId data) n nodeId (data.bind routeOf))
      (w.locked id) = (.ok j, u)) :
    Has id j (runFrom (resume env id nodeId data) w).2 := by
  obtain rfl : i.id = id := ho.keyed _ _ h.stored
  obtain ⟨k, v, hresumed⟩ := resume_walks ho h data
  cases hresumed.locked.symm.trans hrun
  exact hresumed.has

theorem Resumed.version_lt (h : Resumed env w nodeId data i d n j u) : i.version < j.version := by
  have hbegun : (resumedAs env i nodeId data w).version = i.version + 1 :=
    congrArg (· + 1) (withData_version i nodeId data)
  have hwalked := Moves.writings h.halted.stretch.moves
  have hat : Has (resumedAs env i nodeId data w).id (resumedAs env i nodeId data w)
      (resumedAt env i nodeId data w) := World.getInstance?_put_self rfl
  obtain ⟨k, hk, hgrown⟩ := hwalked.grown hat
  have hj : Has (resumedAs env i nodeId data w).id j u := h.halted.stretch.stored
  cases Option.some.inj (hk.symm.trans hj)
  by_cases he : j = resumedAs env i nodeId data w
  · rw [he, hbegun]
    exact Nat.lt_succ_self _
  · have hlt := hgrown.version he
    omega

/-- An instance that waits has nothing to tell. -/
theorem Resumed.ok (h : Resumed env w nodeId data i d n j u) (hj : j.status.isTerminal = false) :
    (runFrom (resume env i.id nodeId data) w).1 = .ok () := by
  rw [h.told, runFrom_finish, runFrom_settle_of_alive hj]

/-! ## at any time, behind any node -/

/-- Only an instance that does not stand still is refused, and a node that is not in its
definition. -/
theorem resume_refused (ho : Orderly env.idName w)
    (h : ∀ i d n, ¬ Resumable w.store id nodeId i d n) (data : Option Json) :
    ∃ e, (runFrom (resume env id nodeId data) w).1 = .error e ∧
      (runFrom (resume env id nodeId data) w).2.store = w.store := by
  have hperformed := resume_performed ho id nodeId data
  change Performed _ _ w _ (runFrom (resume env id nodeId data) w).1
    (runFrom (resume env id nodeId data) w).2 at hperformed
  generalize (runFrom (resume env id nodeId data) w).1 = result at hperformed ⊢
  cases hperformed with
  | refused hidle => exact ⟨_, rfl, hidle.store⟩
  | resumed hdeed =>
    obtain ⟨v, scene, hquiet, hopening, -⟩ := hdeed
    cases hopening with
    | resume data now hi hp hd hn =>
      obtain ⟨n, hn⟩ := hn
      rw [hquiet.getInstance?] at hi
      rw [(Kept.of_core hquiet.core).definitionOf?] at hd
      exact absurd ⟨hi, hp, hd, hn⟩ (h _ _ n)

/-- **A resumption goes on behind every node of the definition**, at any time at which the instance
stands still and whatever it waits for.  Where it stands still again behind that node, the same
resumption goes on once more. -/
theorem resume_regardless (h : Reached env w) (id nodeId : String) (data : Option Json) :
    ((∀ i d n, ¬ Resumable w.store id nodeId i d n) →
      ∃ e, (runFrom (resume env id nodeId data) w).1 = .error e ∧
        (runFrom (resume env id nodeId data) w).2.store = w.store) ∧
    ∀ i d n, Resumable w.store id nodeId i d n →
      ∃ j u, runFrom (walkFrom env (start env) d (d.nextNodes n (data.bind routeOf))
          (resumedAs env i nodeId data w)) (resumedAt env i nodeId data w) = (.ok j, u) ∧
        (runFrom (resume env id nodeId data) w).2.store.getInstance? id = some j ∧
        i.version < j.version ∧
        (j.status.isParked = true → (runFrom (resume env id nodeId data) w).1 = .ok () ∧
          Resumable (runFrom (resume env id nodeId data) w).2.store id nodeId j d n) := by
  have ho := h.orderly
  refine ⟨fun hnone => resume_refused ho hnone data, fun i d n hr => ?_⟩
  obtain rfl : i.id = id := ho.keyed _ _ hr.stored
  obtain ⟨j, u, hresumed⟩ := resume_walks ho hr data
  refine ⟨j, u, hresumed.walk, hresumed.has, ?_, fun hj => ?_⟩
  · exact hresumed.version_lt
  · refine ⟨hresumed.ok (not_terminal_of_parked hj), hresumed.has, hj, ?_, hr.node⟩
    have hkept := (resume_performed ho i.id nodeId data).kept
    obtain ⟨k, hk, hsame⟩ := hkept.instances _ _ hr.stored
    cases Option.some.inj (hk.symm.trans hresumed.has)
    exact (hsame.definitionOf? _).trans ((hkept.definitionOf? i).trans hr.definition)

/-! ### a resumption that is made twice -/

namespace Sample

/-- two screens, one behind the other -/
def twoScreens : Definition where
  id := "screens"
  name := "screens"
  description := none
  status := .published
  version := 1
  subprocessCompatible := true
  nodes := [⟨"begin", .start, none, .null⟩, ⟨"first", .screen, none, .null⟩,
    ⟨"second", .screen, none, .null⟩]
  edges := [⟨"to-first", "begin", "first", none, none⟩,
    ⟨"to-second", "first", "second", none, none⟩]

/-- the world in which the instance waits for the first screen -/
def firstScreen : World :=
  after Sample.env { store := ({} : Store).saveWorkflow twoScreens }
    [⟨⟨0, 0⟩, .start (.of "screens")⟩]

/-- the world in which it waits for the second one -/
def secondScreen : World := (runFrom (resume Sample.env "i" "first" none) firstScreen).2

theorem firstScreen_reached : Reached Sample.env firstScreen :=
  (Reached.empty rfl ⟨names_injective, fun _ _ => rfl, fun _ _ => rfl⟩).after _

theorem secondScreen_reached : Reached Sample.env secondScreen := by
  have hcall := firstScreen_reached.call ⟨⟨0, 0⟩, .resume "i" "first" none⟩
  exact hcall

/-- what the instance waits for -/
def waitsFor (w : World) : Option (InstanceStatus × Option String) :=
  (w.store.getInstance? "i").map fun i => (i.status, i.waitingFor.map (·.id))

theorem waitsFor_first : waitsFor firstScreen = some (.waiting, some "first") := by decide +kernel

theorem waitsFor_second : waitsFor secondScreen = some (.waiting, some "second") := by
  decide +kernel

theorem secondScreen_resumable :
    ∃ i d n, Resumable secondScreen.store "i" "first" i d n := by
  obtain ⟨i, hi, hw⟩ := Option.map_eq_some_iff.mp waitsFor_second
  have hdefinition : ((secondScreen.store.getInstance? "i").bind
      (definitionOf? secondScreen.store)).bind (·.findNode? "first") =
        some ⟨"first", .screen, none, .null⟩ := by
    decide +kernel
  rw [hi] at hdefinition
  obtain ⟨d, hd, hn⟩ := Option.bind_eq_some_iff.mp hdefinition
  have hwaiting : i.status = .waiting := congrArg Prod.fst hw
  refine ⟨i, d, _, hi, ?_, hd, hn⟩
  rw [hwaiting]
  rfl

end Sample

/-- The first screen is resumed, and once more when the instance waits for the second one. -/
theorem resumed_twice : Reached Sample.env Sample.firstScreen ∧
    Sample.waitsFor Sample.firstScreen = some (.waiting, some "first") ∧
    (runFrom (resume Sample.env "i" "first" none) Sample.firstScreen).1 = .ok () ∧
    Sample.waitsFor Sample.secondScreen = some (.waiting, some "second") ∧
    (runFrom (resume Sample.env "i" "first" none) Sample.secondScreen).1 = .ok () ∧
    (runFrom (resume Sample.env "i" "first" none) Sample.secondScreen).2.store ≠
      Sample.secondScreen.store := by
  have hbefore : (Sample.secondScreen.store.getInstance? "i").map (·.log.length) = some 3 := by
    decide +kernel
  have hafter : ((runFrom (resume Sample.env "i" "first" none)
      Sample.secondScreen).2.store.getInstance? "i").map (·.log.length) = some 4 := by
    decide +kernel
  refine ⟨Sample.firstScreen_reached, Sample.waitsFor_first, by decide +kernel,
    Sample.waitsFor_second, by decide +kernel, fun hsame => ?_⟩
  rw [hsame, hbefore] at hafter
  cases hafter

theorem resume_regardless_twice : ∃ i j d n,
    Resumable Sample.secondScreen.store "i" "first" i d n ∧
      (runFrom (resume Sample.env "i" "first" none) Sample.secondScreen).2.store.getInstance? "i" =
        some j ∧ i.version < j.version := by
  obtain ⟨i, d, n, hr⟩ := Sample.secondScreen_resumable
  obtain ⟨j, u, -, hj, hlt, -⟩ :=
    (resume_regardless Sample.secondScreen_reached "i" "first" none).2 i d n hr
  exact ⟨i, j, d, n, hr, hj, hlt⟩

end Workflows.Engine
