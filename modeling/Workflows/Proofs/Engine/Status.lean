import Workflows.Proofs.Engine.Operation

/-!
# States of instances

* `Walked`     every instance that runs is walked at the moment
* `SameEnd`    two records of an instance that has ended in the same way

Main statements: between operations no instance runs (`not_running_after`), and how an instance has
ended is never changed, nor its record but by a single step in it (`ended_after`).
-/

namespace Workflows.Engine
variable {names : Nat → String} {maxLevel : Nat} {s s' : Scene} {w w' : World} {act : Act}
  {op : Operation} {result : Except EngineError Unit} {fuel : Nat} {child : Instance}

/-! ## instances that run -/

def Walked (s : Scene) : Prop :=
  ∀ id i, s.world.store.getInstance? id = some i → i.status = .running →
    ∃ f ∈ s.frames, f.instanceId = id

theorem Walked.quiet {fs : List Frame} (h : Walked ⟨fs, w⟩) (hq : Quiet w w') :
    Walked ⟨fs, w'⟩ := by
  intro id i hi hr
  exact h id i ((hq.getInstance? id).symm.trans hi) hr

theorem Walked.put {fs : List Frame} (h : Walked ⟨fs, w⟩) {j : Instance}
    (hj : ∃ f ∈ fs, f.instanceId = j.id) : Walked ⟨fs, w.put j⟩ := by
  intro id i hi hr
  rw [World.getInstance?_put] at hi
  split at hi
  · next he =>
    rw [he]
    exact hj
  · exact h id i hi hr

theorem Walked.rest {fs fs' : List Frame} (h : Walked ⟨fs, w⟩) {j : Instance}
    (hj : j.status ≠ .running) (hfs : ∀ f ∈ fs, f.instanceId ≠ j.id → f ∈ fs') :
    Walked ⟨fs', w.put j⟩ := by
  intro id i hi hr
  rw [World.getInstance?_put] at hi
  split at hi
  · cases hi
    exact absurd hr hj
  · next hne =>
    obtain ⟨f, hf, hid⟩ := h id i hi hr
    exact ⟨f, hfs f hf (hid ▸ hne), hid⟩

theorem Walked.unwalked (h : Walked ⟨[], w⟩) {j : Instance} (hj : j.status ≠ .running) :
    Walked ⟨[], w.put j⟩ :=
  h.rest hj fun _ hf => nomatch hf

/-- nothing runs where nothing is walked -/
theorem Walked.at_rest {id : String} {i : Instance} (h : Walked ⟨[], w⟩)
    (hi : w.store.getInstance? id = some i) : i.status ≠ .running := by
  intro hr
  obtain ⟨f, hf, _⟩ := h id i hi hr
  cases hf

theorem Walked.push {fs : List Frame} (h : Walked ⟨fs, w⟩) (f : Frame) : Walked ⟨f :: fs, w⟩ := by
  intro id i hi hr
  obtain ⟨g, hg, hid⟩ := h id i hi hr
  exact ⟨g, List.mem_cons_of_mem f hg, hid⟩

theorem Move.walked (h : Move names maxLevel s s') (hw : Walked s) : Walked s' := by
  cases h with
  | quiet hq => exact hw.quiet hq
  | create => exact (hw.push _).put ⟨_, List.mem_cons_self, rfl⟩
  | link => exact hw
  | advance hi hid hr h now =>
    exact hw.put ⟨_, List.mem_cons_self, hid.symm.trans h.sameOrigin.id.symm⟩
  | @halt f fs w i j hi hid hr h now =>
    have hjd : (j.written now).id = f.instanceId := h.sameOrigin.id.trans hid
    refine Walked.rest (j := j.written now) hw h.status_ne_running fun g hg hne => ?_
    rcases List.mem_cons.mp hg with rfl | hg
    · exact absurd hjd.symm hne
    · exact hg

theorem Moves.walked (h : Moves names maxLevel s s') (hw : Walked s) : Walked s' := by
  induction h with
  | refl => exact hw
  | tail _ hm ih => exact hm.walked ih

theorem Opening.walked (h : Opening names maxLevel act w s) (hw : Walked ⟨[], w⟩) : Walked s := by
  cases h with
  | start => exact (hw.push _).put ⟨_, List.mem_cons_self, rfl⟩
  | resume data now =>
    exact (hw.push _).put ⟨_, List.mem_cons_self, (sameOrigin_withData _ _ data).id.symm⟩
  | wake now =>
    exact (hw.push _).put ⟨_, List.mem_cons_self, (sameOrigin_withOutputs _ _ _).id.symm⟩
  | @note w i child link d now h hc hp =>
    have hstatus : (noted i child link).status = .paused :=
      (rememberChild_status i child link.parentNodeId).trans hp
    refine hw.unwalked ?_
    show (noted i child link).status ≠ .running
    rw [hstatus]
    exact nofun
  | failWith => exact hw.unwalked nofun
  | pause => exact hw.unwalked nofun
  | cancel => exact hw.unwalked nofun

theorem Deed.walked (h : Deed names maxLevel act w w') (hw : Walked ⟨[], w⟩) : Walked ⟨[], w'⟩ := by
  obtain ⟨v, scene, hquiet, hopening, hmoves⟩ := h
  exact Moves.walked hmoves (hopening.walked (hw.quiet hquiet))

theorem Climb.walked (h : Climb names maxLevel fuel child w result w') (hw : Walked ⟨[], w⟩) :
    Walked ⟨[], w'⟩ := by
  induction h with
  | exhausted => exact hw
  | ended => exact hw
  | refused _ _ hidle => exact hw.quiet hidle.quiet
  | up _ hdeed _ _ ih => exact ih (hdeed.walked hw)

/-- No operation leaves an instance running. -/
theorem Performed.walked (h : Performed names maxLevel w op result w') (hw : Walked ⟨[], w⟩) :
    Walked ⟨[], w'⟩ := by
  cases h with
  | refused hidle => exact hw.quiet hidle.quiet
  | started hdeed => exact hdeed.walked hw
  | resumed hdeed _ hc => exact hc.walked (hdeed.walked hw)
  | held hidle => exact hw.quiet hidle.quiet
  | paused hdeed => exact hdeed.walked hw
  | cancelled hdeed _ hc => exact hc.walked (hdeed.walked hw)
  | @stepped id _ i d n o vars t t' now v _ hi hid _ _ hm hv hq =>
    have hwalked : Walked ⟨[⟨id, d⟩], v⟩ := Moves.walked hm (hw.push _)
    -- the instance of a single step keeps its state
    have hrest : i.status ≠ .running := hw.at_rest hi
    have hput : Walked ⟨[], v.put ((recordStep i n o vars t t').written now)⟩ := by
      refine hwalked.rest hrest fun f hf hne => absurd ?_ hne
      rw [List.mem_singleton.mp hf]
      exact hid.symm
    exact hput.quiet hq

theorem not_stored_of_empty (hw : w.store.instances = []) {id : String} {i : Instance} :
    w.store.getInstance? id ≠ some i := by
  intro hi
  rw [Store.getInstance?, hw] at hi
  cases hi

theorem orderly_of_empty (hw : w.store.instances = []) (hf : Fresh names w) : Orderly names w :=
  ⟨hf, fun _ _ hi => absurd hi (not_stored_of_empty hw)⟩

theorem walked_of_empty (hw : w.store.instances = []) : Walked ⟨[], w⟩ :=
  fun _ _ hi => absurd hi (not_stored_of_empty hw)

/-- **Between operations no instance runs**, whatever the operations have answered. -/
theorem not_running_after (env : Env) (w : World) (hw : w.store.instances = [])
    (hf : Fresh env.idName w) (calls : List Call) (id : String) (i : Instance)
    (hi : (after env w calls).store.getInstance? id = some i) : i.status ≠ .running := by
  have hwalked : Walked ⟨[], after env w calls⟩ :=
    after_induct (P := fun v => Walked ⟨[], v⟩) calls (orderly_of_empty hw hf) (walked_of_empty hw)
      fun _ hp hv => hp.walked hv
  exact hwalked.at_rest hi

theorem not_running_after_start :
    ∃ i, (after Sample.env Sample.world Sample.calls).store.getInstance? "i" = some i ∧
      i.status ≠ .running := by
  have hstored :
      ((after Sample.env Sample.world Sample.calls).store.getInstance? "i").isSome = true := by
    decide +kernel
  obtain ⟨i, hi⟩ := Option.isSome_iff_exists.mp hstored
  exact ⟨i, hi, not_running_after Sample.env Sample.world rfl Sample.fresh _ _ _ hi⟩

/-! ## instances that have ended -/

/-- A world that has a record as it was. -/
def Has (id : String) (i : Instance) (w : World) : Prop := w.store.getInstance? id = some i

theorem Has.quiet {id : String} {i : Instance} (h : Has id i w) (hq : Quiet w w') : Has id i w' :=
  (hq.getInstance? id).trans h

theorem Has.put_of_ne {id : String} {i j : Instance} (h : Has id i w) (hne : id ≠ j.id) :
    Has id i (w.put j) :=
  (World.getInstance?_put_of_ne hne).trans h

/-- a record that is written over another one is not that of an instance that is in a different
state -/
theorem Has.put {id : String} {i k j : Instance} (h : Has id i w)
    (hk : w.store.getInstance? k.id = some k) (hj : j.id = k.id)
    (hne : i.status ≠ k.status) : Has id i (w.put j) := by
  refine h.put_of_ne fun he => hne ?_
  rw [hj] at he
  rw [he] at h
  exact congrArg Instance.status (Option.some.inj (h.symm.trans hk))

theorem Has.started {id : String} {i j : Instance} {r : StartRequest} {d : Definition}
    (h : Has id i w) (hc : Created names maxLevel w r d j) : Has id i (w.started j d) := by
  refine h.put_of_ne fun he => ?_
  have hstored : w.store.getInstance? j.id = some i := he ▸ h
  rw [hc.unstored] at hstored
  cases hstored

variable {id : String} {i : Instance}

theorem ne_of_terminal {a b : InstanceStatus} (ha : a.isTerminal = true)
    (hb : b.isTerminal = false) : a ≠ b := by
  rintro rfl
  rw [ha] at hb
  cases hb

/-- No move of a walk changes an instance that stands still or has ended. -/
theorem Move.has_resting (h : Move names maxLevel s s') (hr : i.status ≠ .running)
    (hi : Has id i s.world) : Has id i s'.world := by
  cases h with
  | quiet hq => exact hi.quiet hq
  | create _ _ _ _ hc => exact hi.started hc
  | link => exact hi
  | advance hk hid hk' h now =>
    exact hi.put (stored_of_frame hk hid) h.sameOrigin.id (hk' ▸ hr)
  | halt hk hid hk' h now =>
    exact hi.put (stored_of_frame hk hid) h.sameOrigin.id (hk' ▸ hr)

theorem Moves.has_resting (h : Moves names maxLevel s s') (hr : i.status ≠ .running)
    (hi : Has id i s.world) : Has id i s'.world := by
  induction h with
  | refl => exact hi
  | tail _ hm ih => exact hm.has_resting hr ih

theorem Opening.has_ended (h : Opening names maxLevel act w s) (ht : i.status.isTerminal = true)
    (hi : Has id i w) : Has id i s.world := by
  rcases h.creates_or_rewrites with ⟨r, d, j, _, hc, rfl⟩ | ⟨k, j, hk, hn, hsame, hs, _⟩
  · exact hi.started hc
  · unfold Has
    rw [hs]
    exact hi.put hk hsame.id (ne_of_terminal ht hn)

theorem Deed.has_ended (h : Deed names maxLevel act w w') (ht : i.status.isTerminal = true)
    (hi : Has id i w) : Has id i w' := by
  obtain ⟨v, scene, hquiet, hopening, hmoves⟩ := h
  exact Moves.has_resting hmoves (ne_of_terminal ht rfl) (hopening.has_ended ht (hi.quiet hquiet))

theorem Climb.has_ended (h : Climb names maxLevel fuel child w result w')
    (ht : i.status.isTerminal = true) (hi : Has id i w) : Has id i w' := by
  induction h with
  | exhausted => exact hi
  | ended => exact hi
  | refused _ _ hidle => exact hi.quiet hidle.quiet
  | up _ hdeed _ _ ih => exact ih (hdeed.has_ended ht hi)

structure SameEnd (i j : Instance) : Prop where
  status : j.status = i.status
  error : j.error = i.error
  friendlyError : j.friendlyError = i.friendlyError
  waitingFor : j.waitingFor = i.waitingFor
  completedAt : j.completedAt = i.completedAt

theorem SameEnd.refl (i : Instance) : SameEnd i i := ⟨rfl, rfl, rfl, rfl, rfl⟩

theorem SameEnd.trans {i j k : Instance} (h : SameEnd i j) (h' : SameEnd j k) : SameEnd i k :=
  ⟨h'.status.trans h.status, h'.error.trans h.error, h'.friendlyError.trans h.friendlyError,
    h'.waitingFor.trans h.waitingFor, h'.completedAt.trans h.completedAt⟩

/-- An operation changes an instance that has ended only if it is a single step in it, and even then
not how it has ended. -/
theorem Performed.has_ended (h : Performed names maxLevel w op result w')
    (ht : i.status.isTerminal = true) (hi : Has id i w) :
    ∃ j, Has id j w' ∧ SameEnd i j ∧ ((∀ nodeId, op ≠ .step id nodeId) → j = i) := by
  have hsame : Has id i w' → ∃ j, Has id j w' ∧ SameEnd i j ∧
    ((∀ nodeId, op ≠ .step id nodeId) → j = i) :=
    fun hi' => ⟨i, hi', SameEnd.refl i, fun _ => rfl⟩
  cases h with
  | refused hidle => exact hsame (hi.quiet hidle.quiet)
  | started hdeed => exact hsame (hdeed.has_ended ht hi)
  | resumed hdeed _ hc => exact hsame (hc.has_ended ht (hdeed.has_ended ht hi))
  | held hidle => exact hsame (hi.quiet hidle.quiet)
  | paused hdeed => exact hsame (hdeed.has_ended ht hi)
  | cancelled hdeed _ hc => exact hsame (hc.has_ended ht (hdeed.has_ended ht hi))
  | @stepped other nodeId k d n o vars t t' now v _ hk hid _ _ hm hv hq =>
    have hput : Has other ((recordStep k n o vars t t').written now) w' :=
      Has.quiet (World.getInstance?_put_self hid) hq
    by_cases he : id = other
    · subst he
      cases Option.some.inj (hk.symm.trans hi)
      exact ⟨_, hput, ⟨rfl, rfl, rfl, rfl, rfl⟩, fun hne => absurd rfl (hne nodeId)⟩
    · refine hsame ?_
      have hv' : Has id i v := Moves.has_resting hm (ne_of_terminal ht rfl) hi
      have hne : id ≠ ((recordStep k n o vars t t').written now).id := fun he' => he (he'.trans hid)
      exact (hv'.put_of_ne hne).quiet hq

/-- One call after another leaves an instance that has ended as it is. -/
theorem Has.after_calls {env : Env} {v : World} (hi : Has id i v) (ht : i.status.isTerminal = true)
    (calls : List Call) (ho : Orderly env.idName v) :
    ∃ j, Has id j (after env v calls) ∧ SameEnd i j ∧
      ((∀ c ∈ calls, ∀ nodeId, c.operation ≠ .step id nodeId) → j = i) := by
  induction calls generalizing v i with
  | nil => exact ⟨i, hi, SameEnd.refl i, fun _ => rfl⟩
  | cons c calls ih =>
    have hc := Call.performed env ho c
    obtain ⟨j, hj, hsame, heq⟩ := hc.has_ended ht hi
    have htj : j.status.isTerminal = true := by
      rw [hsame.status]
      exact ht
    obtain ⟨k, hk, hsame', heq'⟩ := ih hj htj (hc.orderly ho)
    refine ⟨k, hk, hsame.trans hsame', fun hsteps => ?_⟩
    rw [heq' fun c' hc' => hsteps c' (List.mem_cons_of_mem c hc'),
      heq (hsteps c List.mem_cons_self)]

/-- **How an instance has ended is never changed**, nor its record by anything but a single step in
it. -/
theorem ended_after (env : Env) (w : World) (hw : w.store.instances = []) (hf : Fresh env.idName w)
    (calls more : List Call) (id : String) (i : Instance)
    (hi : (after env w calls).store.getInstance? id = some i) (ht : i.status.isTerminal = true) :
    ∃ j, (after env w (calls ++ more)).store.getInstance? id = some j ∧ SameEnd i j ∧
      ((∀ c ∈ more, ∀ nodeId, c.operation ≠ .step id nodeId) → j = i) := by
  rw [after_append]
  exact Has.after_calls hi ht more (after_orderly calls (orderly_of_empty hw hf))

/-- the parent is cancelled, and its child completes -/
theorem ended_after_cancel :
    ∃ i, (after Sample.env Sample.world
      (Sample.calls ++ [⟨⟨1, 0⟩, .cancel "i"⟩])).store.getInstance? "i" = some i ∧
      (after Sample.env Sample.world ((Sample.calls ++ [⟨⟨1, 0⟩, .cancel "i"⟩]) ++
        [⟨⟨2, 0⟩, .resume "ii" "work" none⟩])).store.getInstance? "i" = some i := by
  have hended : ((after Sample.env Sample.world
      (Sample.calls ++ [⟨⟨1, 0⟩, .cancel "i"⟩])).store.getInstance? "i").any
      (·.status.isTerminal) = true := by
    decide +kernel
  obtain ⟨i, hi, ht⟩ := (Option.any_eq_true _ _).mp hended
  obtain ⟨j, hj, _, heq⟩ := ended_after Sample.env Sample.world rfl Sample.fresh _
    [⟨⟨2, 0⟩, .resume "ii" "work" none⟩] "i" i hi ht
  have hsame : j = i := by
    refine heq fun c hc nodeId => ?_
    rw [List.mem_singleton.mp hc]
    exact nofun
  exact ⟨i, hi, hsame ▸ hj⟩

end Workflows.Engine
