import Workflows.Proofs.Engine.Rewrite

/-!
# Fields that agree with the state

* `Instance.Coherent`   what an instance waits for, when it has ended and how it has failed agree
                        with its state

Main statement: all instances that are stored between operations are coherent (`fields_agree`).
-/

namespace Workflows

structure Instance.Coherent (i : Instance) : Prop where
  named : i.status = .waiting → i.waitingFor.isSome = true
  parked : i.waitingFor.isSome = true → i.status = .waiting ∨ i.status = .paused
  ended : i.completedAt.isSome = true ↔ i.status.isTerminal = true
  failed : i.error.isSome = true ↔ i.status = .failed
  friendly : i.friendlyError = i.error.map friendlyMessage

namespace Instance.Coherent
variable {i j : Instance}

theorem of_sameEnd (h : i.Coherent) (hs : Engine.SameEnd i j) : j.Coherent := by
  obtain ⟨hstatus, herror, hfriendly, hwait, hended⟩ := hs
  refine ⟨?_, ?_, ?_, ?_, ?_⟩
  · rw [hstatus, hwait]
    exact h.named
  · rw [hstatus, hwait]
    exact h.parked
  · rw [hstatus, hended]
    exact h.ended
  · rw [hstatus, herror]
    exact h.failed
  · rw [hfriendly, herror]
    exact h.friendly

/-- a coherent instance that has not ended has no time of its end -/
theorem completedAt (h : i.Coherent) (ha : i.status.isTerminal = false) : i.completedAt = none := by
  rw [← Option.not_isSome_iff_eq_none, h.ended, ha]
  exact Bool.false_ne_true

theorem error (h : i.Coherent) (ha : i.status.isTerminal = false) : i.error = none := by
  rw [← Option.not_isSome_iff_eq_none, h.failed]
  intro he
  rw [he] at ha
  cases ha

/-- an instance that has not ended, in a new state other than failed, and with what it waits for -/
theorem change (h : i.Coherent) (ha : i.status.isTerminal = false) (now : Instant)
    {status : InstanceStatus} {wait : Option Wait} (hf : status ≠ .failed)
    (hn : status = .waiting → wait.isSome = true)
    (hp : wait.isSome = true → status = .waiting ∨ status = .paused) :
    ({ i.setStatus status now with waitingFor := wait } : Instance).Coherent := by
  have herror : i.error = none := h.error ha
  refine ⟨hn, hp, ?_, ?_, h.friendly⟩
  · show (if status.isTerminal = true then some now else i.completedAt).isSome = true ↔
      status.isTerminal = true
    rw [h.completedAt ha]
    by_cases ht : status.isTerminal = true
    · simp [ht]
    · simp [ht]
  · show i.error.isSome = true ↔ status = .failed
    simp [herror, hf]

theorem setStatus (h : i.Coherent) (ha : i.status.isTerminal = false) (now : Instant)
    {status : InstanceStatus} (hf : status ≠ .failed) (hw : status ≠ .waiting) :
    (i.setStatus status now).Coherent := by
  have hnone : i.setStatus status now = { i.setStatus status now with waitingFor := none } := by
    unfold Instance.setStatus
    rw [if_neg hw]
  rw [hnone]
  exact h.change ha now hf (fun he => absurd he hw) nofun

theorem fail (error : String) (now : Instant) :
    (i.fail error (friendlyMessage error) now).Coherent :=
  ⟨nofun, nofun, ⟨fun _ => rfl, fun _ => rfl⟩, ⟨fun _ => rfl, fun _ => rfl⟩, rfl⟩

end Instance.Coherent

namespace Engine
variable {names : Nat → String} {maxLevel : Nat} {env : Env} {w w' : World} {st : Store}
  {d : Definition} {i j : Instance} {id : String}

theorem sameEnd_rememberChild (i child : Instance) (nodeId : String) :
    SameEnd i (i.rememberChild child nodeId) := by
  obtain ⟨children, h⟩ := Instance.rememberChild_eq i child nodeId
  rw [h]
  exact ⟨rfl, rfl, rfl, rfl, rfl⟩

theorem sameEnd_withOutputs (i child : Instance) (link : ChildLink) :
    SameEnd i (withOutputs i child link) :=
  (sameEnd_rememberChild i child link.parentNodeId).trans ⟨rfl, rfl, rfl, rfl, rfl⟩

theorem sameEnd_withData (i : Instance) (nodeId : String) (data : Option Json) :
    SameEnd i (withData i nodeId data) := by
  cases data with
  | none => exact SameEnd.refl i
  | some v => exact ⟨rfl, rfl, rfl, rfl, rfl⟩

theorem Advance.sameEnd (h : Advance st d i j) : SameEnd i j := by
  cases h with
  | record => exact ⟨rfl, rfl, rfl, rfl, rfl⟩
  | @takeOver child link => exact sameEnd_withOutputs i child link

theorem Created.coherent {r : StartRequest} (h : Created names maxLevel w r d i) :
    i.Coherent := by
  obtain ⟨pinned, now, _, hi⟩ := h.definition
  rw [hi]
  exact ⟨nofun, nofun, ⟨nofun, nofun⟩, ⟨nofun, nofun⟩, rfl⟩

theorem Halt.coherent (h : Halt st i j) (hr : i.status = .running) (hi : i.Coherent) :
    j.Coherent := by
  have ha : i.status.isTerminal = false := by
    rw [hr]
    rfl
  cases h with
  | wait wait now _ hs => exact hi.change ha now nofun (fun _ => hs) fun _ => .inl rfl
  | complete now => exact hi.setStatus ha now nofun nofun
  | fail error now => exact .fail error now
  | failWith _ _ now => exact .fail _ now

/-- an instance that goes on -/
theorem coherent_goingOn (hi : i.Coherent) (ha : i.status.isTerminal = false) (nodeId : String)
    (now : Instant) : (goingOn i nodeId now).Coherent :=
  have hrunning : (i.setStatus .running now).Coherent := hi.setStatus ha now nofun nofun
  hrunning.of_sameEnd ⟨rfl, rfl, rfl, rfl, rfl⟩

/-- a parent that is held and has been told is a held instance that waits for nothing -/
theorem coherent_noted {child : Instance} {link : ChildLink} (hi : i.Coherent)
    (hp : i.status = .paused) : (noted i child link).Coherent := by
  have hsame := sameEnd_withOutputs i child link
  have hk : (withOutputs i child link).Coherent := hi.of_sameEnd hsame
  have hstatus : (withOutputs i child link).status = .paused := hsame.status.trans hp
  refine ⟨fun he => ?_, nofun, hk.ended, hk.failed, hk.friendly⟩
  rw [show (noted i child link).status = .paused from hstatus] at he
  cases he

theorem Rewrite.coherent (h : Rewrite st i j) (hi : i.Coherent) : j.Coherent := by
  cases h with
  | advance _ h => exact hi.of_sameEnd h.sameEnd
  | halt hr h => exact h.coherent hr hi
  | resume nodeId data now hp =>
    have hsame := sameEnd_withData i nodeId data
    refine coherent_goingOn (hi.of_sameEnd hsame) ?_ nodeId now
    rw [hsame.status]
    exact not_terminal_of_parked hp
  | @wake _ child link now h =>
    have hsame := sameEnd_withOutputs i child link
    refine coherent_goingOn (hi.of_sameEnd hsame) ?_ _ now
    rw [hsame.status]
    exact h.not_terminal
  | note h hp => exact coherent_noted hi hp
  | failWith now h => exact .fail _ now
  | hold now ha => exact hi.change ha now nofun nofun fun _ => .inr rfl
  | cancel now ha => exact hi.setStatus ha now nofun nofun
  | step => exact hi.of_sameEnd ⟨rfl, rfl, rfl, rfl, rfl⟩

/-- one write keeps the records coherent, and with it every sequence of writes -/
theorem Writing.coherent (h : Writing names maxLevel w w')
    (hw : ∀ id i, w.store.getInstance? id = some i → i.Coherent) :
    ∀ id i, w'.store.getInstance? id = some i → i.Coherent := by
  have hput : ∀ {j : Instance}, j.Coherent →
      ∀ id i, (w.put j).store.getInstance? id = some i → i.Coherent := by
    intro j hj id i hi
    rw [World.getInstance?_put] at hi
    split at hi
    · cases hi
      exact hj
    · exact hw id i hi
  cases h with
  | quiet h => exact fun id i hi => hw id i ((h.getInstance? id).symm.trans hi)
  | create h => exact hput h.coherent
  | link => exact hw
  | @rewrite i j _ hi h now hs =>
    rw [hs]
    exact hput ((h.coherent (hw _ _ hi)).of_sameEnd ⟨rfl, rfl, rfl, rfl, rfl⟩)

theorem Performed.coherent {op : Operation} {result : Except EngineError Unit}
    (h : Performed names maxLevel w op result w')
    (hw : ∀ id i, w.store.getInstance? id = some i → i.Coherent) :
    ∀ id i, w'.store.getInstance? id = some i → i.Coherent := by
  have hwritings := h.writings
  clear h
  induction hwritings with
  | refl => exact hw
  | tail _ hwriting ih => exact hwriting.coherent ih

/-- **The fields of every stored instance agree with its state**, in every world that is reached. -/
theorem fields_agree (env : Env) (w : World) (h : Reached env w) (id : String) (i : Instance)
    (hi : w.store.getInstance? id = some i) : i.Coherent := by
  have hall : ∀ id i, w.store.getInstance? id = some i → i.Coherent := by
    refine (h.induct (P := fun v => ∀ id i, v.store.getInstance? id = some i → i.Coherent)
      (fun hw id i hi => absurd hi (not_stored_of_empty hw)) (fun _ hp hv => hp.coherent hv)
      fun hi _ hv id i hstored => ?_).2
    exact hv id i ((getInstance?_of_instances hi id).symm.trans hstored)
  exact hall id i hi

/-- a parent that has failed with its child -/
theorem fields_agree_failed : ∃ i, (after Sample.env Sample.world
      (Sample.calls ++ [⟨⟨1, 0⟩, .cancel "ii"⟩])).store.getInstance? "i" = some i ∧
    i.status = .failed ∧ i.Coherent := by
  have hfailed : ((after Sample.env Sample.world
      (Sample.calls ++ [⟨⟨1, 0⟩, .cancel "ii"⟩])).store.getInstance? "i").map (·.status) =
      some .failed := by
    decide +kernel
  obtain ⟨i, hi, hs⟩ := Option.map_eq_some_iff.mp hfailed
  have hreached : Reached Sample.env (after Sample.env Sample.world
      (Sample.calls ++ [⟨⟨1, 0⟩, .cancel "ii"⟩])) :=
    (Reached.empty rfl Sample.fresh).after _
  exact ⟨i, hi, hs, fields_agree Sample.env _ hreached "i" i hi⟩

end Engine
end Workflows
