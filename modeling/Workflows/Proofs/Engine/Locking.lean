import Workflows.Proofs.Engine.Recursion
import Workflows.Proofs.Engine.Safeguard

/-!
# Locks of an operation

The lock of an instance cannot be taken twice, and a child is started while the lock of its parent
is held.

* `heldAfter`      the locks that are held after some steps
* `askedUnder`     the locks that are asked for while others are held
* `Locking`        steps that never ask for a lock that is held
* `LocksInOrder`   what an operation does with locks, from its beginning to its end

Main statement: no operation blocks itself, and what it asks for while it holds a lock is always a
new id (`locks_in_order`).
-/

namespace Workflows

/-! ## steps -/

/-- the locks that are held after a step, the last one first -/
def LockStep.after (held : List String) : LockStep → List String
  | .acquire id => id :: held
  | .release id => held.erase id

def heldAfter (steps : List LockStep) : List String := steps.foldl LockStep.after []

/-- the lock that a step asks for while others are held -/
def LockStep.askedUnder (held : List String) : LockStep → List String
  | .acquire id => if held.isEmpty then [] else [id]
  | .release _ => []

/-- the locks that are asked for while others are held, in their order -/
def askedUnder : (held : List String) → List LockStep → List String
  | _, [] => []
  | held, s :: steps => s.askedUnder held ++ askedUnder (s.after held) steps

theorem heldAfter_concat (steps : List LockStep) (s : LockStep) :
    heldAfter (steps ++ [s]) = s.after (heldAfter steps) := by
  rw [heldAfter, List.foldl_append]
  rfl

theorem askedUnder_concat (held : List String) (steps : List LockStep) (s : LockStep) :
    askedUnder held (steps ++ [s]) =
      askedUnder held steps ++ s.askedUnder (steps.foldl LockStep.after held) := by
  induction steps generalizing held with
  | nil => exact List.append_nil _
  | cons t steps ih =>
    rw [List.cons_append, askedUnder, ih, askedUnder, List.append_assoc]
    rfl

/-- Steps that never ask for a lock that is held.  The ids that were generated between `lo` and `hi`
are the only ones that are asked for while another lock is held, in the order in which they were
generated. -/
structure Locking (names : Nat → String) (lo hi : Nat) (steps : List LockStep) : Prop where
  apart : ∀ pre id post, steps = pre ++ .acquire id :: post → id ∉ heldAfter pre
  nested : ∃ ns : List Nat, askedUnder [] steps = ns.map names ∧ ns.Pairwise (· < ·) ∧
    ∀ n ∈ ns, lo ≤ n ∧ n < hi

namespace Locking
variable {names : Nat → String} {lo hi hi' : Nat} {steps : List LockStep} {id : String}

theorem nil : Locking names lo hi [] := by
  refine ⟨fun pre id post h => ?_, [], rfl, .nil, fun n hn => nomatch hn⟩
  cases List.append_eq_nil_iff.mp h.symm |>.2

theorem weaken (h : Locking names lo hi steps) (hle : hi ≤ hi') : Locking names lo hi' steps := by
  obtain ⟨ns, hns, hsorted, hrange⟩ := h.nested
  exact ⟨h.apart, ns, hns, hsorted, fun n hn => ⟨(hrange n hn).1,
    Nat.lt_of_lt_of_le (hrange n hn).2 hle⟩⟩

/-- one step more, that does not ask for what is held -/
theorem apart_concat {s : LockStep} (h : Locking names lo hi steps)
    (hs : ∀ id, s = .acquire id → id ∉ heldAfter steps) (pre : List LockStep) (id : String)
    (post : List LockStep) (he : steps ++ [s] = pre ++ .acquire id :: post) :
    id ∉ heldAfter pre := by
  rcases List.eq_nil_or_concat post with rfl | ⟨post, t, rfl⟩
  · obtain ⟨rfl, hlast⟩ := List.append_inj' he rfl
    exact hs id (List.singleton_inj.mp hlast)
  · rw [List.concat_eq_append, ← List.cons_append, ← List.append_assoc] at he
    exact h.apart pre id post (List.append_inj' he rfl).1

theorem release (h : Locking names lo hi steps) (id : String) :
    Locking names lo hi (steps ++ [.release id]) := by
  refine ⟨h.apart_concat fun _ => nofun, ?_⟩
  rw [askedUnder_concat]
  exact (List.append_nil (askedUnder [] steps)).symm ▸ h.nested

/-- a lock is asked for while none is held -/
theorem acquire (h : Locking names lo hi steps) (hfree : heldAfter steps = []) (id : String) :
    Locking names lo hi (steps ++ [.acquire id]) := by
  refine ⟨h.apart_concat fun other _ => ?_, ?_⟩
  · rw [hfree]
    exact List.not_mem_nil
  · have hasked : LockStep.askedUnder (heldAfter steps) (.acquire id) = [] := by
      rw [hfree]
      rfl
    rw [askedUnder_concat]
    show ∃ ns : List Nat, askedUnder [] steps ++ LockStep.askedUnder (heldAfter steps) _ = _ ∧ _
    rw [hasked, List.append_nil]
    exact h.nested

/-- the lock of a new id is asked for -/
theorem acquireNew (h : Locking names lo hi steps) (hlo : lo ≤ hi)
    (hnew : names hi ∉ heldAfter steps) :
    Locking names lo (hi + 1) (steps ++ [.acquire (names hi)]) := by
  by_cases hfree : heldAfter steps = []
  · exact (h.weaken (Nat.le_succ hi)).acquire hfree (names hi)
  · obtain ⟨ns, hns, hsorted, hrange⟩ := h.nested
    refine ⟨h.apart_concat fun other he => ?_, ns ++ [hi], ?_, ?_, fun n hn => ?_⟩
    · cases he
      exact hnew
    · have hasked : LockStep.askedUnder (heldAfter steps) (.acquire (names hi)) = [names hi] :=
        if_neg fun he => hfree (List.isEmpty_iff.mp he)
      rw [askedUnder_concat, List.map_append, ← hns]
      exact congrArg (askedUnder [] steps ++ ·) hasked
    · refine List.pairwise_append.mpr ⟨hsorted, List.pairwise_singleton _ _, fun n hn m hm => ?_⟩
      rw [List.mem_singleton.mp hm]
      exact (hrange n hn).2
    · rcases List.mem_append.mp hn with hn | hn
      · exact ⟨(hrange n hn).1, Nat.lt_succ_of_lt (hrange n hn).2⟩
      · rw [List.mem_singleton.mp hn]
        exact ⟨hlo, Nat.lt_succ_self hi⟩

end Locking
namespace Engine
variable {env : Env} {w w' : World} {held : List String}

/-! ## what the engine keeps -/

/-- The lock steps since a world, while some locks are held.  Their ids are never generated
again. -/
structure LockedSince (names : Nat → String) (start : World) (held : List String) (w : World) :
    Prop where
  fresh : Fresh names w
  ids : start.ids ≤ w.ids
  spent : ∀ id ∈ held, ∀ n, w.ids ≤ n → names n ≠ id
  steps : ∃ steps, w.locks.toList = start.locks.toList ++ steps ∧ heldAfter steps = held ∧
    Locking names start.ids w.ids steps

namespace LockedSince
variable {names : Nat → String} {start : World} {id : String}

theorem refl (hf : Fresh names w) : LockedSince names w [] w :=
  ⟨hf, Nat.le_refl _, nofun, [], (List.append_nil _).symm, rfl, .nil⟩

/-- the same steps, in a world in which ids are still fresh -/
theorem weaken (h : LockedSince names start held w) (hf : Fresh names w') (hids : w.ids ≤ w'.ids)
    (hlocks : w'.locks = w.locks) : LockedSince names start held w' := by
  obtain ⟨steps, hsteps, hheld, hlocking⟩ := h.steps
  refine ⟨hf, Nat.le_trans h.ids hids, fun id hid n hn => h.spent id hid n (Nat.le_trans hids hn),
    steps, ?_, hheld, hlocking.weaken hids⟩
  rw [hlocks]
  exact hsteps

theorem release (h : LockedSince names start (id :: held) w) :
    LockedSince names start held (w.unlocked id) := by
  obtain ⟨steps, hsteps, hheld, hlocking⟩ := h.steps
  refine ⟨(Quiet.unlocked w id).fresh h.fresh, h.ids,
    fun other ho => h.spent other (List.mem_cons_of_mem id ho), steps ++ [LockStep.release id],
    ?_, ?_, hlocking.release id⟩
  · rw [← List.append_assoc, ← hsteps]
    exact Array.toList_push
  · rw [heldAfter_concat, hheld]
    exact List.erase_cons_head id held

/-- the lock of an id is taken that will not be generated -/
theorem acquire (h : LockedSince names start [] w) (hid : ∀ n, w.ids ≤ n → names n ≠ id) :
    LockedSince names start [id] (w.locked id) := by
  obtain ⟨steps, hsteps, hheld, hlocking⟩ := h.steps
  refine ⟨(Quiet.locked w id).fresh h.fresh, h.ids, fun other ho => ?_,
    steps ++ [LockStep.acquire id], ?_, ?_, hlocking.acquire hheld id⟩
  · rw [List.mem_singleton.mp ho]
    exact hid
  · rw [← List.append_assoc, ← hsteps]
    exact Array.toList_push
  · rw [heldAfter_concat, hheld]
    rfl

/-- a lock is taken and freed -/
theorem knock (h : LockedSince names start [] w) (id : String) :
    LockedSince names start [] ((w.locked id).unlocked id) := by
  obtain ⟨steps, hsteps, hheld, hlocking⟩ := h.steps
  refine ⟨((Quiet.locked w id).trans (Quiet.unlocked _ id)).fresh h.fresh, h.ids,
    nofun, steps ++ [LockStep.acquire id] ++ [LockStep.release id], ?_, ?_,
    (hlocking.acquire hheld id).release id⟩
  · show ((w.locks.push (.acquire id)).push (.release id)).toList = _
    rw [Array.toList_push, Array.toList_push, hsteps, List.append_assoc, List.append_assoc,
      List.append_assoc]
  · rw [heldAfter_concat, heldAfter_concat, hheld]
    exact List.erase_cons_head id []

/-- an instance is started under the lock of its new id -/
theorem create (h : LockedSince env.idName start held w) (r : StartRequest) (d : Definition)
    (pinned : Option String) :
    LockedSince env.idName start (env.idName w.ids :: held)
      ((starting env w).started (startedAs env r d pinned w) d) := by
  obtain ⟨steps, hsteps, hheld, hlocking⟩ := h.steps
  refine ⟨h.fresh.started r d pinned, Nat.le_succ_of_le h.ids, fun id hid n hn => ?_,
    steps ++ [LockStep.acquire (env.idName w.ids)], ?_, ?_, hlocking.acquireNew h.ids ?_⟩
  · rcases List.mem_cons.mp hid with rfl | hid
    · intro he
      have : n = w.ids := h.fresh.distinct he
      have : w.ids + 1 ≤ n := hn
      omega
    · exact h.spent id hid n (Nat.le_of_succ_le hn)
  · rw [← List.append_assoc, ← hsteps]
    exact Array.toList_push
  · rw [heldAfter_concat, hheld]
    rfl
  · rw [hheld]
    exact fun hmem => h.spent _ hmem w.ids (Nat.le_refl _) rfl

end LockedSince

theorem lockedSince_safeguard (env : Env) (start : World) :
    Safeguard env (LockedSince env.idName start) (fun _ => True) where
  quiet h hcore hids hlocks := h.weaken (h.fresh.of_core hcore hids) hids hlocks
  read _ _ := trivial
  origin _ _ := trivial
  put h _ hi := h.weaken (h.fresh.put hi) (Nat.le_refl _) rfl
  create h _ := ⟨trivial, h.create _ _ _⟩
  link h hl := h.weaken (h.fresh.link hl) (Nat.le_refl _) rfl
  release h := h.release
  acquire h hi := h.acquire fun n hn he => by
    rw [← he, h.fresh.unstored n hn] at hi
    cases hi
  knock h _ := h.knock _

/-! ## what an operation does with locks -/

/-- The lock steps from one world to another never ask for a lock that is held, and in the end none
is held. -/
def LocksInOrder (names : Nat → String) (w w' : World) : Prop :=
  ∃ steps, w'.locks.toList = w.locks.toList ++ steps ∧ heldAfter steps = [] ∧
    Locking names w.ids w'.ids steps

/-- Lock steps are only added. -/
theorem steps_safeguard (env : Env) (steps : List LockStep) :
    Safeguard env (fun _ w => steps <+: w.locks.toList) (fun _ => True) := by
  have hpush : ∀ {w : World} (s : LockStep), steps <+: w.locks.toList →
      steps <+: (w.locks.push s).toList := by
    intro w s h
    rw [Array.toList_push]
    exact h.trans (List.prefix_append _ _)
  refine { quiet := fun h _ _ hlocks => hlocks ▸ h, read := fun _ _ => trivial
           origin := fun _ _ => trivial, put := fun h _ _ => h
           create := fun h _ => ⟨trivial, hpush _ h⟩, link := fun h _ => h
           release := fun h => hpush _ h, acquire := fun h _ => hpush _ h
           knock := fun h _ => hpush (w := World.locked _ _) _ (hpush _ h) }

/-- The first lock that a start asks for is that of the id which it generates first. -/
theorem start_asks_first (env : Env) (r : StartRequest) (w : World) :
    (runFrom (start env r) w).2.locks = w.locks ∨
      w.locks.toList ++ [.acquire (env.idName w.ids)] <+:
        (runFrom (start env r) w).2.locks.toList := by
  rcases start_cases env r w with ⟨e, hrun⟩ | ⟨levels, d, pinned, _, hrun⟩
  · rw [hrun]
    exact .inl rfl
  · have hsteps := steps_safeguard env (w.locks.toList ++ [.acquire (env.idName w.ids)])
    have hstarted : w.locks.toList ++ [.acquire (env.idName w.ids)] <+:
        ((starting env w).started (startedAs env r d pinned w) d).locks.toList := by
      show _ <+: (w.locks.push _).toList
      exact Array.toList_push ▸ List.prefix_refl _
    obtain ⟨_, hwalked⟩ := @Safeguard.startRun _ _ _ _ [] _ hsteps (hsteps.startWithin levels) r d
      pinned hstarted trivial
    rw [hrun]
    exact .inr (@Safeguard.release _ _ _ hsteps [] _ (env.idName w.ids) hwalked)

theorem Upholds.locksInOrder {α : Type} {Q : α → World → Prop} {x : Run EngineError α}
    (h : Upholds (LockedSince env.idName w []) Q x w) :
    LocksInOrder env.idName w (runFrom x w).2 := h.kept.steps

/-- **No operation blocks itself.**  Whatever is stored, no operation asks for a lock that it holds,
and what it asks for while it holds a lock is an id that it has generated, later than any before
it.  The same is true of the report of an instance to its parents, however far up it goes, and of
a start that ends with such a report; a start asks first for the id that it generates first. -/
theorem locks_in_order (env : Env) (w : World) (hf : Fresh env.idName w) :
    (∀ op : Operation, LocksInOrder env.idName w (runFrom (op.run env) w).2) ∧
    (∀ fuel child, LocksInOrder env.idName w (runFrom (settle env fuel child) w).2) ∧
    (∀ launcher, Follows env launcher → ∀ r,
      LocksInOrder env.idName w (runFrom (launcher r) w).2 ∧
      ((runFrom (launcher r) w).2.locks = w.locks ∨
        w.locks.toList ++ [.acquire (env.idName w.ids)] <+:
          (runFrom (launcher r) w).2.locks.toList)) := by
  have hs := lockedSince_safeguard env w
  have hw := LockedSince.refl hf
  refine ⟨fun op => (hs.run hw op).locksInOrder,
    fun fuel child => (hs.settle hw fuel child).locksInOrder, fun launcher hl r => ?_⟩
  rw [hl.eq_start r hf]
  exact ⟨(hs.start [] r w hw).locksInOrder, start_asks_first env r w⟩

/-- the parent waits for a form that its child asks for -/
def formAsked : World :=
  (runFrom ((Operation.start (.of "parent")).run Sample.env) Sample.world).2

/-- A parent keeps its lock while its child is started; the lock of the child is free again when the
parent is told that it has ended. -/
theorem locks_in_order_parent :
    formAsked.locks.toList =
        [.acquire "i", .acquire "ii", .release "ii", .release "i"] ∧
      LocksInOrder Sample.names Sample.world formAsked ∧
      (runFrom ((Operation.resume "ii" "work" none).run Sample.env) formAsked).2.locks.toList =
        formAsked.locks.toList ++
          [.acquire "ii", .release "ii", .acquire "i", .release "i"] ∧
      LocksInOrder Sample.names formAsked
        (runFrom ((Operation.resume "ii" "work" none).run Sample.env) formAsked).2 := by
  have hfresh : Fresh Sample.names formAsked :=
    ((lockedSince_safeguard Sample.env Sample.world).run (.refl Sample.fresh)
      (.start (.of "parent"))).kept.fresh
  exact ⟨by decide +kernel, (locks_in_order Sample.env Sample.world Sample.fresh).1 _,
    by decide +kernel, (locks_in_order Sample.env formAsked hfresh).1 _⟩

end Engine
end Workflows
