import Mathlib.Order.Bounds.Basic
import Workflows.Proofs.Failure
import Workflows.Proofs.Node.Ran

/-!
# Repetitions

A node of a retryable kind is run again while it fails for a reason that may pass, up to a limit.  The attempts are
numbered from 1; between two of them the failure is announced under the number of the attempt, and nothing else
happens.

* `Outcome.Transient`       a failure whose text has a keyword of a rule for transient failures
* `Node.attemptLimit`       how often a node may be run
* `Node.sessionBehind`      the session behind some attempts and their announcements
* `Node.tries`              the attempt with a number, if all before it are followed by another

Main statement: the number of attempts is the least one at which the limit is reached or the attempt is no transient
failure; the run has the outcome of this attempt, and an observer is told of every attempt before it
(`runWithRetries_tries`).
-/

namespace Workflows

/-! ## failures that may pass -/

/-- A text that a rule for transient failures matches. -/
def TransientText (text : String) : Prop :=
  ∃ rule ∈ failureRules, rule.transient ∧ ∃ k ∈ rule.keywords, k.toList <:+: (Text.lowercase text).toList

theorem isTransient_iff {text : String} : isTransient text ↔ TransientText text := by
  simp only [isTransient, TransientText, List.any_eq_true, Bool.and_eq_true, FailureRule.matchesText, Text.occursIn,
    Text.occursInChars_iff]

namespace Outcome

/-- A failure that may pass when the node is run again. -/
def Transient (o : Outcome) : Prop := o.status = .failed ∧ ∃ text, o.error = some text ∧ TransientText text

theorem transientError?_eq_some_iff {o : Outcome} {text : String} :
    o.transientError? = some text ↔ o.status = .failed ∧ o.error = some text ∧ TransientText text := by
  rw [transientError?, ← isTransient_iff]
  by_cases hs : o.status = .failed
  · have hf : o.isFailed = true := decide_eq_true hs
    rw [if_pos hf, Option.filter_eq_some_iff, and_iff_right hs]
  · have hf : ¬ o.isFailed = true := fun h => hs (of_decide_eq_true h)
    rw [if_neg hf]
    exact iff_of_false nofun fun h => hs h.1

theorem transient_iff {o : Outcome} : o.Transient ↔ o.transientError?.isSome := by
  rw [Option.isSome_iff_exists]
  simp only [transientError?_eq_some_iff, Transient, exists_and_left]

end Outcome

/-! ## the attempts of a node -/

/-- the session in which an observer was told of one more event -/
def Session.told (s : Session) (e : Event) : Session :=
  { s with world := { s.world with events := s.world.events.push e } }

namespace Node

/-- how often a node is run at most -/
def attemptLimit (s : Settings) (n : Node) : Nat := if n.kind.isRetryable then max 1 s.maxAttempts else 1

theorem retriesOf_add_one (s : Settings) (n : Node) : n.retriesOf s + 1 = n.attemptLimit s := by
  unfold retriesOf attemptLimit
  split
  · omega
  · rfl

variable (c : NodeContext) (n : Node) (s : Session)

/-- what an observer is told behind the attempt with a number, before the next one -/
def announcement (j : Nat) (x : Outcome × Session) : Event :=
  ⟨c.instanceId, .nodeRetrying n.id j (x.1.error.getD ""), c.env.epoch.addNanos x.2.world.ticks⟩

/-- the session behind some attempts, each of which is announced -/
def sessionBehind : Nat → Session
  | 0 => s
  | j + 1 =>
    let x := (n.attempt c).run (sessionBehind j)
    x.2.told (n.announcement c (j + 1) x)

/-- the outcome of the attempt with a number, and the session after it -/
def tries (k : Nat) : Outcome × Session := (n.attempt c).run (n.sessionBehind c s (k - 1))

theorem sessionBehind_succ (j : Nat) : n.sessionBehind c s (j + 1) =
    (n.tries c s (j + 1)).2.told (n.announcement c (j + 1) (n.tries c s (j + 1))) := rfl

theorem noteRetry_tries {j : Nat} {error : String} (h : (n.tries c s (j + 1)).1.error = some error) :
    ((n.noteRetry c (j + 1) error).run (n.tries c s (j + 1)).2).2 = n.sessionBehind c s (j + 1) := by
  rw [sessionBehind_succ, announcement, h]
  rfl

variable {c n s}

/-- The repetitions behind some attempts stop at the first one that is no transient failure, or with the last one
that is left. -/
theorem retrying_tries (left retries : Nat) : ∃ k,
    IsLeast ({retries + left + 1} ∪ {j | retries < j ∧ ¬ (n.tries c s j).1.Transient}) k ∧
      (retrying (n.attempt c) (n.noteRetry c) left retries).run (n.sessionBehind c s retries) =
        ({ (n.tries c s k).1 with retries := k - 1 }, (n.tries c s k).2) := by
  induction left generalizing retries with
  | zero =>
    refine ⟨retries + 1, ⟨.inl rfl, ?_⟩, rfl⟩
    rintro j (rfl | ⟨hj, -⟩)
    · exact Nat.le_refl _
    · exact hj
  | succ left ih =>
    have htries : (n.attempt c).run (n.sessionBehind c s retries) = n.tries c s (retries + 1) := rfl
    rw [retrying_succ_run, htries]
    cases ht : (n.tries c s (retries + 1)).1.transientError? with
    | none =>
      have hnot : ¬ (n.tries c s (retries + 1)).1.Transient := by
        rw [Outcome.transient_iff, ht]
        exact Bool.false_ne_true
      refine ⟨retries + 1, ⟨.inr ⟨Nat.lt_succ_self _, hnot⟩, ?_⟩, rfl⟩
      rintro j (rfl | ⟨hj, -⟩)
      · omega
      · exact hj
    | some error =>
      have htransient : (n.tries c s (retries + 1)).1.Transient := by
        rw [Outcome.transient_iff, ht]
        rfl
      obtain ⟨k, ⟨hk, hleast⟩, hrun⟩ := ih (retries + 1)
      refine ⟨k, ⟨?_, ?_⟩, ?_⟩
      · rcases hk with hk | ⟨hk, hnot⟩
        · exact .inl (hk.trans (by omega))
        · exact .inr ⟨by omega, hnot⟩
      · rintro j (rfl | ⟨hj, hnot⟩)
        · exact hleast (.inl (by show _ = _; omega))
        · refine hleast (.inr ⟨?_, hnot⟩)
          have hne : j ≠ retries + 1 := by
            rintro rfl
            exact hnot htransient
          omega
      · dsimp only
        rw [noteRetry_tries c n s (Outcome.transientError?_eq_some_iff.mp ht).2.1]
        exact hrun

/-- A run has the outcome of its last attempt, and stays in the session after it. -/
theorem runWithRetries_least (c : NodeContext) (n : Node) (s : Session) : ∃ k, 1 ≤ k ∧
    IsLeast ({n.attemptLimit c.env.settings} ∪ {j | 1 ≤ j ∧ ¬ (n.tries c s j).1.Transient}) k ∧
      (n.runWithRetries c).run s = ({ (n.tries c s k).1 with retries := k - 1 }, (n.tries c s k).2) := by
  obtain ⟨k, hk, hrun⟩ := retrying_tries (c := c) (n := n) (s := s) (n.retriesOf c.env.settings) 0
  rw [Nat.zero_add, retriesOf_add_one] at hk
  refine ⟨k, ?_, hk, hrun⟩
  rcases hk.1 with rfl | ⟨h, -⟩
  · rw [← retriesOf_add_one]
    exact Nat.le_add_left 1 _
  · exact h

end Node

/-! ## what is told -/

def Happening.isMessage : Happening → Bool
  | .nodeMessage .. => true
  | _ => false

/-- the announcement that a node is run again -/
def Happening.isRetry : Happening → Bool
  | .nodeRetrying .. => true
  | _ => false

theorem World.Tells.filter_isRetry {w w' : World} (h : World.Tells Happening.isMessage w w') :
    ∃ es, w'.events.toList = w.events.toList ++ es ∧ es.filter (·.happening.isRetry) = [] := by
  obtain ⟨es, hes, hmessages⟩ := h
  refine ⟨es, hes, List.filter_eq_nil_iff.mpr fun e he hretry => ?_⟩
  have hmessage := hmessages e he
  cases hh : e.happening with
  | nodeRetrying => rw [hh] at hmessage; cases hmessage
  | _ => rw [hh] at hretry; cases hretry

/-- What is made of steps tells nothing but messages. -/
theorem NodeRun.Made.tells {α : Type} {c : NodeContext} {P : α → Prop} {x : NodeRun α} (h : Made c P x) (s : Session) :
    World.Tells Happening.isMessage s.world (runFrom x s).2.world := by
  induction h generalizing s with
  | pure | throw | now | freshId | send | fromStore | useStore => exact .of_events rfl
  | message n m => exact .emit c.env c.instanceId (h := .nodeMessage n.id m) rfl s.world
  | inner f h =>
    rw [h]
    exact .of_events rfl
  | @bind _ _ _ _ x f hx _ ihx ihf =>
    have hfirst := ihx s
    have hans := (hx.apart s).2
    rw [runFrom_bind]
    rcases hr : runFrom x s with ⟨r, t⟩
    rw [hr] at hfirst hans
    cases r with
    | ok a => exact hfirst.trans (ihf a (hans a rfl) t)
    | error e => exact hfirst

namespace Node
variable {c : NodeContext} {n : Node} {s : Session}

theorem attempt_tells (hk : n.kind ≠ .subprocess) (s : Session) :
    World.Tells Happening.isMessage s.world ((n.attempt c).run s).2.world := by
  have hrun : ((n.attempt c).run s).2 = (runFrom (n.handle c)
      { s with loops := { maxDepth := c.env.settings.maxLoopDepth } }).2 :=
    congrArg Prod.snd (execute_run c n _)
  rw [hrun]
  exact (handle_made c n hk).tells _

/-- The announcements among the events of the attempts are one for each attempt before the last. -/
theorem tries_announced (hk : n.kind ≠ .subprocess) (j : Nat) : ∃ es,
    (n.tries c s (j + 1)).2.world.events.toList = s.world.events.toList ++ es ∧
      es.filter (·.happening.isRetry) = (List.range' 1 j).map fun i => n.announcement c i (n.tries c s i) := by
  induction j with
  | zero => exact (attempt_tells hk s).filter_isRetry
  | succ j ih =>
    obtain ⟨es, hes, hretries⟩ := ih
    obtain ⟨fs, hfs, hnone⟩ := (attempt_tells (c := c) hk (n.sessionBehind c s (j + 1))).filter_isRetry
    have hbehind : (n.sessionBehind c s (j + 1)).world.events.toList = s.world.events.toList ++ es ++
        [n.announcement c (j + 1) (n.tries c s (j + 1))] := by
      rw [sessionBehind_succ, ← hes]
      exact Array.toList_push
    refine ⟨es ++ [n.announcement c (j + 1) (n.tries c s (j + 1))] ++ fs, ?_, ?_⟩
    · rw [← List.append_assoc, ← List.append_assoc, ← hbehind]
      exact hfs
    · rw [List.filter_append, List.filter_append, hretries, hnone, List.append_nil, List.range'_1_concat,
        List.map_append, Nat.add_comm 1 j]
      rfl

/-- **A node is run until the limit is reached or a run is no transient failure.**  What the attempts before have left
is still there, and an observer is told of each of them once, in order, with its number and its error. -/
theorem runWithRetries_tries (c : NodeContext) (n : Node) (s : Session) : ∃ k,
    IsLeast ({n.attemptLimit c.env.settings} ∪ {j | 1 ≤ j ∧ ¬ (n.tries c s j).1.Transient}) k ∧
      (n.runWithRetries c).run s = ({ (n.tries c s k).1 with retries := k - 1 }, (n.tries c s k).2) ∧
      (∀ j, 1 ≤ j → j < k → (n.tries c s j).1.Transient) ∧
      (n.kind ≠ .subprocess → ∃ es, (n.tries c s k).2.world.events.toList = s.world.events.toList ++ es ∧
        es.filter (·.happening.isRetry) =
          (List.range' 1 (k - 1)).map fun j => n.announcement c j (n.tries c s j)) := by
  obtain ⟨k, hpos, hk, hrun⟩ := n.runWithRetries_least c s
  refine ⟨k, hk, hrun, fun j hj hjk => ?_, fun hkind => ?_⟩
  · by_contra hnot
    exact absurd (hk.2 (.inr ⟨hj, hnot⟩)) (Nat.not_le_of_lt hjk)
  · have htold := tries_announced (c := c) (s := s) hkind (k - 1)
    rw [Nat.sub_add_cancel hpos] at htold
    exact htold

/-! ### a service that recovers -/

namespace Sample

/-- a context in which requests are answered by their numbers -/
def answering (reply : Nat → Except NodeError HttpReply) : NodeContext where
  env := { settings := {}, epoch := ⟨0, 0⟩, idName := fun n => toString n, reply := fun k _ => reply k }
  instanceId := "i"
  nestingLevel := 0
  launcher := none

def get : Node := ⟨"get", .action, none, .obj [("url", .str "https://service")]⟩

def session : Session where
  vars := []
  loops := { maxDepth := 3 }
  world := {}

/-- no answer, then a failure of the service, then success -/
def recovering : NodeContext :=
  answering fun
    | 0 => .error (.timeout 30)
    | 1 => .ok ⟨503, "unavailable"⟩
    | _ => .ok ⟨200, "ok"⟩

end Sample

theorem runWithRetries_tries_thrice : Sample.get.kind ≠ .subprocess ∧
    IsLeast ({Sample.get.attemptLimit {}} ∪
      {j | 1 ≤ j ∧ ¬ (Sample.get.tries Sample.recovering Sample.session j).1.Transient}) 3 ∧
    ((Sample.get.runWithRetries Sample.recovering).run Sample.session).1.retries = 2 ∧
    ∃ es, (Sample.get.tries Sample.recovering Sample.session 3).2.world.events.toList = es ∧
      (es.filter (·.happening.isRetry)).map (·.happening) =
        [.nodeRetrying "get" 1 "Timeout after 30s", .nodeRetrying "get" 2 "HTTP 503: unavailable"] := by
  have hkind : Sample.get.kind ≠ .subprocess := by decide
  have hretries : ((Sample.get.runWithRetries Sample.recovering).run Sample.session).1.retries = 2 := by
    decide +kernel
  obtain ⟨k, hleast, hrun, -, htold⟩ := Sample.get.runWithRetries_tries Sample.recovering Sample.session
  obtain ⟨es, hes, hannounced⟩ := htold hkind
  have hk : k - 1 = 2 := by
    rw [← hretries, hrun]
  have hk' : k = 3 := by omega
  subst hk'
  refine ⟨hkind, hleast, hretries, es, hes, ?_⟩
  rw [hannounced]
  decide +kernel

end Node
end Workflows
