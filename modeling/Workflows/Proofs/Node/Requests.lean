import Mathlib.Algebra.Group.Nat.Defs
import Workflows.Proofs.Node.Retry

/-!
# Requests of actions

Every attempt of an action sends the same request, and at most one: what it sends depends on the settings and the
variables, and an action changes no variable.  A reply that is no success is a failure with the body of the reply in
its text, and this text decides whether the action is run again.

* `NodeRun.Asks`              a computation that sends at most one request, and has the outcome of its answer
* `Node.tries_sent`           the requests of some attempts
* `transientText_reply`       the text of a refused request speaks of a transient failure where its body does

Main statement: an action whose request is refused for good sends it once if the body that is kept has no keyword of a
transient failure, and again if it has one and another attempt is allowed (`refused_once_iff`).
-/

namespace Workflows

/-! ## texts of replies -/

/-- A keyword that is not found because of the words before the body of a reply. -/
structure Unprefixed (k : List Char) : Prop where
  head : k.head? ≠ some ' '
  breaks : breaks k = []
  first : ¬ k <:+: "http".toList
  colon : ':' ∉ k
  long : 3 ≤ k.length
  /-- the keywords that are as short as a status -/
  code : k.length = 3 → Nat.ofDigitChars 10 k 0 = 429 ∨ 500 ≤ Nat.ofDigitChars 10 k 0

theorem keywords_unprefixed {rule : FailureRule} {k : String} (hrule : rule ∈ failureRules) (ht : rule.transient)
    (hk : k ∈ rule.keywords) : Unprefixed k.toList := by
  have hall : ∀ rule ∈ failureRules, rule.transient → ∀ k ∈ rule.keywords,
      (k.toList.head? ≠ some ' ' ∧ breaks k.toList = [] ∧ Text.occursIn k "http" = false) ∧
      ':' ∉ k.toList ∧ 3 ≤ k.toList.length ∧ (k.toList.length = 3 →
        Nat.ofDigitChars 10 k.toList 0 = 429 ∨ 500 ≤ Nat.ofDigitChars 10 k.toList 0) := by
    decide +kernel
  obtain ⟨⟨hhead, hbreaks, hhttp⟩, hcolon, hlong, hcode⟩ := hall rule hrule ht k hk
  refine ⟨hhead, hbreaks, fun h => ?_, hcolon, hlong, hcode⟩
  rw [Text.occursIn, Text.occursInChars_iff.mpr h] at hhttp
  cases hhttp

theorem lowercase_status (status : Nat) :
    (Text.lowercase (toString status ++ ":")).toList = Nat.toDigits 10 status ++ [':'] := by
  have hdigits : toString status = String.ofList (Nat.toDigits 10 status) := rfl
  rw [Text.lowercase, String.toList_ofList, hdigits, String.toList_append, String.toList_ofList]
  refine Text.lowerChars_small (fun c hc => ?_) []
  rcases List.mem_append.mp hc with hdigit | hcolon
  · exact Text.small_of_isDigit (Nat.isDigit_of_mem_toDigits (by decide) (by decide) hdigit)
  · rw [List.mem_singleton.mp hcolon]
    decide

/-- no status between 400 and 499 but 429 has a keyword -/
theorem Unprefixed.not_in_status {k : List Char} (h : Unprefixed k) {status : Nat} (h500 : status < 500)
    (h429 : status ≠ 429) : ¬ k <:+: (Text.lowercase (toString status ++ ":")).toList := by
  have hlong := h.long
  rw [lowercase_status, List.infix_concat_iff]
  rintro (hsuffix | hdigits)
  · rcases List.suffix_concat_iff.mp hsuffix with rfl | ⟨l, rfl, -⟩
    · cases hlong
    · exact h.colon (List.mem_append_right _ List.mem_cons_self)
  · have hshort : (Nat.toDigits 10 status).length ≤ 3 :=
      (Nat.length_toDigits_le_iff (by decide) (by decide)).mpr (by omega)
    have hsame := hdigits.eq_of_length_le (by omega)
    subst hsame
    have hcode := h.code (by omega)
    rw [Nat.ofDigitChars_ten_toDigits] at hcode
    omega

/-- the error of a reply that is no success -/
def refusalText (status : Nat) (body : String) : String := "HTTP " ++ toString status ++ ": " ++ body

theorem lowercase_refusalText (status : Nat) (body : String) : (Text.lowercase (refusalText status body)).toList =
    "http".toList ++ ' ' :: ((Text.lowercase (toString status ++ ":")).toList ++ ' ' ::
      (Text.lowercase body).toList) := by
  have hwords : refusalText status body = "HTTP" ++ " " ++ ((toString status ++ ":") ++ " " ++ body) := by
    apply String.toList_injective
    simp [refusalText, String.toList_append]
  have hfirst : Text.lowercase "HTTP" = "http" := rfl
  rw [hwords, Text.lowercase_blank, Text.lowercase_blank, hfirst]
  generalize Text.lowercase (toString status ++ ":") = code
  generalize Text.lowercase body = text
  simp only [String.toList_append, List.append_assoc]
  rfl

/-- **The status of a refused request has no keyword**, so the body decides alone. -/
theorem transientText_reply {status : Nat} (h500 : status < 500) (h429 : status ≠ 429) (body : String) :
    TransientText (refusalText status body) ↔ TransientText body := by
  have hin : ∀ rule ∈ failureRules, rule.transient → ∀ k ∈ rule.keywords,
      (k.toList <:+: (Text.lowercase (refusalText status body)).toList ↔
        k.toList <:+: (Text.lowercase body).toList) := by
    intro rule hrule ht k hk
    have hkeyword := keywords_unprefixed hrule ht hk
    have hover : ∀ {cs ds : List Char}, ∀ b ∈ breaks k.toList, ¬ (b.1 <:+ cs ∧ b.2 <+: ds) := by
      rw [hkeyword.breaks]
      exact fun b hb => absurd hb List.not_mem_nil
    rw [lowercase_refusalText, infix_blank hover hkeyword.head, infix_blank hover hkeyword.head,
      or_iff_right hkeyword.first, or_iff_right (hkeyword.not_in_status h500 h429)]
  constructor
  · rintro ⟨rule, hrule, ht, k, hk, hinfix⟩
    exact ⟨rule, hrule, ht, k, hk, (hin rule hrule ht k hk).mp hinfix⟩
  · rintro ⟨rule, hrule, ht, k, hk, hinfix⟩
    exact ⟨rule, hrule, ht, k, hk, (hin rule hrule ht k hk).mpr hinfix⟩

/-! ## computations that ask -/

/-- A computation that keeps the variables, and sends at most one request; if it sends one, the answer decides about
its end. -/
def NodeRun.Asks (c : NodeContext) (ask : Vars → Option HttpRequest) (x : NodeRun Outcome) : Prop :=
  ∀ s, (runFrom x s).2.vars = s.vars ∧ match ask s.vars with
    | none => (runFrom x s).2.world.sent = s.world.sent
    | some request => (runFrom x s).2.world.sent = s.world.sent.push request ∧
        (runFrom x s).1 = (c.env.reply s.world.sent.size request).map (Node.replyOutcome c.env.settings.responseBodyLimit)

namespace Node
open NodeRun
variable {c : NodeContext} {n : Node}

theorem asks_throw (e : NodeError) : Asks c (fun _ => none) (throw e) := fun _ => ⟨rfl, rfl⟩

theorem asks_demand {α : Type} {value : Option α} {reason : String} {f : α → NodeRun Outcome}
    (h : ∀ a, ∃ ask, Asks c ask (f a)) : ∃ ask, Asks c ask (demand value reason >>= f) := by
  cases value with
  | some a => exact h a
  | none => exact ⟨_, asks_throw _⟩

theorem asks_settings {α : Type} {decode : Decoder α} {f : α → NodeRun Outcome}
    (h : ∀ a, ∃ ask, Asks c ask (f a)) : ∃ ask, Asks c ask (n.settings decode >>= f) := by
  unfold settings
  split
  · next a _ => exact h a
  · exact ⟨_, asks_throw _⟩

/-- what is sent may depend on the variables -/
theorem asks_vars {f : Vars → NodeRun Outcome} (h : ∀ vs, ∃ ask, Asks c ask (f vs)) :
    ∃ ask, Asks c ask (vars >>= f) := by
  choose ask hask using h
  exact ⟨fun vs => ask vs vs, fun s => hask s.vars s⟩

theorem asks_send (request : HttpRequest) (m : String) : Asks c (fun _ => some request) (do
      c.info n m
      match ← onWorld (c.env.send request) with
      | .ok reply => return replyOutcome c.env.settings.responseBodyLimit reply
      | .error e => throw e) := by
  intro s
  have hinfo : runFrom (c.info n m) s = (.ok (), (runFrom (c.info n m) s).2) := rfl
  have hsend : runFrom (onWorld (c.env.send request)) ((runFrom (c.info n m) s).2) =
      (.ok (c.env.reply s.world.sent.size request), { (runFrom (c.info n m) s).2 with
        world := { (runFrom (c.info n m) s).2.world with sent := s.world.sent.push request } }) := rfl
  rw [runFrom_bind_ok hinfo, runFrom_bind_ok hsend]
  dsimp only
  cases c.env.reply s.world.sent.size request with
  | ok reply => exact ⟨rfl, rfl, rfl⟩
  | error e => exact ⟨rfl, rfl, rfl⟩

theorem call_asks (a : ActionSettings) (method : String) (body : Option Json) :
    ∃ ask, Asks c ask (call c n a method body) :=
  asks_demand fun _ => asks_vars fun _ => ⟨_, asks_send _ _⟩

theorem action_asks : ∃ ask, Asks c ask (n.action c) := by
  refine asks_settings fun a => asks_vars fun vs => ?_
  split
  · exact call_asks a _ _
  · exact call_asks a _ _
  · exact asks_demand fun script => ⟨fun _ => none, fun s => ⟨rfl, rfl⟩⟩
  · exact ⟨_, asks_throw _⟩

/-! ## attempts -/

/-- An attempt of an action, from a session. -/
theorem attempt_asks (hk : n.kind = .action) : ∃ ask : Vars → Option HttpRequest, ∀ s,
    ((n.attempt c).run s).2.vars = s.vars ∧ match ask s.vars with
      | none => ((n.attempt c).run s).2.world.sent = s.world.sent
      | some request => ((n.attempt c).run s).2.world.sent = s.world.sent.push request ∧
          ((n.attempt c).run s).1 = outcomeOf ((c.env.reply s.world.sent.size request).map
            (replyOutcome c.env.settings.responseBodyLimit)) := by
  obtain ⟨ask, hask⟩ := action_asks (c := c) (n := n)
  have hh : n.handle c = n.action c := by rw [handle, hk]
  refine ⟨ask, fun s => ?_⟩
  have hrun : (n.attempt c).run s = _ := execute_run c n { s with loops := { maxDepth := c.env.settings.maxLoopDepth } }
  rw [hrun, hh]
  obtain ⟨hvars, hsent⟩ := hask { s with loops := { maxDepth := c.env.settings.maxLoopDepth } }
  refine ⟨hvars, ?_⟩
  dsimp only at hsent ⊢
  cases hask : ask s.vars with
  | none =>
    rw [hask] at hsent
    exact hsent
  | some request =>
    rw [hask] at hsent
    exact ⟨hsent.1, congrArg outcomeOf hsent.2⟩

variable {s : Session} {request : HttpRequest}

/-- An action that sends a request sends it again under the same variables, and has the outcome of the answer. -/
theorem attempt_of_sent (hk : n.kind = .action)
    (hsent : ((n.attempt c).run s).2.world.sent = s.world.sent.push request) {t : Session} (ht : t.vars = s.vars) :
    ((n.attempt c).run t).2.vars = s.vars ∧ ((n.attempt c).run t).2.world.sent = t.world.sent.push request ∧
      ((n.attempt c).run t).1 = outcomeOf ((c.env.reply t.world.sent.size request).map
        (replyOutcome c.env.settings.responseBodyLimit)) := by
  obtain ⟨ask, hask⟩ := attempt_asks (c := c) hk
  have hrequest : ask s.vars = some request := by
    obtain ⟨-, hs⟩ := hask s
    cases ha : ask s.vars with
    | none =>
      rw [ha] at hs
      have hsize := congrArg Array.size (hs.symm.trans hsent)
      rw [Array.size_push] at hsize
      omega
    | some request' =>
      rw [ha] at hs
      rw [(Array.push_eq_push.mp (hs.1.symm.trans hsent)).1]
  obtain ⟨hvars, hs⟩ := hask t
  rw [ht, hrequest] at hs
  exact ⟨hvars.trans ht, hs⟩

theorem sessionBehind_vars (hk : n.kind = .action)
    (hsent : ((n.attempt c).run s).2.world.sent = s.world.sent.push request) (j : Nat) :
    (n.sessionBehind c s j).vars = s.vars := by
  induction j with
  | zero => rfl
  | succ j ih => exact (attempt_of_sent hk hsent ih).1

/-- An action that sends a request in its first attempt sends it in every attempt, once. -/
theorem tries_sent (hk : n.kind = .action)
    (hsent : ((n.attempt c).run s).2.world.sent = s.world.sent.push request) (j : Nat) :
    (n.tries c s (j + 1)).2.world.sent.toList = s.world.sent.toList ++ List.replicate (j + 1) request := by
  have hpush : ∀ j, (n.tries c s (j + 1)).2.world.sent = (n.sessionBehind c s j).world.sent.push request :=
    fun j => (attempt_of_sent hk hsent (sessionBehind_vars hk hsent j)).2.1
  induction j with
  | zero =>
    rw [hpush, Array.toList_push]
    rfl
  | succ j ih =>
    have hbehind : (n.sessionBehind c s (j + 1)).world.sent = (n.tries c s (j + 1)).2.world.sent := rfl
    rw [hpush, Array.toList_push, hbehind, ih, List.append_assoc, List.replicate_succ' (n := j + 1)]

/-- the outcome of the first attempt, where its request is answered -/
theorem tries_one (hk : n.kind = .action) (hsent : ((n.attempt c).run s).2.world.sent = s.world.sent.push request)
    {r : HttpReply} (hreply : c.env.reply s.world.sent.size request = .ok r) :
    (n.tries c s 1).1 = replyOutcome c.env.settings.responseBodyLimit r := by
  obtain ⟨-, -, hanswer⟩ := attempt_of_sent hk hsent (t := s) rfl
  rw [hreply] at hanswer
  exact hanswer

theorem attemptLimit_of_action (hk : n.kind = .action) (settings : Settings) :
    n.attemptLimit settings = max 1 settings.maxAttempts := by
  rw [attemptLimit, hk]
  rfl

/-- a reply that refuses a request -/
theorem replyOutcome_of_refused (limit : Nat) {r : HttpReply} (h : 400 ≤ r.status) :
    (replyOutcome limit r).status = .failed ∧
      (replyOutcome limit r).error = some (refusalText r.status (shortened r.body limit)) := by
  have hfails : r.isSuccess = false := by
    rw [HttpReply.isSuccess, Bool.and_eq_false_iff]
    exact .inr (decide_eq_false (by omega))
  simp only [replyOutcome, hfails, Bool.false_eq_true, if_false]
  exact ⟨rfl, rfl⟩

/-- Whether a refusal passes for a failure that may pass is up to the part of its body that is kept. -/
theorem tries_one_refused {r : HttpReply} (hk : n.kind = .action)
    (hsent : ((n.attempt c).run s).2.world.sent = s.world.sent.push request)
    (hreply : c.env.reply s.world.sent.size request = .ok r) (h400 : 400 ≤ r.status) (h500 : r.status < 500)
    (h429 : r.status ≠ 429) : (n.tries c s 1).1.status = .failed ∧
      ((n.tries c s 1).1.Transient ↔ TransientText (shortened r.body c.env.settings.responseBodyLimit)) := by
  obtain ⟨hstatus, herror⟩ := replyOutcome_of_refused c.env.settings.responseBodyLimit h400
  rw [← tries_one hk hsent hreply] at hstatus herror
  refine ⟨hstatus, ?_⟩
  rw [← transientText_reply h500 h429]
  constructor
  · rintro ⟨-, text, ht, htransient⟩
    rw [herror] at ht
    cases ht
    exact htransient
  · exact fun h => ⟨hstatus, _, herror, h⟩

/-- **A request that is refused for good is sent once**, unless the part of the body that is kept has a keyword of a
transient failure and another attempt is allowed. -/
theorem refused_once_iff (c : NodeContext) (n : Node) (s : Session) (request : HttpRequest) (r : HttpReply)
    (hk : n.kind = .action) (hsent : ((n.attempt c).run s).2.world.sent = s.world.sent.push request)
    (hreply : c.env.reply s.world.sent.size request = .ok r) (h400 : 400 ≤ r.status) (h500 : r.status < 500)
    (h429 : r.status ≠ 429) : ∃ o t, (n.runWithRetries c).run s = (o, t) ∧
      t.world.sent.toList = s.world.sent.toList ++ List.replicate (o.retries + 1) request ∧
      ((t.world.sent = s.world.sent.push request ∧ o.status = .failed ∧ o.retries = 0) ↔
        ¬ TransientText (shortened r.body c.env.settings.responseBodyLimit) ∨ c.env.settings.maxAttempts ≤ 1) := by
  obtain ⟨k, hpos, hleast, hrun⟩ := n.runWithRetries_least c s
  obtain ⟨hstatus, hfirst⟩ := tries_one_refused hk hsent hreply h400 h500 h429
  obtain ⟨j, rfl⟩ := Nat.exists_eq_add_of_le' hpos
  refine ⟨_, _, hrun, tries_sent hk hsent j, ?_⟩
  rw [← hfirst]
  constructor
  · rintro ⟨-, -, hretries⟩
    have hj : j = 0 := hretries
    subst hj
    rcases hleast.1 with hlimit | ⟨-, hnot⟩
    · rw [Set.mem_singleton_iff, attemptLimit_of_action hk] at hlimit
      omega
    · exact .inl hnot
  · intro h
    have hle : j + 1 ≤ 1 := by
      rcases h with h | h
      · exact hleast.2 (.inr ⟨Nat.le_refl 1, h⟩)
      · refine hleast.2 (.inl ?_)
        rw [Set.mem_singleton_iff, attemptLimit_of_action hk]
        omega
    have hj : j = 0 := by omega
    subst hj
    exact ⟨hsent, hstatus, rfl⟩

/-! ### two refusals -/

namespace Sample

def getRequest : HttpRequest := ⟨"GET", "https://service", [], none, none, 30⟩

/-- a context in which every request is refused with the same body -/
def refusing (body : String) : NodeContext := answering fun _ => .ok ⟨404, body⟩

end Sample

theorem refused_once_iff_missing : Sample.get.kind = .action ∧
    ((Sample.get.attempt (Sample.refusing "missing")).run Sample.session).2.world.sent =
      Sample.session.world.sent.push Sample.getRequest ∧
    ∃ o t, (Sample.get.runWithRetries (Sample.refusing "missing")).run Sample.session = (o, t) ∧
      t.world.sent = #[Sample.getRequest] ∧ o.status = .failed ∧ o.retries = 0 := by
  have hsent : ((Sample.get.attempt (Sample.refusing "missing")).run Sample.session).2.world.sent =
      Sample.session.world.sent.push Sample.getRequest := by
    decide +kernel
  have hpermanent : ¬ TransientText (shortened "missing" 1000) := by
    rw [← isTransient_iff]
    decide +kernel
  obtain ⟨o, t, hrun, -, honce⟩ := refused_once_iff (Sample.refusing "missing") Sample.get Sample.session
    Sample.getRequest ⟨404, "missing"⟩ rfl hsent rfl (by decide) (by decide) (by decide)
  obtain ⟨hpushed, hstatus, hretries⟩ := honce.mpr (.inl hpermanent)
  exact ⟨rfl, hsent, o, t, hrun, hpushed, hstatus, hretries⟩

/-- A server that says `404` and explains it with the word for a transient failure is asked three times. -/
theorem refused_thrice : (Sample.refusing "timeout").env.reply 0 Sample.getRequest = .ok ⟨404, "timeout"⟩ ∧
    ((Sample.get.attempt (Sample.refusing "timeout")).run Sample.session).2.world.sent = #[Sample.getRequest] ∧
    ((Sample.get.runWithRetries (Sample.refusing "timeout")).run Sample.session).2.world.sent =
      #[Sample.getRequest, Sample.getRequest, Sample.getRequest] ∧
    ((Sample.get.runWithRetries (Sample.refusing "timeout")).run Sample.session).1.status = .failed ∧
    ((Sample.get.runWithRetries (Sample.refusing "timeout")).run Sample.session).1.retries = 2 :=
  ⟨rfl, by decide +kernel, by decide +kernel, by decide +kernel, by decide +kernel⟩

end Node
end Workflows
