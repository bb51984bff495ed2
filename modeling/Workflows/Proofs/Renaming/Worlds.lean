import Workflows.Proofs.Engine.Safeguard
import Workflows.Proofs.Failure
import Workflows.Proofs.Json.Records
import Workflows.Proofs.Renaming.Looks

/-!
# Worlds under other names

Two worlds whose records correspond: a record under an id of the one world stands under the other name of the id in the
other world.  What no run reads may differ: events, locks, and the texts that are left for people.

* `Renaming.Messages`             an error and its other form: it may quote ids of children that have failed
* `Renaming.Instances`, `Links`   records and their other form
* `Renaming.Stores`, `Worlds`     stores and worlds with corresponding records
* `Answers`, `Beside`             two runs from corresponding states
-/

namespace Workflows

/-! ## Dictionaries in key order -/

namespace Dict
variable {α : Type} {d : Dict α} {key : String} {v : α}

/-- a key that is not in a dictionary makes it longer -/
theorem length_insert (h : Ordered d) (key : String) (v : α) :
    (insert d key v).length = if (get? d key).isSome then d.length else d.length + 1 := by
  induction d with
  | nil => rfl
  | cons e d ih =>
    obtain ⟨hhead, hrest⟩ := List.pairwise_cons.mp h
    by_cases heq : key = e.1
    · rw [insert, get?, if_pos heq, if_pos heq]
      rfl
    · rw [insert, get?, if_neg heq, if_neg heq]
      split
      · next hlt =>
        have hnone : get? d key = none := by
          refine Option.eq_none_iff_forall_ne_some.mpr fun w hw => ?_
          have hbehind := hhead _ (mem_of_get? hw)
          exact String.lt_irrefl key (String.lt_trans hlt hbehind)
        rw [hnone]
        rfl
      · rw [List.length_cons, ih hrest]
        split
        · rfl
        · rfl

end Dict

/-! ## Two runs -/

/-- two answers correspond: both are values, or both are errors -/
inductive Answers {ε α α' : Type} (E : ε → ε → Prop) (Q : α → α' → Prop) : Except ε α → Except ε α' → Prop
  | ok {a : α} {a' : α'} (h : Q a a') : Answers E Q (.ok a) (.ok a')
  | error {e e' : ε} (h : E e e') : Answers E Q (.error e) (.error e')

/-- Two runs end alike: their answers correspond, and so do the states after them. -/
structure Beside {ε σ α α' : Type} (E : ε → ε → Prop) (R : σ → σ → Prop) (Q : α → α' → Prop) (p : Except ε α × σ)
    (p' : Except ε α' × σ) : Prop where
  answers : Answers E Q p.1 p'.1
  states : R p.2 p'.2

namespace Beside
variable {ε σ α α' β β' : Type} {E : ε → ε → Prop} {R : σ → σ → Prop} {P : α → α' → Prop} {Q : β → β' → Prop}
  {x : ExceptT ε (StateM σ) α} {x' : ExceptT ε (StateM σ) α'} {f : α → ExceptT ε (StateM σ) β}
  {f' : α' → ExceptT ε (StateM σ) β'} {s s' : σ}

theorem pure {a : α} {a' : α'} (hs : R s s') (h : P a a') :
    Beside E R P (runFrom (pure a : ExceptT ε (StateM σ) α) s) (runFrom (pure a' : ExceptT ε (StateM σ) α') s') :=
  ⟨.ok h, hs⟩

theorem throw {e e' : ε} (hs : R s s') (h : E e e') :
    Beside E R P (runFrom (throw e : ExceptT ε (StateM σ) α) s) (runFrom (throw e' : ExceptT ε (StateM σ) α') s') :=
  ⟨.error h, hs⟩

/-- what comes behind a step begins from states that correspond; the left one is the state that the step has led to -/
theorem bind (hx : Beside E R P (runFrom x s) (runFrom x' s'))
    (hf : ∀ a a' t t', runFrom x s = (.ok a, t) → P a a' → R t t' →
      Beside E R Q (runFrom (f a) t) (runFrom (f' a') t')) :
    Beside E R Q (runFrom (x >>= f) s) (runFrom (x' >>= f') s') := by
  obtain ⟨hanswers, hstates⟩ := hx
  rw [runFrom_bind, runFrom_bind]
  rcases hr : runFrom x s with ⟨r, t⟩
  rcases hr' : runFrom x' s' with ⟨r', t'⟩
  rw [hr, hr'] at hanswers hstates
  cases hanswers with
  | ok ha => exact hf _ _ t t' hr ha hstates
  | error he => exact ⟨.error he, hstates⟩

theorem next (hx : Beside E R P (runFrom x s) (runFrom x' s'))
    (hf : ∀ a a' t t', P a a' → R t t' → Beside E R Q (runFrom (f a) t) (runFrom (f' a') t')) :
    Beside E R Q (runFrom (x >>= f) s) (runFrom (x' >>= f') s') := hx.bind fun a a' t t' _ => hf a a' t t'

end Beside

/-! ## Records -/

namespace Renaming
variable (ρ : Renaming)

/-- an error and its other form: it quotes the id of a child that has failed, and the error of the child -/
inductive Messages : String → String → Prop
  | same (e : String) : Messages e e
  | child {id id' e e' : String} (hid : ρ.Id id id') (h : Messages e e') : Messages (quoted id e) (quoted id' e')

/-- no generated id holds a keyword of the table of failures -/
structure Harmless : Prop where
  names : ∀ n, classify? (ρ.names n) = none
  others : ∀ n, classify? (ρ.others n) = none

structure Waits (w w' : Wait) : Prop where
  kind : w'.kind = w.kind
  id : ρ.Id w.id w'.id
  deadline : w'.deadline = w.deadline

structure Outcomes (o o' : Outcome) : Prop where
  status : o'.status = o.status
  output : Option.Rel ρ.Value o.output o'.output
  route : o'.route = o.route
  wait : Option.Rel ρ.Waits o.wait o'.wait
  error : o'.error = o.error
  retries : o'.retries = o.retries

structure Entries (e e' : LogEntry) : Prop where
  nodeId : e'.nodeId = e.nodeId
  nodeType : e'.nodeType = e.nodeType
  status : e'.status = e.status
  startedAt : e'.startedAt = e.startedAt
  completedAt : e'.completedAt = e.completedAt
  error : e'.error = e.error
  output : Option.Rel ρ.Value e.output e'.output
  retries : e'.retries = e.retries

structure Children (c c' : ChildEntry) : Prop where
  instanceId : ρ.Id c.instanceId c'.instanceId
  workflowId : c'.workflowId = c.workflowId
  nodeId : c'.nodeId = c.nodeId
  status : c'.status = c.status
  completedAt : c'.completedAt = c.completedAt

structure Instances (i i' : Instance) : Prop where
  id : ρ.Id i.id i'.id
  workflowId : i'.workflowId = i.workflowId
  workflowVersion : i'.workflowVersion = i.workflowVersion
  status : i'.status = i.status
  currentNodeId : i'.currentNodeId = i.currentNodeId
  vars : ρ.Binds i.vars i'.vars
  log : List.Forall₂ ρ.Entries i.log i'.log
  nodeStatuses : i'.nodeStatuses = i.nodeStatuses
  waitingFor : Option.Rel ρ.Waits i.waitingFor i'.waitingFor
  error : Option.Rel ρ.Messages i.error i'.error
  friendlyError : i'.friendlyError = i.friendlyError
  parentId : Option.Rel ρ.Id i.parentId i'.parentId
  nestingLevel : i'.nestingLevel = i.nestingLevel
  children : List.Forall₂ ρ.Children i.children i'.children
  startedAt : i'.startedAt = i.startedAt
  updatedAt : i'.updatedAt = i.updatedAt
  completedAt : i'.completedAt = i.completedAt
  version : i'.version = i.version

structure Links (l l' : ChildLink) : Prop where
  parentId : ρ.Id l.parentId l'.parentId
  parentNodeId : l'.parentNodeId = l.parentNodeId
  childId : ρ.Id l.childId l'.childId
  outputMapping : l'.outputMapping = l.outputMapping
  isolated : l'.isolated = l.isolated
  nestingLevel : l'.nestingLevel = l.nestingLevel
  createdAt : l'.createdAt = l.createdAt

structure Requests (r r' : StartRequest) : Prop where
  workflowId : r'.workflowId = r.workflowId
  inputs : ρ.Binds r.inputs r'.inputs
  parentId : Option.Rel ρ.Id r.parentId r'.parentId
  nestingLevel : r'.nestingLevel = r.nestingLevel
  workflowVersion : r'.workflowVersion = r.workflowVersion

/-! ## Stores and worlds -/

structure Stores (s s' : Store) : Prop where
  workflows : s'.workflows = s.workflows
  versions : s'.versions = s.versions
  roles : s'.roles = s.roles
  workloads : s'.workloads = s.workloads
  failing : s'.failing = s.failing
  calls : s'.calls = s.calls
  /-- members of a role take turns by the number of tasks -/
  tasks : s'.tasks.length = s.tasks.length
  collections : Dict.Related (List.Forall₂ ρ.Value) s.collections s'.collections
  instances : ∀ {id id'}, ρ.Id id id' → Option.Rel ρ.Instances (s.getInstance? id) (s'.getInstance? id')
  links : ∀ {id id'}, ρ.Id id id' → Option.Rel ρ.Links (s.getLink? id) (s'.getLink? id')
  count : s'.instances.length = s.instances.length
  ordered : s.instances.Ordered
  ordered' : s'.instances.Ordered
  /-- every stored id has another name, and is the other name of an id -/
  known : ∀ {id i}, s.getInstance? id = some i → ∃ id', ρ.Id id id'
  known' : ∀ {id' i'}, s'.getInstance? id' = some i' → ∃ id, ρ.Id id id'

structure Worlds (w w' : World) : Prop where
  store : ρ.Stores w.store w'.store
  ids : w'.ids = w.ids
  ticks : w'.ticks = w.ticks
  sent : w'.sent.size = w.sent.size
  fresh : Fresh ρ.names w

/-- an environment in which the ids have their other names; services answer corresponding requests alike -/
structure Environments (env env' : Env) : Prop where
  settings : env'.settings = env.settings
  epoch : env'.epoch = env.epoch
  names : env.idName = ρ.names
  others : env'.idName = ρ.others
  reply : ∀ (n : Nat) (q : HttpRequest) (body : Option Json), Option.Rel ρ.Value q.body body →
    env'.reply n { q with body := body } = env.reply n q

variable {ρ}

/-! ### errors -/

theorem matchesText_eq_false {text : String} {rule : FailureRule} (h : classify? text = none)
    (hrule : rule ∈ failureRules) :
    rule.matchesText (Text.lowercase text) = false :=
  Bool.eq_false_iff.mpr (List.find?_eq_none.mp h rule hrule)

theorem Messages.matchesText {e e' : String} (h : ρ.Messages e e') (hharmless : ρ.Harmless) :
    ∀ rule ∈ failureRules, rule.matchesText (Text.lowercase e') = rule.matchesText (Text.lowercase e) := by
  induction h with
  | same => exact fun _ _ => rfl
  | child hid _ ih =>
    refine matchesText_quoted_congr ?_ ih
    intro rule hrule
    cases hid with
    | foreign => rfl
    | generated n =>
      rw [matchesText_eq_false (hharmless.names n) hrule, matchesText_eq_false (hharmless.others n) hrule]

/-- Errors that differ in ids without keywords have one explanation. -/
theorem Messages.friendlyMessage {e e' : String} (h : ρ.Messages e e') (hharmless : ρ.Harmless) :
    friendlyMessage e' = friendlyMessage e := by
  have hclass : classify? e' = classify? e := List.find?_congr (h.matchesText hharmless)
  unfold Workflows.friendlyMessage
  rw [hclass]

/-! ### reading a store -/

namespace Stores
variable {s s' : Store} {i i' : Instance} {l l' : ChildLink}

theorem getWorkflow? (h : ρ.Stores s s') (id : String) : s'.getWorkflow? id = s.getWorkflow? id := by
  unfold Store.getWorkflow?
  rw [h.workflows]

theorem listVersions (h : ρ.Stores s s') (id : String) : s'.listVersions id = s.listVersions id := by
  unfold Store.listVersions
  rw [h.versions]

theorem resolvePinned? (h : ρ.Stores s s') (id token : String) :
    s'.resolvePinned? id token = s.resolvePinned? id token := by
  unfold Store.resolvePinned?
  simp only [h.getWorkflow?, h.listVersions]

theorem validate (h : ρ.Stores s s') (id token : String) : s'.validate id token = s.validate id token := by
  unfold Store.validate Store.resolve?
  rw [h.resolvePinned?]

/-! ### writing instances and links -/

theorem insertInstance (h : ρ.Stores s s') (hi : ρ.Instances i i') :
    ρ.Stores (s.insertInstance i) (s'.insertInstance i') := by
  have hsome : (s'.getInstance? i'.id).isSome = (s.getInstance? i.id).isSome := by
    rcases rel_cases (h.instances hi.id) with ⟨hs, hs'⟩ | ⟨j, j', hs, hs', -⟩
    · rw [hs, hs']
    · rw [hs, hs']
      rfl
  refine { h with
    instances := fun {id id'} hid => ?_
    count := ?_
    ordered := Dict.insert_ordered h.ordered _ _
    ordered' := Dict.insert_ordered h.ordered' _ _
    known := fun {id j} hj => ?_
    known' := fun {id' j'} hj' => ?_ }
  · by_cases heq : id = i.id
    · have heq' : id' = i'.id := (hid.inj hi.id).mp heq
      rw [heq, heq', Store.getInstance?_insertInstance_self, Store.getInstance?_insertInstance_self]
      exact .some hi
    · have heq' : id' ≠ i'.id := fun he => heq ((hid.inj hi.id).mpr he)
      rw [Store.getInstance?_insertInstance_of_ne _ _ heq, Store.getInstance?_insertInstance_of_ne _ _ heq']
      exact h.instances hid
  · show (Dict.insert s'.instances i'.id i').length = (Dict.insert s.instances i.id i).length
    rw [Dict.length_insert h.ordered', Dict.length_insert h.ordered, h.count]
    show (if (s'.getInstance? i'.id).isSome then _ else _) = if (s.getInstance? i.id).isSome then _ else _
    rw [hsome]
  · by_cases heq : id = i.id
    · exact ⟨i'.id, heq ▸ hi.id⟩
    · rw [Store.getInstance?_insertInstance_of_ne _ _ heq] at hj
      exact h.known hj
  · by_cases heq : id' = i'.id
    · exact ⟨i.id, heq ▸ hi.id⟩
    · rw [Store.getInstance?_insertInstance_of_ne _ _ heq] at hj'
      exact h.known' hj'

/-- a write is refused in both stores, or accepted in both -/
theorem updateInstance (h : ρ.Stores s s') (hi : ρ.Instances i i') :
    Answers (fun _ _ => True) (fun p p' => ρ.Stores p.1 p'.1 ∧ ρ.Instances p.2 p'.2) (s.updateInstance i)
      (s'.updateInstance i') := by
  unfold Store.updateInstance
  rcases rel_cases (h.instances hi.id) with ⟨hs, hs'⟩ | ⟨j, j', hs, hs', hj⟩
  · rw [hs, hs']
    exact .error trivial
  · rw [hs, hs']
    simp only [hi.version, hj.version]
    split
    · have hnext : ρ.Instances { i with version := i.version + 1 } { i' with version := i.version + 1 } :=
        { hi with version := rfl }
      exact .ok ⟨h.insertInstance hnext, hnext⟩
    · exact .error trivial

theorem insertLink (h : ρ.Stores s s') (hl : ρ.Links l l') : ρ.Stores (s.insertLink l) (s'.insertLink l') := by
  refine { h with links := fun {id id'} hid => ?_ }
  by_cases heq : id = l.childId
  · have heq' : id' = l'.childId := (hid.inj hl.childId).mp heq
    rw [heq, heq', Store.getLink?_insertLink_self, Store.getLink?_insertLink_self]
    exact .some hl
  · have heq' : id' ≠ l'.childId := fun he => heq ((hid.inj hl.childId).mpr he)
    rw [Store.getLink?_insertLink_of_ne _ _ heq, Store.getLink?_insertLink_of_ne _ _ heq']
    exact h.links hid

/-! ### records of collections -/

variable {collection : String} {criteria fields : Vars}

theorem records (h : ρ.Stores s s') (collection : String) :
    List.Forall₂ ρ.Value (s.records collection) (s'.records collection) := by
  unfold Store.records
  rcases rel_cases (h.collections.get? collection) with ⟨hs, hs'⟩ | ⟨rs, rs', hs, hs', hrecords⟩
  · rw [hs, hs']
    exact .nil
  · rw [hs, hs']
    exact hrecords

theorem setRecords {rs rs' : List Json} (h : ρ.Stores s s') (collection : String) (hrs : List.Forall₂ ρ.Value rs rs') :
    ρ.Stores (s.setRecords collection rs) (s'.setRecords collection rs') :=
  { h with collections := h.collections.insert collection hrs }

theorem touch (h : ρ.Stores s s') (collection : String) : ρ.Stores (s.touch collection) (s'.touch collection) := by
  refine { h with calls := ?_ }
  show Dict.insert s'.calls collection (s'.callsOf collection + 1) =
    Dict.insert s.calls collection (s.callsOf collection + 1)
  unfold Store.callsOf
  rw [h.calls]

theorem access {α α' : Type} {Q : α → α' → Prop} {f : Store → Except StorageError α × Store}
    {f' : Store → Except StorageError α' × Store} (h : ρ.Stores s s')
    (hf : ∀ t t', ρ.Stores t t' → Beside Eq ρ.Stores Q (f t) (f' t')) :
    Beside Eq ρ.Stores Q (s.access collection f) (s'.access collection f') := by
  unfold Store.access
  rw [h.failing]
  split
  · exact ⟨.error rfl, h.touch collection⟩
  · exact hf _ _ (h.touch collection)

theorem filter_satisfies {rs rs' : List Json} (hrs : List.Forall₂ ρ.Value rs rs') (hfree : ∀ c ∈ criteria, ρ.Free c.2) :
    List.Forall₂ ρ.Value (rs.filter (·.satisfies criteria)) (rs'.filter (·.satisfies criteria)) :=
  rel_filter hrs fun _ _ hr => hr.satisfies hfree

theorem find (h : ρ.Stores s s') (collection : String) (hfree : ∀ c ∈ criteria, ρ.Free c.2) :
    Beside Eq ρ.Stores (List.Forall₂ ρ.Value) (s.find collection criteria) (s'.find collection criteria) :=
  h.access fun _ _ ht => ⟨.ok (filter_satisfies (ht.records collection) hfree), ht⟩

/-- a record keeps its own id, or is given one that was generated -/
theorem insert {id id' : String} (h : ρ.Stores s s') (collection : String) (members : Vars) (hid : ρ.Id id id') :
    Beside Eq ρ.Stores (fun t t' => ρ.Value (.str t) (.str t')) (s.insert collection (.obj members) id)
      (s'.insert collection (.obj members) id') := by
  refine h.access fun t t' ht => ?_
  have hown : ρ.Value (.str ((Store.ownId? members).getD id)) (.str ((Store.ownId? members).getD id')) := by
    cases Store.ownId? members with
    | none => exact Value.ofId hid
    | some own => exact Value.refl _
  have hrecord : ρ.Value (.obj (Dict.insert members "id" (.str ((Store.ownId? members).getD id))))
      (.obj (Dict.insert members "id" (.str ((Store.ownId? members).getD id')))) :=
    .obj (Dict.Related.insert (Binds.refl members) "id" hown)
  exact ⟨.ok hown, ht.setRecords collection (List.rel_append (ht.records collection) (.cons hrecord .nil))⟩

theorem isRecord {r r' : Json} (h : ρ.Value r r') : Store.isRecord r' = Store.isRecord r := by
  rcases h.inv with rfl | ⟨n, rfl, rfl⟩ | ⟨items, others, rfl, rfl, -⟩ | ⟨vs, ws, rfl, rfl, -⟩
  · rfl
  · rfl
  · rfl
  · rfl

theorem overlay {r r' : Json} (h : ρ.Value r r') (fields : Vars) :
    ρ.Value (Store.overlay fields r) (Store.overlay fields r') := by
  rcases h.inv with rfl | ⟨n, rfl, rfl⟩ | ⟨items, others, rfl, rfl, hitems⟩ | ⟨vs, ws, rfl, rfl, hmembers⟩
  · exact Value.refl _
  · exact Value.generated n
  · exact .arr hitems
  · exact .obj (Dict.Related.overlay hmembers (Binds.refl fields))

theorem update (h : ρ.Stores s s') (collection : String) (fields : Vars) (hfree : ∀ c ∈ criteria, ρ.Free c.2) :
    Beside Eq ρ.Stores Eq (s.update collection criteria fields) (s'.update collection criteria fields) := by
  refine h.access fun t t' ht => ?_
  have hchosen : ∀ r r', ρ.Value r r' →
      (r'.satisfies criteria && Store.isRecord r') = (r.satisfies criteria && Store.isRecord r) := fun r r' hr => by
    rw [hr.satisfies hfree, isRecord hr]
  rcases rel_cases (ht.collections.get? collection) with ⟨hs, hs'⟩ | ⟨rs, rs', hs, hs', hrs⟩
  · rw [hs, hs']
    exact ⟨.ok rfl, ht⟩
  · rw [hs, hs']
    refine ⟨.ok ?_, ht.setRecords collection (List.rel_map (fun r r' hr => ?_) hrs)⟩
    · exact (rel_filter hrs hchosen).length_eq
    · simp only [hchosen r r' hr]
      split
      · exact overlay hr fields
      · exact hr

theorem delete (h : ρ.Stores s s') (collection : String) (hfree : ∀ c ∈ criteria, ρ.Free c.2) :
    Beside Eq ρ.Stores Eq (s.delete collection criteria) (s'.delete collection criteria) := by
  refine h.access fun t t' ht => ?_
  rcases rel_cases (ht.collections.get? collection) with ⟨hs, hs'⟩ | ⟨rs, rs', hs, hs', hrs⟩
  · rw [hs, hs']
    exact ⟨.ok rfl, ht⟩
  · rw [hs, hs']
    refine ⟨.ok (filter_satisfies hrs hfree).length_eq, ht.setRecords collection (rel_filter hrs fun r r' hr => ?_)⟩
    rw [hr.satisfies hfree]

/-! ### people -/

theorem insertTask {k k' : Task} (h : ρ.Stores s s') : ρ.Stores (s.insertTask k) (s'.insertTask k') := by
  refine { h with tasks := ?_ }
  show (s'.tasks ++ [k']).length = (s.tasks ++ [k]).length
  rw [List.length_append, List.length_append, h.tasks]
  rfl

theorem workload (h : ρ.Stores s s') (user : String) : s'.workload user = s.workload user := by
  unfold Store.workload
  rw [h.workloads]

theorem addWorkload (h : ρ.Stores s s') (user : String) : ρ.Stores (s.addWorkload user) (s'.addWorkload user) := by
  refine { h with workloads := ?_ }
  show Dict.insert s'.workloads user (s'.workload user + 1) = Dict.insert s.workloads user (s.workload user + 1)
  rw [h.workloads, h.workload]

theorem leastLoaded? (h : ρ.Stores s s') (members : List String) :
    Node.leastLoaded? s' members = Node.leastLoaded? s members := by
  induction members with
  | nil => rfl
  | cons m members ih =>
    unfold Node.leastLoaded?
    simp only [ih, h.workload]

theorem roleMembers (h : ρ.Stores s s') (role : String) : s'.roleMembers role = s.roleMembers role := by
  unfold Store.roleMembers
  rw [h.roles]

/-- members of a role take turns, and have work, alike -/
theorem chosenAssignee (h : ρ.Stores s s') (t : Node.TaskSettings) :
    Node.chosenAssignee s' t = Node.chosenAssignee s t := by
  have hmembers : s'.roleMembers = s.roleMembers := funext h.roleMembers
  unfold Node.chosenAssignee
  simp only [hmembers, h.leastLoaded?, h.tasks]

theorem countsAsWork (h : ρ.Stores s s') (t : Node.TaskSettings) : Node.countsAsWork s' t = Node.countsAsWork s t := by
  have hmembers : s'.roleMembers = s.roleMembers := funext h.roleMembers
  unfold Node.countsAsWork
  rw [hmembers]

end Stores

/-! ## steps of a world -/

namespace Worlds
variable {w w' : World} {env env' : Env}

/-- a change of a store that leaves instances alone, in both worlds -/
theorem store_of_core {t t' : Store} (h : ρ.Worlds w w') (hs : ρ.Stores t t') (hcore : t.core = w.store.core) :
    ρ.Worlds { w with store := t } { w' with store := t' } :=
  { h with store := hs, fresh := h.fresh.of_core hcore (Nat.le_refl _) }

theorem now (h : ρ.Worlds w w') (henv : ρ.Environments env env') :
    env'.epoch.addNanos w'.ticks = env.epoch.addNanos w.ticks := by
  rw [henv.epoch, h.ticks]

theorem freshId (h : ρ.Worlds w w') : ρ.Worlds { w with ids := w.ids + 1 } { w' with ids := w'.ids + 1 } :=
  { h with ids := congrArg (· + 1) h.ids, fresh := h.fresh.of_core rfl (Nat.le_succ _) }

/-- the generated ids of the two runs -/
theorem generated (h : ρ.Worlds w w') (henv : ρ.Environments env env') :
    ρ.Id (env.idName w.ids) (env'.idName w'.ids) := by
  rw [henv.names, henv.others, h.ids]
  exact .generated w.ids

theorem tick (h : ρ.Worlds w w') : ρ.Worlds { w with ticks := w.ticks + 1 } { w' with ticks := w'.ticks + 1 } :=
  { h with ticks := congrArg (· + 1) h.ticks, fresh := h.fresh.of_core rfl (Nat.le_refl _) }

theorem send (h : ρ.Worlds w w') (q q' : HttpRequest) :
    ρ.Worlds { w with sent := w.sent.push q } { w' with sent := w'.sent.push q' } := by
  refine { h with sent := ?_, fresh := h.fresh.of_core rfl (Nat.le_refl _) }
  rw [Array.size_push, Array.size_push, h.sent]

theorem link {l l' : ChildLink} (h : ρ.Worlds w w') (hl : ρ.Links l l') (hgenerated : Generated ρ.names l.childId w) :
    ρ.Worlds (w.link l) (w'.link l') :=
  { h with store := h.store.insertLink hl, fresh := h.fresh.link hgenerated }

/-- what no run reads may differ -/
theorem unread {events events' : Array Event} {locks locks' : Array LockStep} {refusals refusals' : Array StorageError}
    (h : ρ.Worlds w w') : ρ.Worlds { w with events, locks, refusals }
      { w' with events := events', locks := locks', refusals := refusals' } :=
  { h with fresh := h.fresh.of_core rfl (Nat.le_refl _) }

end Worlds
end Renaming
end Workflows
