import CivicProof.Autocommit.Faults
import CivicProof.Proof.Relink
import CivicProof.Proof.ReviewRace
import Mathlib.Data.List.Find

/-!
# What the audit log says

Any number of review requests, on any tasks, interleaved statement by statement, any
statement of which may fail. Tasks get closed twice and rows get lost, but the rows that are
there can be trusted: each is one request's own, and a decision's was applied, or found the task
closed.

* `Stage`: where a request stands, and `stage_step`: what its next statement does.
* `audit_log`: the rows, and the answers the requests got.
* `review_tables`: what the requests can have made of the tasks and the candidates.
-/

namespace CivicProof

open Autocommit Autocommit.Prog Autocommit.Pool

/-! ## Requests and their rows -/

/-- The call of `resolve_task` that a request makes. -/
def Request.call? : Request → Option ResolveCall
  | .resolve r => some r.call
  | .relink r => some r.closing
  | .confirm _ => none

/-- What an endpoint answers to a result of `resolve_task`. -/
def Request.reply : Request → Except PyError (Option ReviewTask) → Response
  | _, .error e => .raised e
  | .resolve _, .ok none => .httpError 404 "review task not found"
  | _, .ok none => .httpError 500 "Internal Server Error"
  | .resolve _, .ok (some task) => .task task
  | _, .ok (some _) => .ok

/-- The row of `append_span_confirmation`. -/
def ConfirmEvidenceRequest.row (r : ConfirmEvidenceRequest) (task : ReviewTask) : ActionRow where
  actionId := r.actionId
  taskId := task.id
  actor := r.reviewerId
  action := .annotate
  diff := Dict.ofList
    [("kind", .str "evidence_confirmation"), ("span_ids", .list (r.spanIds.map .str))]
  createdAt := r.now

/-- The request did what it was asked. -/
def Response.accepted : Response → Prop
  | .task _ | .ok => True
  | .httpError _ _ | .raised _ => False

/-- The request was turned down. -/
def Response.refused : Response → Prop
  | .httpError status _ => status = 400 ∨ status = 404
  | .task _ | .ok | .raised _ => False

variable {ι : Type} {reqs : ι → Request} {d₀ d : Db} {ran ran' : Stmt → Db → Prop} {q : Request}
  {c : ResolveCall} {t t' task : ReviewTask} {row : ActionRow}

/-- A relink has pointed its candidate at the entity, on the word of a task that names it. -/
def Cleared (d₀ : Db) (ran : Stmt → Db → Prop) (q : Request) : Prop :=
  ∀ r, q = .relink r → (∃ task, d₀.findTask r.taskId = some task ∧ Linkable r.req task) ∧
    ∃ d, ran (.updateCandidate r.req.canonicalEntityId r.req.entityKind r.req.candidateId) d ∧
      d.findCandidate r.req.candidateId ≠ none

/-- The call has looked at its task, and has found it open or closed. -/
def Looked (ran : Stmt → Db → Prop) (c : ResolveCall) (closed : Bool) : Prop :=
  ∃ d t, ran (.selectForUpdate c.taskId) d ∧ d.findTask c.taskId = some t ∧
    t.status.terminal = closed

/-- The request has looked for its task, and has found it. -/
def Found (ran : Stmt → Db → Prop) (taskId : Uuid) : Prop :=
  ∃ d t, ran (.selectTask taskId) d ∧ d.findTask taskId = some t

/-- The rows a request may write, by the statements it has run: a decision found its task closed, or
found it open and updated it; a confirmation found its task, open or closed, and updates nothing. -/
inductive Request.Writes (d₀ : Db) (ran : Stmt → Db → Prop) (q : Request) : ActionRow → Prop
  | noted {c : ResolveCall} {task : ReviewTask} (hcall : q.call? = some c)
      (hclear : Cleared d₀ ran q) (htask : d₀.findTask c.taskId = some task)
      (hlooked : Looked ran c true) : Writes d₀ ran q (c.row task c.action (notesDiff c.notes))
  | applied {c : ResolveCall} {task : ReviewTask} {d : Db} (hcall : q.call? = some c)
      (hclear : Cleared d₀ ran q) (htask : d₀.findTask c.taskId = some task)
      (hlooked : Looked ran c false)
      (hran : ran (.updateTask c.action.toStatus (some c.reviewerId) task.id) d) :
      Writes d₀ ran q (c.row task c.action (enrichRejectDiff task c.action (notesDiff c.notes)))
  | confirmed {r : ConfirmEvidenceRequest} {task : ReviewTask} (hq : q = .confirm r)
      (htask : d₀.findTask r.taskId = some task) (hfound : Found ran r.taskId) :
      Writes d₀ ran q (r.row task)

/-! ## Tables -/

/-- What requests can have made of a task: nothing, or what one decision on it says, and that
only if it was open to begin with. -/
def TaskFrom (reqs : ι → Request) (t t' : ReviewTask) : Prop :=
  t' = t ∨ t.status.terminal = false ∧ ∃ i c, (reqs i).call? = some c ∧ c.taskId = t.taskId ∧
    t' = Db.setTask c.action.toStatus (some c.reviewerId) t

/-- What requests can have made of a candidate: nothing, or what one relink on a task that
names it says. -/
def CandidateFrom (reqs : ι → Request) (d₀ : Db) (cand cand' : EntityCandidate) : Prop :=
  cand' = cand ∨ ∃ i r task, reqs i = .relink r ∧ r.req.candidateId = cand.candidateId ∧
    d₀.findTask r.taskId = some task ∧ Linkable r.req task ∧
    cand' = Db.setCandidate r.req.canonicalEntityId r.req.entityKind cand

/-- What requests can have made of the tables. -/
structure Follows (reqs : ι → Request) (d₀ d : Db) : Prop where
  tasks : ∃ f, d.tasks = d₀.tasks.map f ∧ ∀ t ∈ d₀.tasks, TaskFrom reqs t (f t)
  candidates : ∃ f, d.candidates = d₀.candidates.map f ∧
    ∀ cand ∈ d₀.candidates, CandidateFrom reqs d₀ cand (f cand)

/-- A request may change a task that it knows to be open, and the candidate that its task
names; it may write its own rows. -/
def Allowed (d₀ : Db) (ran : Stmt → Db → Prop) (q : Request) : Stmt → Prop
  | .selectTask _ | .selectForUpdate _ => True
  | .updateTask status reviewerId id => ∃ c task, q.call? = some c ∧
      d₀.findTask c.taskId = some task ∧ task.status.terminal = false ∧ id = task.id ∧
      status = c.action.toStatus ∧ reviewerId = some c.reviewerId
  | .insertAction row => q.Writes d₀ ran row
  | .updateCandidate canonicalEntityId entityKind candidateId => ∃ r task, q = .relink r ∧
      d₀.findTask r.taskId = some task ∧ Linkable r.req task ∧
      canonicalEntityId = r.req.canonicalEntityId ∧ entityKind = r.req.entityKind ∧
      candidateId = r.req.candidateId

/-- The row a statement inserts. -/
def Stmt.row? : Stmt → Option ActionRow
  | .insertAction row => some row
  | _ => none

theorem exec_actions (s : Stmt) (d : Db) :
    (exec s d).2.actions = d.actions ++ s.row?.toList := by
  cases s with
  | insertAction row => rfl
  | _ => exact (List.append_nil _).symm

theorem TaskFrom.id (h : TaskFrom reqs t t') : t'.id = t.id := by
  rcases h with rfl | ⟨-, i, c, -, -, rfl⟩
  · rfl
  · rfl

theorem TaskFrom.taskId (h : TaskFrom reqs t t') : t'.taskId = t.taskId := by
  rcases h with rfl | ⟨-, i, c, -, -, rfl⟩
  · rfl
  · rfl

theorem TaskFrom.kind (h : TaskFrom reqs t t') : t'.kind = t.kind := by
  rcases h with rfl | ⟨-, i, c, -, -, rfl⟩
  · rfl
  · rfl

theorem TaskFrom.payload (h : TaskFrom reqs t t') : t'.payload = t.payload := by
  rcases h with rfl | ⟨-, i, c, -, -, rfl⟩
  · rfl
  · rfl

/-- A task that was closed to begin with is as it was. -/
theorem TaskFrom.closed (h : TaskFrom reqs t t') (hc : t.status.terminal = true) : t' = t := by
  rcases h with rfl | ⟨ho, -⟩
  · rfl
  · rw [hc] at ho
    cases ho

namespace Follows

theorem refl (reqs : ι → Request) (d : Db) : Follows reqs d d where
  tasks := ⟨id, (List.map_id _).symm, fun _ _ => Or.inl rfl⟩
  candidates := ⟨id, (List.map_id _).symm, fun _ _ => Or.inl rfl⟩

/-- The tasks are found as before. -/
theorem findTask (h : Follows reqs d₀ d) (taskId : Uuid) :
    (d₀.findTask taskId = none ∧ d.findTask taskId = none) ∨
      ∃ t t', d₀.findTask taskId = some t ∧ d.findTask taskId = some t' ∧ TaskFrom reqs t t' := by
  obtain ⟨f, htasks, hf⟩ := h.tasks
  have hsame : d.findTask taskId = (d₀.findTask taskId).map f := by
    unfold Db.findTask
    rw [htasks, List.find?_map]
    congr 1
    refine List.find?_congr fun t ht => ?_
    rw [Function.comp_apply, (hf t ht).taskId]
  cases ht : d₀.findTask taskId with
  | none => exact Or.inl ⟨rfl, by rw [hsame, ht]; rfl⟩
  | some t =>
    refine Or.inr ⟨t, f t, rfl, by rw [hsame, ht]; rfl, hf t ?_⟩
    exact (Db.mem_of_findTask ht).1

theorem find_some (h : Follows reqs d₀ d) {taskId : Uuid} (ht : d₀.findTask taskId = some t) :
    ∃ t', d.findTask taskId = some t' ∧ TaskFrom reqs t t' := by
  rcases h.findTask taskId with ⟨hnone, -⟩ | ⟨t₁, t', ht₁, ht', hfrom⟩
  · rw [ht] at hnone
    cases hnone
  · obtain rfl : t = t₁ := Option.some.inj (ht.symm.trans ht₁)
    exact ⟨t', ht', hfrom⟩

/-- **An allowed statement** makes of the tables what requests can make of them. -/
theorem step (h : Follows reqs d₀ d) {i : ι} {s : Stmt} (hs : Allowed d₀ ran (reqs i) s) :
    Follows reqs d₀ (exec s d).2 := by
  cases s with
  | selectTask => exact h
  | selectForUpdate => exact h
  | insertAction => exact ⟨h.tasks, h.candidates⟩
  | updateTask status reviewerId id =>
    obtain ⟨c, task, hcall, htask, ho, rfl, rfl, rfl⟩ := hs
    obtain ⟨f, htasks, hf⟩ := h.tasks
    obtain ⟨hmem, hid⟩ := Db.mem_of_findTask htask
    refine ⟨⟨fun t => if (f t).id = task.id then
      Db.setTask c.action.toStatus (some c.reviewerId) (f t) else f t, ?_, fun t ht => ?_⟩,
      h.candidates⟩
    · show d.tasks.map _ = _
      rw [htasks, List.map_map]
      rfl
    · dsimp only
      by_cases heq : (f t).id = task.id
      · rw [if_pos heq]
        rw [(hf t ht).id] at heq
        obtain rfl := Db.task_unique ht hmem heq
        refine Or.inr ⟨ho, i, c, hcall, hid.symm, ?_⟩
        rcases hf t ht with hft | ⟨-, j, c', -, -, hft⟩
        · rw [hft]
        · rw [hft]
          rfl
      · rw [if_neg heq]
        exact hf t ht
  | updateCandidate canonicalEntityId entityKind candidateId =>
    obtain ⟨r, task, hq, htask, hlink, rfl, rfl, rfl⟩ := hs
    obtain ⟨f, hcands, hf⟩ := h.candidates
    refine ⟨h.tasks, ⟨fun cand => if (f cand).candidateId = r.req.candidateId then
      Db.setCandidate r.req.canonicalEntityId r.req.entityKind (f cand) else f cand, ?_,
      fun cand hcand => ?_⟩⟩
    · show d.candidates.map _ = _
      rw [hcands, List.map_map]
      rfl
    · dsimp only
      by_cases heq : (f cand).candidateId = r.req.candidateId
      · rw [if_pos heq]
        rcases hf cand hcand with hft | ⟨j, r', task', -, -, -, -, hft⟩
        · rw [hft] at heq ⊢
          exact Or.inr ⟨i, r, task, hq, heq.symm, htask, hlink, rfl⟩
        · rw [hft] at heq ⊢
          exact Or.inr ⟨i, r, task, hq, heq.symm, htask, hlink, rfl⟩
      · rw [if_neg heq]
        exact hf cand hcand

end Follows

/-! ## Stages -/

variable {logged logged' : Prop} {r : Response}

/-- What is left of a request once it calls `resolve_task`. -/
def resolving (q : Request) (c : ResolveCall) : ReviewProg (Option Response) :=
  (resolveTask c >>= fun result => .ret (q.reply result)).guarded

/-- The answer of a request tells whether its row has been written. -/
def Acknowledged (logged : Prop) (r : Response) : Prop :=
  (logged → r.accepted) ∧ (¬logged → r.refused)

/-- Where a request stands. `logged` says whether its row has been written. -/
inductive Stage (d₀ : Db) (ran : Stmt → Db → Prop) (q : Request) (logged : Prop) :
    ReviewProg (Option Response) → Prop
  | asking {r : RelinkEntityRequest} (hq : q = .relink r) (hn : ¬logged) :
      Stage d₀ ran q logged (relinkEntity r).guarded
  | linking {r : RelinkEntityRequest} {task : ReviewTask} (hq : q = .relink r)
      (htask : d₀.findTask r.taskId = some task) (hlink : Linkable r.req task) (hn : ¬logged) :
      Stage d₀ ran q logged
        (.call (.updateCandidate r.req.canonicalEntityId r.req.entityKind r.req.candidateId)
          fun id => (afterLink r id.isSome).guarded)
  | resolving {c : ResolveCall} (hcall : q.call? = some c) (hclear : Cleared d₀ ran q)
      (hn : ¬logged) : Stage d₀ ran q logged (resolving q c)
  | deciding {c : ResolveCall} {task : ReviewTask} (hcall : q.call? = some c)
      (hclear : Cleared d₀ ran q) (htask : d₀.findTask c.taskId = some task)
      (ho : task.status.terminal = false) (hlooked : Looked ran c false) (hn : ¬logged) :
      Stage d₀ ran q logged
        (deciding c task c.action >>= fun result => .ret (q.reply result)).guarded
  | confirming {r : ConfirmEvidenceRequest} (hq : q = .confirm r) (hn : ¬logged) :
      Stage d₀ ran q logged (confirmEvidence r).guarded
  | recording {row : ActionRow} {r : Response} (hrow : q.Writes d₀ ran row) (hr : r.accepted)
      (hn : ¬logged) : Stage d₀ ran q logged (.call (.insertAction row) fun _ => .ret (some r))
  | answered {r : Response} (hr : Acknowledged logged r) : Stage d₀ ran q logged (.ret (some r))
  | raised : Stage d₀ ran q logged (.ret none)

theorem Cleared.mono (h : Cleared d₀ ran q) (hran : ∀ s d, ran s d → ran' s d) :
    Cleared d₀ ran' q := by
  intro r hr
  obtain ⟨htask, d, hd, hcand⟩ := h r hr
  exact ⟨htask, d, hran _ _ hd, hcand⟩

theorem Looked.mono {closed : Bool} (h : Looked ran c closed)
    (hran : ∀ s d, ran s d → ran' s d) : Looked ran' c closed := by
  obtain ⟨d, t, hd, ht⟩ := h
  exact ⟨d, t, hran _ _ hd, ht⟩

theorem Found.mono {taskId : Uuid} (h : Found ran taskId) (hran : ∀ s d, ran s d → ran' s d) :
    Found ran' taskId := by
  obtain ⟨d, t, hd, ht⟩ := h
  exact ⟨d, t, hran _ _ hd, ht⟩

theorem Request.Writes.mono (h : q.Writes d₀ ran row) (hran : ∀ s d, ran s d → ran' s d) :
    q.Writes d₀ ran' row := by
  cases h with
  | noted hcall hclear htask hlooked =>
    exact .noted hcall (hclear.mono hran) htask (hlooked.mono hran)
  | applied hcall hclear htask hlooked hupdate =>
    exact .applied hcall (hclear.mono hran) htask (hlooked.mono hran) (hran _ _ hupdate)
  | confirmed hq htask hfound => exact .confirmed hq htask (hfound.mono hran)

theorem Stage.mono {p : ReviewProg (Option Response)} (h : Stage d₀ ran q logged p)
    (hran : ∀ s d, ran s d → ran' s d) (hl : logged' ↔ logged) : Stage d₀ ran' q logged' p := by
  obtain rfl : logged' = logged := propext hl
  cases h with
  | asking hq hn => exact .asking hq hn
  | linking hq htask hlink hn => exact .linking hq htask hlink hn
  | resolving hcall hclear hn => exact .resolving hcall (hclear.mono hran) hn
  | deciding hcall hclear htask ho hlooked hn =>
    exact .deciding hcall (hclear.mono hran) htask ho (hlooked.mono hran) hn
  | confirming hq hn => exact .confirming hq hn
  | recording hrow hr hn => exact .recording (hrow.mono hran) hr hn
  | answered hr => exact .answered hr
  | raised => exact .raised

/-- A request begins unlogged. -/
theorem stage_begin (d₀ : Db) (ran : Stmt → Db → Prop) (q : Request) (hn : ¬logged) :
    Stage d₀ ran q logged q.prog.guarded := by
  cases q with
  | resolve r =>
    have hprog : (Request.resolve r).prog.guarded = resolving (.resolve r) r.call := by
      show (resolveTask r.call >>= _).guarded = (resolveTask r.call >>= _).guarded
      congr 2
      funext result
      rcases result with e | (_ | task) <;> rfl
    rw [hprog]
    exact .resolving rfl (fun _ hr => by cases hr) hn
  | relink r => exact .asking rfl hn
  | confirm r => exact .confirming rfl hn

theorem acknowledged_refused (hn : ¬logged) (hr : r.refused) : Acknowledged logged r :=
  ⟨fun h => absurd h hn, fun _ => hr⟩

theorem Request.reply_accepted (q : Request) (task : ReviewTask) :
    (q.reply (.ok (some task))).accepted := by
  cases q <;> trivial

/-- The action of a call that a request makes is one of the five. -/
theorem Request.ofValue?_call (h : q.call? = some c) :
    ReviewAction.ofValue? c.decision = some c.action := by
  cases q with
  | resolve r =>
    cases h
    obtain ⟨action, ha⟩ := Option.isSome_iff_exists.1 r.decision_mem
    rw [ResolveCall.action, ha]
    rfl
  | relink r =>
    cases h
    rfl
  | confirm r => cases h

theorem afterLink_true (r : RelinkEntityRequest) :
    (afterLink r true).guarded = resolving (.relink r) r.closing := by
  show (resolveTask r.closing >>= _).guarded = (resolveTask r.closing >>= _).guarded
  congr 2
  funext result
  rcases result with e | (_ | task) <;> rfl

/-- What is left of `confirm_evidence` after its SELECT. -/
def confirming (r : ConfirmEvidenceRequest) : Option ReviewTask → ReviewProg (Option Response)
  | none => .ret (some (.httpError 404 "task not found"))
  | some task => .call (.insertAction (r.row task)) fun _ => .ret (some .ok)

theorem confirmEvidence_eq (r : ConfirmEvidenceRequest) :
    (confirmEvidence r).guarded = .call (.selectTask r.taskId) (confirming r) := by
  show Prog.call _ _ = Prog.call _ _
  congr 1
  funext found
  cases found with
  | none => rfl
  | some task =>
    show ((appendSpanConfirmation _ _ _ _ _) >>= _).guarded = _
    rw [appendSpanConfirmation, if_neg r.spanIds_ne]
    rfl

theorem resolving_eq (h : q.call? = some c) :
    resolving q c = .call (.selectForUpdate c.taskId) fun found =>
      (selected c c.action found >>= fun result => .ret (q.reply result)).guarded := by
  rw [resolving, resolveTask_some (Request.ofValue?_call h), bind_call, guarded_call]

/-- `resolve_task` uses nothing of the task that requests change. -/
theorem TaskFrom.deciding_eq (h : TaskFrom reqs t t') (action : ReviewAction) :
    deciding c t' action = deciding c t action := by
  rcases h with rfl | ⟨-, i, c', -, -, rfl⟩
  · rfl
  · show Prog.call _ _ = Prog.call _ _
    congr 1
    funext updated
    cases updated with
    | none => rfl
    | some t => rfl

theorem TaskFrom.linkable (h : TaskFrom reqs t t') {req : RelinkRequest} :
    Linkable req t' ↔ Linkable req t := by
  unfold Linkable
  rw [h.kind, h.payload]

theorem TaskFrom.row_eq (h : TaskFrom reqs t t') (action : ReviewAction) (diff : Dict Json) :
    c.row t' action diff = c.row t action diff := by
  unfold ResolveCall.row
  rw [h.id]

/-- The UPDATE of a task that exists returns it. -/
theorem Follows.updated (h : Follows reqs d₀ d) (htask : d₀.findTask c.taskId = some task)
    (status : TaskStatus) (reviewerId : Option String) :
    ∃ t, (d.updateTask status reviewerId task.id).tasks.find? (fun t => t.id = task.id) =
      some t := by
  obtain ⟨t, ht, hfrom⟩ := h.find_some htask
  rw [← Option.isSome_iff_exists, List.find?_isSome]
  refine ⟨Db.setTask status reviewerId t, List.mem_map.2 ⟨t, (Db.mem_of_findTask ht).1, ?_⟩, ?_⟩
  · rw [if_pos hfrom.id]
  · rw [Db.setTask_id, hfrom.id]
    exact decide_eq_true rfl

variable {s : Stmt} {k : Answer s → ReviewProg (Option Response)}

/-- A request asks about its task. -/
theorem stage_found (hfollows : Follows reqs d₀ d) (hcall : q.call? = some c)
    (hclear : Cleared d₀ ran q) (hran : ran (.selectForUpdate c.taskId) d) (hn : ¬logged) :
    Stage d₀ ran q logged (selected c c.action (d.findTask c.taskId) >>= fun result =>
      .ret (q.reply result)).guarded := by
  rcases hfollows.findTask c.taskId with ⟨hnone, hnone'⟩ | ⟨t, t', ht, ht', hfrom⟩
  · rw [hnone']
    refine .answered (acknowledged_refused hn ?_)
    cases q with
    | resolve r => exact Or.inr rfl
    | relink r =>
      -- its task was there
      cases hcall
      obtain ⟨⟨task, htask, -⟩, -⟩ := hclear r rfl
      exact absurd (htask.symm.trans hnone) (by simp)
    | confirm r => cases hcall
  · rw [ht']
    cases hc : t'.status.terminal with
    | true =>
      rw [selected_closed hc]
      have hrow := Request.Writes.noted hcall hclear ht ⟨d, t', hran, ht', hc⟩
      rw [← hfrom.row_eq] at hrow
      exact .recording hrow (q.reply_accepted t') hn
    | false =>
      rw [selected_open hc, hfrom.deciding_eq]
      refine .deciding hcall hclear ht ?_ ⟨d, t', hran, ht', hc⟩ hn
      cases ho : t.status.terminal with
      | false => rfl
      | true =>
        rw [hfrom.closed ho, ho] at hc
        cases hc

/-- **What the next statement of a request does**: an allowed thing, and the request goes on
from its answer. It writes its row only once. -/
theorem stage_step (h : Stage d₀ ran q logged (.call s k)) (hfollows : Follows reqs d₀ d) :
    ¬logged ∧ Allowed d₀ ran q s ∧ ∀ ran' : Stmt → Db → Prop, (∀ s d, ran s d → ran' s d) →
      ran' s d → Stage d₀ ran' q (s.row? ≠ none) (k (exec s d).1) := by
  generalize hp : Prog.call s k = p at h
  have hnone : ¬(none : Option ActionRow) ≠ none := fun h => h rfl
  cases h with
  | @asking r hq hn =>
    rw [relinkEntity_eq, guarded_call] at hp
    cases hp
    refine ⟨hn, trivial, fun ran' hmono hran => ?_⟩
    show Stage d₀ ran' q _ (linking r.req (d.findTask r.taskId) >>= afterLink r).guarded
    rcases hfollows.findTask r.taskId with ⟨-, hnone'⟩ | ⟨t, t', ht, ht', hfrom⟩
    · rw [hnone']
      exact .answered (acknowledged_refused hnone (Or.inl rfl))
    · rw [ht']
      by_cases hlink : Linkable r.req t'
      · rw [linking_linkable hlink]
        exact .linking hq ht (hfrom.linkable.1 hlink) hnone
      · rw [linking_not_linkable hlink]
        exact .answered (acknowledged_refused hnone (Or.inl rfl))
  | @linking r task hq htask hlink hn =>
    cases hp
    refine ⟨hn, ⟨r, task, hq, htask, hlink, rfl, rfl, rfl⟩, fun ran' hmono hran => ?_⟩
    show Stage d₀ ran' q _ (afterLink r (((linked r d).findCandidate
      r.req.candidateId).map (·.id)).isSome).guarded
    cases hcand : d.findCandidate r.req.candidateId with
    | none =>
      rw [linked, Db.findCandidate_updateCandidate_none hcand]
      exact .answered (acknowledged_refused hnone (Or.inl rfl))
    | some cand =>
      rw [linked, Db.findCandidate_updateCandidate_self hcand]
      show Stage d₀ ran' q _ (afterLink r true).guarded
      rw [afterLink_true, ← hq]
      refine .resolving (by rw [hq]; rfl) (fun r' hr' => ?_) hnone
      rw [hq] at hr'
      cases hr'
      exact ⟨⟨task, htask, hlink⟩, d, hran, by rw [hcand]; exact Option.some_ne_none cand⟩
  | resolving hcall hclear hn =>
    rw [resolving_eq hcall] at hp
    cases hp
    exact ⟨hn, trivial, fun ran' hmono hran =>
      stage_found hfollows hcall (hclear.mono hmono) hran hnone⟩
  | @deciding c task hcall hclear htask ho hlooked hn =>
    cases hp
    refine ⟨hn, ⟨c, task, hcall, htask, ho, rfl, rfl, rfl⟩, fun ran' hmono hran => ?_⟩
    obtain ⟨t, ht⟩ := hfollows.updated htask c.action.toStatus (some c.reviewerId)
    have hrow := Request.Writes.applied hcall (hclear.mono hmono) htask (hlooked.mono hmono) hran
    have hgo : Stage d₀ ran' q (none ≠ none) (recording c task c.action
        (enrichRejectDiff task c.action (notesDiff c.notes)) (.ok (some t)) >>= fun result =>
          .ret (q.reply result)).guarded := .recording hrow (q.reply_accepted t) hnone
    have hans : (exec (.updateTask c.action.toStatus (some c.reviewerId) task.id) d).1 = some t := ht
    rw [hans]
    exact hgo
  | @confirming r hq hn =>
    rw [confirmEvidence_eq] at hp
    cases hp
    refine ⟨hn, trivial, fun ran' hmono hran => ?_⟩
    show Stage d₀ ran' q _ (confirming r (d.findTask r.taskId))
    rcases hfollows.findTask r.taskId with ⟨-, hnone'⟩ | ⟨t, t', ht, ht', hfrom⟩
    · rw [hnone']
      exact .answered (acknowledged_refused hnone (Or.inr rfl))
    · rw [ht']
      have hrow : r.row t' = r.row t := by
        unfold ConfirmEvidenceRequest.row
        rw [hfrom.id]
      rw [confirming, hrow]
      exact .recording (.confirmed hq ht ⟨d, t', hran, ht'⟩) trivial hnone
  | recording hrow hr hn =>
    cases hp
    exact ⟨hn, hrow, fun ran' hmono hran =>
      .answered ⟨fun _ => hr, fun hnot => absurd (Option.some_ne_none _) hnot⟩⟩
  | answered hr => cases hp
  | raised => cases hp

theorem stage_answered (h : Stage d₀ ran q logged (.ret (some r))) : Acknowledged logged r := by
  generalize hp : Prog.ret (some r) = p at h
  cases h with
  | asking hq hn =>
    rw [relinkEntity_eq] at hp
    cases hp
  | linking => cases hp
  | resolving hcall hclear hn =>
    rw [resolving_eq hcall] at hp
    cases hp
  | deciding => cases hp
  | confirming hq hn =>
    rw [confirmEvidence_eq] at hp
    cases hp
  | recording => cases hp
  | answered hr =>
    cases hp
    exact hr
  | raised => cases hp

/-! ## Runs -/

/-- Requests at work on the database. -/
abbrev Desk (ι : Type) := Pool ι Stmt Answer (Option Response) Db

/-- The requests before any of them has begun. -/
def desk (reqs : ι → Request) (d : Db) : Desk ι := serving (fun i => (reqs i).prog) d

/-- Where all the requests stand, when the rows of `log` have been written. -/
structure Served (reqs : ι → Request) (d₀ : Db) (ran : ι → Stmt → Db → Prop)
    (log : List (ι × ActionRow)) (P : Desk ι) : Prop where
  follows : Follows reqs d₀ P.state
  rows : P.state.actions = d₀.actions ++ log.map (·.2)
  nodup : (log.map (·.1)).Nodup
  writes : ∀ e ∈ log, (reqs e.1).Writes d₀ (ran e.1) e.2
  stage : ∀ i, Stage d₀ (ran i) (reqs i) (i ∈ log.map (·.1)) (P.prog i)

variable [DecidableEq ι] {log : List (ι × ActionRow)} {P Q : Desk ι} {i : ι} {fate : Fate}
  {ran ran' : ι → Stmt → Db → Prop}

omit [DecidableEq ι] in
theorem served_begin (reqs : ι → Request) (d : Db) (ran : ι → Stmt → Db → Prop) :
    Served reqs d ran [] (desk reqs d) where
  follows := .refl reqs d
  rows := (List.append_nil _).symm
  nodup := List.nodup_nil
  writes _ he := absurd he List.not_mem_nil
  stage i := stage_begin d (ran i) (reqs i) List.not_mem_nil

/-- **One step**, whatever becomes of its statement. -/
theorem Served.step (h : Served reqs d₀ ran log P) (hstep : FaultyStep exec P i fate Q)
    (hmono : ∀ j s d, ran j s d → ran' j s d)
    (hran : ∀ s k, P.prog i = .call s k → fate = .done → ran' i s P.state) :
    ∃ log', Served reqs d₀ ran' log' Q := by
  have hwrites : ∀ e ∈ log, (reqs e.1).Writes d₀ (ran' e.1) e.2 := fun e he =>
    (h.writes e he).mono (hmono e.1)
  have hstage : ∀ j, Stage d₀ (ran' j) (reqs j) (j ∈ log.map (·.1)) (P.prog j) := fun j =>
    (h.stage j).mono (hmono j) Iff.rfl
  cases hstep with
  | idle hp => exact ⟨log, h.follows, h.rows, h.nodup, hwrites, hstage⟩
  | refused hp =>
    refine ⟨log, h.follows, h.rows, h.nodup, hwrites, fun j => ?_⟩
    by_cases hj : j = i
    · subst hj
      rw [advance_prog]
      exact .raised
    · rw [advance_prog_of_ne hj]
      exact hstage j
  | @carried s k p hp hgo =>
    have hi := h.stage i
    rw [hp] at hi
    obtain ⟨hn, hallowed, hnext⟩ := stage_step hi h.follows
    -- the row of the statement, if it inserts one, goes under the request's name
    have hnames : (log ++ s.row?.toList.map (Prod.mk i)).map (·.1) =
        log.map (·.1) ++ s.row?.toList.map fun _ => i := by
      rw [List.map_append, List.map_map]
      rfl
    refine ⟨log ++ s.row?.toList.map (Prod.mk i), h.follows.step hallowed, ?_, ?_, ?_, fun j => ?_⟩
    · rw [advance_state, exec_actions, h.rows, List.map_append, List.map_map,
        List.append_assoc]
      congr 2
      exact (List.map_id _).symm
    · rw [hnames, List.nodup_append]
      refine ⟨h.nodup, ?_, fun a ha b hb hab => ?_⟩
      · cases s.row? with
        | none => exact List.nodup_nil
        | some row => exact List.nodup_singleton i
      · obtain ⟨row, -, rfl⟩ := List.mem_map.1 hb
        rw [hab] at ha
        exact hn ha
    · intro e he
      rcases List.mem_append.1 he with he | he
      · exact hwrites e he
      · obtain ⟨row, hrow, rfl⟩ := List.mem_map.1 he
        cases s with
        | insertAction row' =>
          obtain rfl := List.mem_singleton.1 hrow
          exact Request.Writes.mono hallowed (hmono i)
        | _ => cases hrow
    · rw [hnames]
      by_cases hj : j = i
      · subst hj
        rw [advance_prog]
        have hlogged : j ∈ log.map (·.1) ++ (s.row?.toList.map fun _ => j) ↔ s.row? ≠ none := by
          cases s.row? with
          | none => simpa using hn
          | some row => simp
        rcases hgo with ⟨rfl, rfl⟩ | rfl
        · exact (hnext (ran' j) (hmono j) (hran s k hp rfl)).mono (fun _ _ h => h) hlogged
        · exact .raised
      · rw [advance_prog_of_ne hj]
        refine (hstage j).mono (fun _ _ h => h) ?_
        rw [List.mem_append, or_iff_left]
        intro hmem
        obtain ⟨row, -, hij⟩ := List.mem_map.1 hmem
        exact hj hij.symm

/-- **Where the requests stand after any schedule.** -/
theorem served_run (reqs : ι → Request) (d : Db) (sched : List (ι × Fate)) :
    ∃ log, Served reqs d (Ran exec (desk reqs d) sched) log
      ((desk reqs d).faultyRun exec sched) := by
  refine faultyRun_induction (I := fun sched P =>
    ∃ log, Served reqs d (Ran exec (desk reqs d) sched) log P)
    ⟨[], served_begin reqs d _⟩ (fun sched e h => ?_) sched
  obtain ⟨log, hlog⟩ := h
  obtain ⟨i, fate⟩ := e
  refine hlog.step (faultyStep_cases _ i fate) (fun j s d h => h.concat _) fun s k hp hfate => ?_
  rw [hfate]
  exact ran_last hp

/-- **The audit log can be trusted**, whatever the interleaving and whatever fails. It only
grows; each new row is one request's own, at most one each, written by a decision that found its task
closed or found it open and updated it, a relink's after it changed its candidate, or by a
confirmation that found its task; and an answered request was accepted if its row is there, turned
down if not. -/
theorem audit_log (reqs : ι → Request) (d : Db) (sched : List (ι × Fate)) :
    ∃ log : List (ι × ActionRow),
      ((desk reqs d).faultyRun exec sched).state.actions = d.actions ++ log.map (·.2) ∧
      (log.map (·.1)).Nodup ∧
      (∀ e ∈ log, (reqs e.1).Writes d (Ran exec (desk reqs d) sched e.1) e.2) ∧
      ∀ i r, ((desk reqs d).faultyRun exec sched).prog i = .ret (some r) →
        Acknowledged (i ∈ log.map (·.1)) r := by
  obtain ⟨log, h⟩ := served_run reqs d sched
  refine ⟨log, h.rows, h.nodup, h.writes, fun i r hr => ?_⟩
  have hstage := h.stage i
  rw [hr] at hstage
  exact stage_answered hstage

/-- **What requests can do to the tables**, whatever the interleaving and whatever fails: a task
that was closed stays as it is, an open one takes the status and the assignee of a decision on
it, and a candidate is pointed only where a relink on a task that names it points. -/
theorem review_tables (reqs : ι → Request) (d : Db) (sched : List (ι × Fate)) :
    Follows reqs d ((desk reqs d).faultyRun exec sched).state := by
  obtain ⟨log, h⟩ := served_run reqs d sched
  exact h.follows

end CivicProof
