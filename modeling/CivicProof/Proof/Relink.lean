import CivicProof.Proof.Review

/-!
# Relinks and their audit

Runs of review requests, each with its own failures. Only a relink touches
`entity_candidates`, and it does so before it asks `resolve_task`, which neither refuses a
closed task nor undoes anything.

* `resolveTask_issues`: `resolve_task` issues no candidate UPDATE.
* `relinkAudited_iff`: when one request is fully audited.
* `relinks_audited`: the same of every run.
-/

namespace CivicProof

open Autocommit Autocommit.Prog

/-! ## Candidates -/

namespace Db

variable {d : Db} {candidateId canonicalEntityId : Uuid} {entityKind : String}

theorem findCandidate_updateCandidate (other : Uuid) :
    (d.updateCandidate canonicalEntityId entityKind candidateId).findCandidate other =
      (d.findCandidate other).map fun cand =>
        if cand.candidateId = candidateId then setCandidate canonicalEntityId entityKind cand
        else cand := by
  unfold findCandidate updateCandidate
  rw [List.find?_map]
  congr 2
  funext cand
  by_cases h : cand.candidateId = candidateId
  · simp [h, setCandidate]
  · simp [h]

theorem candidateId_of_find {cand : EntityCandidate} (h : d.findCandidate candidateId = some cand) :
    cand.candidateId = candidateId := by
  have hp := List.find?_some h
  exact of_decide_eq_true hp

theorem findCandidate_updateCandidate_of_ne {other : Uuid} (h : other ≠ candidateId) :
    (d.updateCandidate canonicalEntityId entityKind candidateId).findCandidate other =
      d.findCandidate other := by
  rw [findCandidate_updateCandidate]
  cases hother : d.findCandidate other with
  | none => rfl
  | some cand =>
    rw [Option.map_some, candidateId_of_find hother, if_neg h]

theorem findCandidate_updateCandidate_self {cand : EntityCandidate}
    (h : d.findCandidate candidateId = some cand) :
    (d.updateCandidate canonicalEntityId entityKind candidateId).findCandidate candidateId =
      some (setCandidate canonicalEntityId entityKind cand) := by
  rw [findCandidate_updateCandidate, h, Option.map_some, candidateId_of_find h, if_pos rfl]

theorem findCandidate_updateCandidate_none (h : d.findCandidate candidateId = none) :
    (d.updateCandidate canonicalEntityId entityKind candidateId).findCandidate candidateId =
      none := by
  rw [findCandidate_updateCandidate, h, Option.map_none]

theorem setCandidate_eq_self {cand : EntityCandidate} :
    setCandidate canonicalEntityId entityKind cand = cand ↔
      cand.canonicalEntityId = some canonicalEntityId ∧ cand.entityKind = entityKind := by
  cases cand
  simp only [setCandidate, EntityCandidate.mk.injEq, true_and]
  exact and_congr eq_comm eq_comm

end Db

/-- A statement that leaves the candidates alone. -/
def Stmt.sparesCandidates : Stmt → Prop
  | .updateCandidate _ _ _ => False
  | _ => True

/-- **A program without candidate UPDATE** leaves the candidates alone, whatever fails. -/
theorem candidates_of_issues {α : Type} {p : ReviewProg α} (hp : p.Issues Stmt.sparesCandidates)
    (plan : Plan) (d : Db) : (runWith exec plan p d).2.candidates = d.candidates := by
  refine runWith_rel (fun d d' : Db => d'.candidates = d.candidates) (fun _ => rfl)
    (fun _ _ _ h h' => h'.trans h) (fun s d hs => ?_) hp plan d
  cases s with
  | updateCandidate => exact hs.elim
  | _ => rfl

theorem resolveTask_issues (c : ResolveCall) : (resolveTask c).Issues Stmt.sparesCandidates := by
  cases ha : ReviewAction.ofValue? c.decision with
  | none =>
    rw [resolveTask_none ha]
    trivial
  | some action =>
    rw [resolveTask_some ha]
    refine ⟨trivial, fun row => ?_⟩
    cases row with
    | none => trivial
    | some task =>
      cases hc : task.status.terminal with
      | true =>
        rw [selected_closed hc]
        exact ⟨trivial, fun _ => trivial⟩
      | false =>
        rw [selected_open hc]
        exact ⟨trivial, fun _ => ⟨trivial, fun _ => trivial⟩⟩

theorem resolveReviewTask_issues (r : ResolveRequest) :
    (resolveReviewTask r).Issues Stmt.sparesCandidates := by
  refine (resolveTask_issues r.call).bind fun result => ?_
  rcases result with e | (_ | task) <;> trivial

theorem confirmEvidence_issues (r : ConfirmEvidenceRequest) :
    (confirmEvidence r).Issues Stmt.sparesCandidates := by
  refine ⟨trivial, fun row => ?_⟩
  cases row with
  | none => trivial
  | some task =>
    show Prog.Issues _ ((appendSpanConfirmation _ _ _ _ _) >>= _)
    rw [appendSpanConfirmation, if_neg r.spanIds_ne]
    exact ⟨trivial, fun _ => trivial⟩

/-! ## One request -/

/-- The state a request leaves. -/
def requestState (q : Request) (plan : Plan) (d : Db) : Db := (runWith exec plan q.prog d).2

/-- Every candidate that a request changed, it changed as a relink of an open task that names
the candidate, and closed the task with a relink row. -/
def RelinkAudited (q : Request) (d d' : Db) : Prop :=
  ∀ candidateId, d'.findCandidate candidateId ≠ d.findCandidate candidateId →
    ∃ r task, q = .relink r ∧ r.req.candidateId = candidateId ∧
      d.findTask r.taskId = some task ∧ task.kind = .entityResolution ∧
      namesCandidate task.payload candidateId = true ∧ task.status.terminal = false ∧
      (∃ row, row.action = .relink ∧ row.actionId = r.actionId ∧ row.taskId = task.id ∧
        d'.actions = d.actions ++ [row]) ∧
      d'.statusOf r.taskId = some .resolved

/-- The task is an entity resolution that names the candidate. -/
def Linkable (req : RelinkRequest) (task : ReviewTask) : Prop :=
  task.kind = .entityResolution ∧ namesCandidate task.payload req.candidateId = true

/-- A relink whose candidate UPDATE takes effect and changes the candidate. -/
def Relinks (r : RelinkEntityRequest) (plan : Plan) (d : Db) (task : ReviewTask) : Prop :=
  plan 0 = .done ∧ (plan 1).effective ∧ d.findTask r.taskId = some task ∧
    Linkable r.req task ∧ ∃ cand, d.findCandidate r.req.candidateId = some cand ∧
      (cand.canonicalEntityId ≠ some r.req.canonicalEntityId ∨
        cand.entityKind ≠ r.req.entityKind)

/-- A relink that changes its candidate finds its task open, and nothing fails after the
change: the SELECT and the UPDATE of the task are carried out and answered, the INSERT is
carried out. -/
def RelinkSafe (q : Request) (plan : Plan) (d : Db) : Prop :=
  ∀ r task, q = .relink r → Relinks r plan d task → task.status.terminal = false ∧
    plan 1 = .done ∧ plan 2 = .done ∧ plan 3 = .done ∧ (plan 4).effective

variable {q : Request} {r : RelinkEntityRequest} {plan : Plan} {d d' : Db} {task : ReviewTask}
  {cand : EntityCandidate}

theorem relinkAudited_of_candidates (h : d'.candidates = d.candidates) : RelinkAudited q d d' := by
  intro candidateId hne
  unfold Db.findCandidate at hne
  exact absurd (by rw [h]) hne

theorem applyEntityRelink_eq {req : RelinkRequest} (h : req.entityKind ∈ relinkKinds) :
    applyEntityRelink req =
      .call (.updateCandidate req.canonicalEntityId req.entityKind req.candidateId) fun id =>
        .ret (if id.isSome then none else some "candidate not found") := by
  rw [applyEntityRelink, if_neg (not_not.2 h)]
  show Prog.call _ _ = Prog.call _ _
  congr 1
  funext id
  cases id with
  | none => rfl
  | some n => rfl

/-- What is left of `relink_by_task_id` after its SELECT. -/
def linking (req : RelinkRequest) : Option ReviewTask → ReviewProg Bool
  | none => .ret false
  | some task =>
    if task.kind ≠ .entityResolution then .ret false
    else if !namesCandidate task.payload req.candidateId then .ret false
    else .call (.updateCandidate req.canonicalEntityId req.entityKind req.candidateId) fun id =>
      .ret id.isSome

/-- **`relink_by_task_id` as its statements.** -/
theorem relinkByTaskId_eq {taskId : Uuid} {req : RelinkRequest}
    (h : req.entityKind ∈ relinkKinds) :
    relinkByTaskId taskId req = .call (.selectTask taskId) (linking req) := by
  rw [relinkByTaskId, applyEntityRelink_eq h]
  show Prog.call _ _ = Prog.call _ _
  congr 1
  funext row
  cases row with
  | none => rfl
  | some task =>
    refine if_congr Iff.rfl rfl (if_congr Iff.rfl rfl ?_)
    show Prog.call _ _ = Prog.call _ _
    congr 1
    funext id
    cases id with
    | none => rfl
    | some n => rfl

theorem linking_linkable {req : RelinkRequest} (h : Linkable req task) :
    linking req (some task) =
      .call (.updateCandidate req.canonicalEntityId req.entityKind req.candidateId) fun id =>
        .ret id.isSome := by
  rw [linking, if_neg (not_not.2 h.1), h.2, if_neg (by decide)]

theorem linking_not_linkable {req : RelinkRequest} (h : ¬Linkable req task) :
    linking req (some task) = .ret false := by
  rw [linking]
  by_cases hkind : task.kind = .entityResolution
  · have hname : namesCandidate task.payload req.candidateId = false :=
      Bool.eq_false_iff.2 fun hname => h ⟨hkind, hname⟩
    rw [if_neg (not_not.2 hkind), hname]
    rfl
  · rw [if_pos hkind]

/-- What is left of `relink_entity` once it knows whether the candidate is linked. -/
def afterLink (r : RelinkEntityRequest) : Bool → ReviewProg Response
  | false => .ret
    (.httpError 400 "relink failed (task not found, wrong kind, or candidate mismatch)")
  | true => resolveTask r.closing >>= fun result => .ret (match result with
    | .error e => .raised e
    | .ok none => .httpError 500 "Internal Server Error"
    | .ok (some _) => .ok)

theorem relinkEntity_eq (r : RelinkEntityRequest) :
    relinkEntity r = .call (.selectTask r.taskId) fun row => linking r.req row >>= afterLink r := by
  have h : relinkEntity r = relinkByTaskId r.taskId r.req >>= afterLink r := by
    unfold relinkEntity
    congr 1
    funext linked
    cases linked with
    | false => rfl
    | true =>
      show resolveTask r.closing >>= _ = resolveTask r.closing >>= _
      congr 1
      funext result
      rcases result with e | (_ | task) <;> rfl
  rw [h, relinkByTaskId_eq r.entityKind_mem, bind_call]

def linked (r : RelinkEntityRequest) (d : Db) : Db :=
  d.updateCandidate r.req.canonicalEntityId r.req.entityKind r.req.candidateId

/-- A relink that does not get to its candidate UPDATE changes nothing. -/
theorem requestState_refused
    (h : plan 0 = .done → ∀ task, d.findTask r.taskId = some task → Linkable r.req task →
      plan 1 = .refused) : requestState (.relink r) plan d = d := by
  show (runWith exec plan (relinkEntity r) d).2 = d
  rw [relinkEntity_eq]
  have hread : Reads exec (.selectTask r.taskId) := fun _ => rfl
  rcases runWith_read hread with ⟨-, hrun⟩ | ⟨h0, hrun⟩
  · rw [hrun]
  · rw [hrun, exec]
    cases ht : d.findTask r.taskId with
    | none => rfl
    | some task =>
      by_cases hlink : Linkable r.req task
      · rw [linking_linkable hlink, bind_call, runWith_refused (h h0 task ht hlink)]
      · rw [linking_not_linkable hlink]
        rfl

/-- A relink that gets to its candidate UPDATE goes on from there. -/
theorem requestState_linkable (h0 : plan 0 = .done) (ht : d.findTask r.taskId = some task)
    (hlink : Linkable r.req task) :
    requestState (.relink r) plan d =
      (runWith exec plan.tail (.call (.updateCandidate r.req.canonicalEntityId r.req.entityKind
        r.req.candidateId) fun id => afterLink r id.isSome) d).2 := by
  show (runWith exec plan (relinkEntity r) d).2 = _
  rw [relinkEntity_eq, runWith_done h0, exec, ht]
  dsimp only
  rw [linking_linkable hlink]
  rfl

theorem requestState_lost (h0 : plan 0 = .done) (h1 : plan 1 = .lost)
    (ht : d.findTask r.taskId = some task) (hlink : Linkable r.req task) :
    requestState (.relink r) plan d = linked r d := by
  rw [requestState_linkable h0 ht hlink, runWith_lost h1]
  rfl

/-- A relink of a candidate that exists goes on to close its task. -/
theorem requestState_closing (h0 : plan 0 = .done) (h1 : plan 1 = .done)
    (ht : d.findTask r.taskId = some task) (hlink : Linkable r.req task)
    (hcand : d.findCandidate r.req.candidateId = some cand) :
    requestState (.relink r) plan d = resolveState r.closing plan.tail.tail (linked r d) := by
  rw [requestState_linkable h0 ht hlink, runWith_done h1, exec]
  dsimp only
  rw [Db.findCandidate_updateCandidate_self hcand]
  exact runWith_bind_ret _ (fun _ => rfl) _ _ _

theorem requestState_missing (h0 : plan 0 = .done) (h1 : plan 1 = .done)
    (ht : d.findTask r.taskId = some task) (hlink : Linkable r.req task)
    (hcand : d.findCandidate r.req.candidateId = none) :
    requestState (.relink r) plan d = linked r d := by
  rw [requestState_linkable h0 ht hlink, runWith_done h1, exec]
  dsimp only
  rw [Db.findCandidate_updateCandidate_none hcand]
  rfl

/-- After its candidate UPDATE a relink leaves the candidates alone. -/
theorem candidates_relink (h0 : plan 0 = .done) (h1 : (plan 1).effective)
    (ht : d.findTask r.taskId = some task) (hlink : Linkable r.req task) :
    (requestState (.relink r) plan d).candidates = (linked r d).candidates := by
  cases hp : plan 1 with
  | refused => exact absurd hp h1
  | lost => rw [requestState_lost h0 hp ht hlink]
  | done =>
    cases hcand : d.findCandidate r.req.candidateId with
    | none => rw [requestState_missing h0 hp ht hlink hcand]
    | some cand =>
      rw [requestState_closing h0 hp ht hlink hcand]
      exact candidates_of_issues (resolveTask_issues _) _ _

/-- A relink that does not change its candidate changes none. -/
theorem findCandidate_of_not_relinks (h : ∀ task, ¬Relinks r plan d task) (candidateId : Uuid) :
    (requestState (.relink r) plan d).findCandidate candidateId = d.findCandidate candidateId := by
  by_cases hgets : plan 0 = .done ∧ ∃ task, d.findTask r.taskId = some task ∧
      Linkable r.req task ∧ (plan 1).effective
  · obtain ⟨h0, task, ht, hlink, h1⟩ := hgets
    rw [Db.findCandidate, candidates_relink h0 h1 ht hlink]
    show (linked r d).findCandidate candidateId = _
    by_cases hid : candidateId = r.req.candidateId
    · subst hid
      cases hcand : d.findCandidate r.req.candidateId with
      | none => exact Db.findCandidate_updateCandidate_none hcand
      | some cand =>
        have hself : Db.setCandidate r.req.canonicalEntityId r.req.entityKind cand = cand := by
          by_contra hne
          rw [Db.setCandidate_eq_self, not_and_or] at hne
          exact h task ⟨h0, h1, ht, hlink, cand, hcand, hne⟩
        rw [linked, Db.findCandidate_updateCandidate_self hcand, hself]
    · exact Db.findCandidate_updateCandidate_of_ne hid
  · rw [requestState_refused fun h0 task ht hlink => ?_]
    by_contra h1
    exact hgets ⟨h0, task, ht, hlink, h1⟩

/-- The audit of a relink that changes its candidate. -/
theorem relinkAudited_of_relinks (h : Relinks r plan d task) :
    RelinkAudited (.relink r) d (requestState (.relink r) plan d) ↔
      task.status.terminal = false ∧
        RowAdded r.closing task.id d (requestState (.relink r) plan d) ∧
        (requestState (.relink r) plan d).statusOf r.taskId = some .resolved := by
  obtain ⟨h0, h1, ht, hlink, cand, hcand, hchange⟩ := h
  have hcandidates := candidates_relink h0 h1 ht hlink
  have hother : ∀ other, other ≠ r.req.candidateId →
      (requestState (.relink r) plan d).findCandidate other = d.findCandidate other := by
    intro other hne
    rw [Db.findCandidate, hcandidates]
    exact Db.findCandidate_updateCandidate_of_ne hne
  constructor
  · -- the request's own candidate did change
    intro haudit
    have hne : (requestState (.relink r) plan d).findCandidate r.req.candidateId ≠
        d.findCandidate r.req.candidateId := by
      rw [Db.findCandidate, hcandidates]
      show (linked r d).findCandidate _ ≠ _
      rw [linked, Db.findCandidate_updateCandidate_self hcand, hcand]
      intro heq
      obtain ⟨hc, hk⟩ := Db.setCandidate_eq_self.1 (Option.some.inj heq)
      exact hchange.elim (fun hne => hne hc) fun hne => hne hk
    obtain ⟨r', task', hr, -, ht', -, -, ho, ⟨row, ha, hid, htask, hrows⟩, hstatus⟩ :=
      haudit _ hne
    cases hr
    obtain rfl : task = task' := Option.some.inj (ht.symm.trans ht')
    exact ⟨ho, ⟨row, ⟨hid, by rw [ha]; rfl⟩, htask, hrows⟩, hstatus⟩
  · rintro ⟨ho, ⟨row, ⟨hid, ha⟩, htask, hrows⟩, hstatus⟩ candidateId hne
    have hcid : r.req.candidateId = candidateId := by
      by_contra hcid
      exact hne (hother candidateId (Ne.symm hcid))
    subst hcid
    exact ⟨r, task, rfl, rfl, ht, hlink.1, hlink.2, ho,
      ⟨row, (Option.some.inj ha).symm, hid, htask, hrows⟩, hstatus⟩

/-- What has to go well after the candidate has changed. -/
theorem relinkAudited_iff_fates (h : Relinks r plan d task) :
    RelinkAudited (.relink r) d (requestState (.relink r) plan d) ↔
      task.status.terminal = false ∧ plan 1 = .done ∧ plan 2 = .done ∧ plan 3 = .done ∧
        (plan 4).effective := by
  rw [relinkAudited_of_relinks h]
  obtain ⟨h0, h1, ht, hlink, cand, hcand, -⟩ := h
  refine and_congr_right fun ho => ?_
  by_cases hdone : plan 1 = .done
  · have ht' : (linked r d).findTask r.closing.taskId = some task := ht
    have hrelink : ReviewAction.ofValue? r.closing.decision = some .relink := rfl
    rw [requestState_closing h0 hdone ht hlink hcand]
    have hrow : RowAdded r.closing task.id d (resolveState r.closing plan.tail.tail (linked r d)) ↔
        plan 2 = .done ∧ plan 3 = .done ∧ (plan 4).effective :=
      rowAdded_open hrelink ht' ho
    rw [hrow]
    constructor
    · rintro ⟨hfates, -⟩
      exact ⟨hdone, hfates⟩
    · rintro ⟨-, hfates⟩
      exact ⟨hfates, statusOf_open hrelink ht' ho hfates⟩
  · -- the candidate is changed and the request does not know
    have hlost : plan 1 = .lost := by
      cases hp : plan 1 with
      | done => exact absurd hp hdone
      | refused => exact absurd hp h1
      | lost => rfl
    rw [requestState_lost h0 hlost ht hlink]
    exact iff_of_false (fun h => not_rowAdded rfl h.1) fun h => hdone h.1

/-- **One request** is audited exactly when it is safe. -/
theorem relinkAudited_iff (q : Request) (plan : Plan) (d : Db) :
    RelinkAudited q d (requestState q plan d) ↔ RelinkSafe q plan d := by
  cases q with
  | resolve r =>
    refine iff_of_true (relinkAudited_of_candidates ?_) fun _ _ hq => by cases hq
    exact candidates_of_issues (resolveReviewTask_issues r) plan d
  | confirm r =>
    refine iff_of_true (relinkAudited_of_candidates ?_) fun _ _ hq => by cases hq
    exact candidates_of_issues (confirmEvidence_issues r) plan d
  | relink r =>
    constructor
    · intro haudit r' task hr h
      cases hr
      exact (relinkAudited_iff_fates h).1 haudit
    · intro hsafe
      by_cases h : ∃ task, Relinks r plan d task
      · obtain ⟨task, h⟩ := h
        exact (relinkAudited_iff_fates h).2 (hsafe r task rfl h)
      · rw [not_exists] at h
        exact fun candidateId hne => absurd (findCandidate_of_not_relinks h candidateId) hne

/-! ## Runs -/

def serve (d : Db) (reqs : List (Request × Plan)) : Db :=
  reqs.foldl (fun d e => requestState e.1 e.2 d) d

/-- Every request of a run meets a condition on the state it is served in. -/
def EachServed (good : Request → Plan → Db → Prop) (d : Db) (reqs : List (Request × Plan)) : Prop :=
  ∀ before q plan after, reqs = before ++ (q, plan) :: after → good q plan (serve d before)

/-- Every request of a run is audited. -/
def RunAudited (d : Db) (reqs : List (Request × Plan)) : Prop :=
  ∀ before q plan after, reqs = before ++ (q, plan) :: after →
    RelinkAudited q (serve d before) (serve d (before ++ [(q, plan)]))

theorem serve_concat (d : Db) (reqs : List (Request × Plan)) (q : Request) (plan : Plan) :
    serve d (reqs ++ [(q, plan)]) = requestState q plan (serve d reqs) := by
  rw [serve, List.foldl_append]
  rfl

/-- **Entity relinks are audited and respect closed tasks** throughout a run, exactly when each
relink of the run that changes its candidate finds its task open and does not fail after the
change. -/
theorem relinks_audited (d : Db) (reqs : List (Request × Plan)) :
    RunAudited d reqs ↔ EachServed RelinkSafe d reqs := by
  refine forall₄_congr fun before q plan after => imp_congr_right fun _ => ?_
  rw [serve_concat]
  exact relinkAudited_iff q plan (serve d before)

/-- A resolved task about the candidate `aaaa…`. -/
def resolvedTask : ReviewTask :=
  { sampleTask with
    kind := .entityResolution
    status := .resolved
    payload := Dict.ofList [("candidate_id", .str (sampleUuid 10).str)] }

def openCandidate : EntityCandidate where
  id := 1
  candidateId := sampleUuid 10
  canonicalEntityId := none
  entityKind := "person"

def lateRelink : RelinkEntityRequest where
  taskId := sampleTask.taskId
  req := {
    candidateId := sampleUuid 10
    canonicalEntityId := sampleUuid 11
    entityKind := "person"
    reviewerId := "rev_1" }
  actionId := sampleUuid 1
  now := "2026-04-22T10:00:00+00:00"
  entityKind_mem := by decide
  reviewerId_ne := by decide

/-- **A relink on a resolved task** changes the candidate all the same. -/
theorem relink_after_close :
    let d := sampleDb resolvedTask (some openCandidate)
    ¬RunAudited d [(.relink lateRelink, healthy)] := by
  intro d hrun
  have haudit := hrun [] _ _ [] rfl
  have hchanged : (serve d [(.relink lateRelink, healthy)]).findCandidate
      (sampleUuid 10) ≠ d.findCandidate (sampleUuid 10) := by
    decide
  obtain ⟨r, task, hr, -, ht, -, -, ho, -⟩ := haudit _ hchanged
  cases hr
  cases ht
  cases ho

end CivicProof
