import CivicProof.Autocommit.Pool
import CivicProof.Proof.Review
import Mathlib.Data.List.Perm.Basic

/-!
# Concurrent reviewers

Any number of `resolveTask` calls on one task, interleaved statement by statement. A call
counts from its UPDATE, or from a SELECT that finds the task closed (`decides`): in the order
of these points the actions replay, as long as no UPDATE closes over a closed task
(`UpdateSafe`).

* `CallStep`: everything a step of a call can do.
* `progress_run`: where each call stands, and which rows are written, after any schedule.
* `status_replay`: with safe UPDATEs the status is the replay of the points.
* `staysClosed_iff`: closed tasks stay so exactly when every UPDATE is safe.
-/

namespace CivicProof

open Autocommit Autocommit.Prog Autocommit.Pool

/-! ## Replaying actions -/

/-- The status after one more action. On a closed task it has no effect. -/
def TaskStatus.after (status : TaskStatus) (action : ReviewAction) : TaskStatus :=
  if status.terminal then status else action.toStatus

def replay (status : TaskStatus) (actions : List ReviewAction) : TaskStatus :=
  actions.foldl TaskStatus.after status

theorem TaskStatus.after_closed {status : TaskStatus} (h : status.terminal = true)
    (action : ReviewAction) : status.after action = status := by
  rw [after, if_pos h]

/-- On a closed task no list of actions has an effect. -/
theorem replay_of_closed {status : TaskStatus} (h : status.terminal = true)
    (actions : List ReviewAction) : replay status actions = status := by
  induction actions with
  | nil => rfl
  | cons a actions ih =>
    rw [replay, List.foldl_cons, TaskStatus.after_closed h]
    exact ih

theorem replay_concat (status : TaskStatus) (actions : List ReviewAction) (a : ReviewAction) :
    replay status (actions ++ [a]) = (replay status actions).after a := by
  rw [replay, List.foldl_append]
  rfl

theorem replay_append (status : TaskStatus) (actions more : List ReviewAction) :
    replay status (actions ++ more) = replay (replay status actions) more := List.foldl_append

/-- A closing action closes the task for good, wherever it counts. -/
theorem replay_closed {actions : List ReviewAction} {a : ReviewAction} (ha : a ∈ actions)
    (hc : a.toStatus.terminal = true) (status : TaskStatus) :
    (replay status actions).terminal = true := by
  obtain ⟨before, after, rfl⟩ := List.append_of_mem ha
  have hafter : ((replay status before).after a).terminal = true := by
    by_cases h : (replay status before).terminal = true
    · rwa [TaskStatus.after_closed h]
    · rwa [TaskStatus.after, if_neg h]
  have hrest : replay status (before ++ a :: after) =
      replay ((replay status before).after a) after := replay_append status before (a :: after)
  rw [hrest, replay_of_closed hafter]
  exact hafter

/-! ## The pool -/

/-- Calls of `resolveTask` at work on the database. -/
abbrev Reviewers (ι : Type) := Pool ι Stmt Answer (Except PyError (Option ReviewTask)) Db

variable {ι : Type} [DecidableEq ι] {calls : ι → ResolveCall} {taskId : Uuid} {P : Reviewers ι}
  {i : ι}

/-- The calls before any of them has begun. -/
def reviewers (calls : ι → ResolveCall) (d : Db) : Reviewers ι where
  prog i := resolveTask (calls i)
  state := d

/-- The action of a call. -/
def ResolveCall.action (c : ResolveCall) : ReviewAction :=
  (ReviewAction.ofValue? c.decision).getD .annotate

theorem RowOf.action_eq {c : ResolveCall} {row : ActionRow} (h : RowOf c row) :
    c.action = row.action := by
  rw [ResolveCall.action, h.2]
  rfl

/-- The point a call counts from: its UPDATE, or a SELECT of a closed task. -/
def decides (P : Reviewers ι) (i : ι) : Bool :=
  match (P.prog i).next? with
  | some (.updateTask _ _ _) => true
  | some (.selectForUpdate taskId) => ((P.state.statusOf taskId).map (·.terminal)).getD false
  | _ => false

/-- An UPDATE that `i` is about to run finds the task open, or closed with the status it
writes. -/
def UpdateSafe (taskId : Uuid) (P : Reviewers ι) (i : ι) : Prop :=
  ∀ status reviewerId id now, (P.prog i).next? = some (.updateTask status reviewerId id) →
    P.state.statusOf taskId = some now → now.terminal = true → now = status

/-- Once the task is closed its status never changes. -/
def StaysClosed (taskId : Uuid) (P : Reviewers ι) (sched : List ι) : Prop :=
  ∀ p q, p ++ q <+: sched → ∀ status, (P.run exec p).state.statusOf taskId = some status →
    status.terminal = true → (P.run exec (p ++ q)).state.statusOf taskId = some status

/-- The rows of a task replay to its status, in an order of the calls that agrees with real
time. Rows from before the calls come first. -/
def Replays (calls : ι → ResolveCall) (taskId : Uuid) (id : ℕ) (P : Reviewers ι)
    (sched : List ι) : Prop :=
  ∃ order : List (ι × ActionRow),
    ((P.run exec sched).state.actionsOf id).Perm (P.state.actionsOf id ++ order.map (·.2)) ∧
    (∀ e ∈ order, RowOf (calls e.1) e.2) ∧
    (order.map (·.1)).Nodup ∧
    (order.map (·.1)).Pairwise (fun a b => ¬Precedes exec P sched b a) ∧
    (P.run exec sched).state.statusOf taskId =
      some (replay .opened ((P.state.actionsOf id ++ order.map (·.2)).map (·.action)))

/-! ## Steps -/

/-- What a step of a call does, and whether the call counts from it. -/
inductive CallStep (c : ResolveCall) (id : ℕ) (counted : Prop) (P : Reviewers ι) (i : ι) :
    Bool → Reviewers ι → Prop where
  | idle (hend : P.Finished i) : CallStep c id counted P i false P
  | seenClosed {action task} (hp : P.prog i = resolveTask c)
      (ha : ReviewAction.ofValue? c.decision = some action)
      (ht : P.state.findTask c.taskId = some task) (hc : task.status.terminal = true)
      (hn : ¬counted) :
      CallStep c id counted P i true
        (P.advance i (recording c task action (notesDiff c.notes) (.ok (some task))) P.state)
  | seenOpen {action task} (hp : P.prog i = resolveTask c)
      (ha : ReviewAction.ofValue? c.decision = some action)
      (ht : P.state.findTask c.taskId = some task) (ho : task.status.terminal = false)
      (hn : ¬counted) :
      CallStep c id counted P i false (P.advance i (deciding c task action) P.state)
  | decided {action task diff result} (hp : P.prog i = deciding c task action)
      (ha : ReviewAction.ofValue? c.decision = some action) (hid : task.id = id)
      (hn : ¬counted) :
      CallStep c id counted P i true
        (P.advance i (recording c task action diff result)
          (P.state.updateTask action.toStatus (some c.reviewerId) task.id))
  | recorded {action task diff result} (hp : P.prog i = recording c task action diff result)
      (ha : ReviewAction.ofValue? c.decision = some action) (hid : task.id = id)
      (hy : counted) :
      CallStep c id counted P i false
        (P.advance i (.ret result) (P.state.insertAction (c.row task action diff)))

/-- Where a call on the task `id` stands. `counted` says whether its point has passed. -/
inductive Phase (c : ResolveCall) (id : ℕ) :
    (counted : Prop) → ReviewProg (Except PyError (Option ReviewTask)) → Prop where
  | waiting {counted} (hn : ¬counted) : Phase c id counted (resolveTask c)
  | deciding {counted action task} (ha : ReviewAction.ofValue? c.decision = some action)
      (hid : task.id = id) (hn : ¬counted) : Phase c id counted (deciding c task action)
  | recording {counted action task diff result}
      (ha : ReviewAction.ofValue? c.decision = some action) (hid : task.id = id)
      (hy : counted) : Phase c id counted (recording c task action diff result)
  | ended {counted} (result) : Phase c id counted (.ret result)

/-- **Everything a step of a call can do.** -/
theorem callStep_of_phase {c : ResolveCall} {id : ℕ} {counted : Prop} {task : ReviewTask}
    (ht : P.state.findTask c.taskId = some task) (h : Phase c id counted (P.prog i)) :
    CallStep c id counted P i (decides P i) (P.step exec i) := by
  generalize hp : P.prog i = p at h
  cases h with
  | waiting hn =>
    cases ha : ReviewAction.ofValue? c.decision with
    | none =>
      rw [resolveTask_none ha] at hp
      have hd : decides P i = false := by rw [decides, hp]; rfl
      rw [hd, step_ret hp]
      exact .idle (by rw [Finished, hp]; rfl)
    | some action =>
      have hp' := hp
      rw [resolveTask_some ha] at hp'
      have hd : decides P i = task.status.terminal := by
        rw [decides, hp']
        show ((P.state.statusOf c.taskId).map (·.terminal)).getD false = _
        rw [Db.statusOf_of_find ht]
        rfl
      rw [hd, step_call hp']
      show CallStep _ _ _ _ _ _ (P.advance i (selected _ _ (P.state.findTask _)) P.state)
      rw [ht]
      cases hc : task.status.terminal with
      | true =>
        rw [selected_closed hc]
        exact .seenClosed hp ha ht hc hn
      | false =>
        rw [selected_open hc]
        exact .seenOpen hp ha ht hc hn
  | deciding ha hid hn =>
    have hd : decides P i = true := by rw [decides, hp]; rfl
    rw [hd, step_call hp]
    exact .decided hp ha hid hn
  | recording ha hid hy =>
    have hd : decides P i = false := by rw [decides, hp]; rfl
    rw [hd, step_call hp]
    exact .recorded hp ha hid hy
  | ended result =>
    have hd : decides P i = false := by rw [decides, hp]; rfl
    rw [hd, step_ret hp]
    exact .idle (by rw [Finished, hp]; rfl)

/-! ## Progress -/

/-- The rows written so far, by call: one for each call that has counted and ended. -/
structure Written (calls : ι → ResolveCall) (id : ℕ) (old : List ActionRow) (pts : List ι)
    (P : Reviewers ι) (written : List (ι × ActionRow)) : Prop where
  rows : P.state.actionsOf id = old ++ written.map (·.2)
  nodup : (written.map (·.1)).Nodup
  rowOf : ∀ e ∈ written, RowOf (calls e.1) e.2
  mem : ∀ i, i ∈ written.map (·.1) ↔ i ∈ pts ∧ P.Finished i

/-- Where all the calls stand when those in `pts` have counted. -/
structure Progress (calls : ι → ResolveCall) (taskId : Uuid) (id : ℕ) (old : List ActionRow)
    (pts : List ι) (P : Reviewers ι) : Prop where
  found : ∃ task, P.state.findTask taskId = some task ∧ task.id = id
  nodup : pts.Nodup
  phase : ∀ i, Phase (calls i) id (i ∈ pts) (P.prog i)
  written : ∃ written, Written calls id old pts P written

variable {id : ℕ} {old : List ActionRow} {pts pts' : List ι}

theorem finished_advance_of_ne {j : ι} (h : j ≠ i)
    (p : ReviewProg (Except PyError (Option ReviewTask))) (d : Db) :
    (P.advance i p d).Finished j ↔ P.Finished j := by
  unfold Finished
  rw [advance_prog_of_ne h]

theorem finished_advance (p : ReviewProg (Except PyError (Option ReviewTask))) (d : Db) :
    (P.advance i p d).Finished i ↔ p.ended = true := by
  unfold Finished
  rw [advance_prog]

theorem phase_advance (h : ∀ j, Phase (calls j) id (j ∈ pts) (P.prog j))
    (hpts : ∀ j, j ≠ i → (j ∈ pts' ↔ j ∈ pts))
    {p : ReviewProg (Except PyError (Option ReviewTask))} (d : Db)
    (hi : Phase (calls i) id (i ∈ pts') p) (j : ι) :
    Phase (calls j) id (j ∈ pts') ((P.advance i p d).prog j) := by
  by_cases hj : j = i
  · subst hj
    rw [advance_prog]
    exact hi
  · rw [advance_prog_of_ne hj, propext (hpts j hj)]
    exact h j

/-- A step that writes no row and ends no call. -/
theorem Written.keep {written : List (ι × ActionRow)} (h : Written calls id old pts P written)
    (hpts : ∀ j, j ≠ i → (j ∈ pts' ↔ j ∈ pts)) (hi : ¬P.Finished i)
    {p : ReviewProg (Except PyError (Option ReviewTask))} (hp : p.ended = false) {d : Db}
    (hd : d.actionsOf id = P.state.actionsOf id) :
    Written calls id old pts' (P.advance i p d) written where
  rows := hd.trans h.rows
  nodup := h.nodup
  rowOf := h.rowOf
  mem j := by
    rw [h.mem j]
    by_cases hj : j = i
    · subst hj
      rw [finished_advance, hp]
      exact ⟨fun hm => absurd hm.2 hi, fun hm => absurd hm.2 (by decide)⟩
    · rw [finished_advance_of_ne hj, hpts j hj]

theorem Written.insert {written : List (ι × ActionRow)} {row : ActionRow}
    (h : Written calls id old pts P written) (hrow : RowOf (calls i) row)
    (hid : row.taskId = id) (hi : ¬P.Finished i) (hmem : i ∈ pts)
    (result : Except PyError (Option ReviewTask)) :
    Written calls id old pts (P.advance i (.ret result) (P.state.insertAction row))
      (written ++ [(i, row)]) := by
  have hnot : i ∉ written.map (·.1) := fun hm => hi ((h.mem i).1 hm).2
  refine ⟨?_, ?_, ?_, fun j => ?_⟩
  · rw [advance_state, Db.actionsOf_insertAction, if_pos hid, h.rows]
    simp
  · rw [List.map_append, List.nodup_append]
    refine ⟨h.nodup, List.nodup_singleton _, fun a ha b hb hab => hnot ?_⟩
    rw [List.map_singleton, List.mem_singleton] at hb
    rwa [hab, hb] at ha
  · intro e he
    rcases List.mem_append.1 he with he | he
    · exact h.rowOf e he
    · rw [List.mem_singleton.1 he]
      exact hrow
  · rw [List.map_append, List.mem_append, h.mem j]
    by_cases hj : j = i
    · subst hj
      rw [finished_advance]
      exact ⟨fun _ => ⟨hmem, rfl⟩, fun _ => Or.inr (List.mem_singleton.2 rfl)⟩
    · rw [finished_advance_of_ne hj]
      exact or_iff_left fun hm => hj (List.mem_singleton.1 hm)

omit [DecidableEq ι] in
theorem not_finished_of_call {s : Stmt}
    {k : Answer s → ReviewProg (Except PyError (Option ReviewTask))}
    (h : P.prog i = .call s k) : ¬P.Finished i := by
  unfold Finished
  rw [h]
  exact Bool.false_ne_true

/-- **One step**, whoever takes it. -/
theorem Progress.step (h : Progress calls taskId id old pts P)
    (hcalls : ∀ j, (calls j).taskId = taskId) (i : ι) :
    Progress calls taskId id old (pts ++ if decides P i then [i] else []) (P.step exec i) := by
  obtain ⟨task, ht, hid⟩ := h.found
  obtain ⟨written, hw⟩ := h.written
  -- only `i` can get a new point, and no call gets a second one
  have hcount : ∀ j, j ≠ i → (j ∈ pts ++ [i] ↔ j ∈ pts) := by
    intro j hj
    simp [hj]
  have hmem : i ∈ pts ++ [i] := List.mem_append_right _ (List.mem_singleton.2 rfl)
  have hnodup : i ∉ pts → (pts ++ [i]).Nodup := by
    intro hn
    rw [List.nodup_append]
    refine ⟨h.nodup, List.nodup_singleton i, fun a ha b hb hab => hn ?_⟩
    rwa [hab, List.mem_singleton.1 hb] at ha
  have hstep := callStep_of_phase (by rw [hcalls i]; exact ht) (h.phase i)
  generalize decides P i = b, P.step exec i = Q at hstep
  cases hstep with
  | idle hend =>
    rw [if_neg Bool.false_ne_true, List.append_nil]
    exact h
  | seenClosed hp ha hrow hc hn =>
    rw [hcalls i] at hrow
    obtain rfl : task = _ := Option.some.inj (ht.symm.trans hrow)
    rw [resolveTask_some ha] at hp
    exact ⟨h.found, hnodup hn, phase_advance h.phase hcount _ (.recording ha hid hmem),
      written, hw.keep hcount (not_finished_of_call hp) rfl rfl⟩
  | seenOpen hp ha hrow ho hn =>
    rw [hcalls i] at hrow
    obtain rfl : task = _ := Option.some.inj (ht.symm.trans hrow)
    rw [resolveTask_some ha] at hp
    rw [if_neg Bool.false_ne_true, List.append_nil]
    exact ⟨h.found, h.nodup, phase_advance h.phase (fun _ _ => Iff.rfl) _ (.deciding ha hid hn),
      written, hw.keep (fun _ _ => Iff.rfl) (not_finished_of_call hp) rfl rfl⟩
  | @decided action _ _ _ hp ha hid' hn =>
    refine ⟨⟨Db.setTask action.toStatus (some (calls i).reviewerId) task, ?_, hid⟩, hnodup hn,
      phase_advance h.phase hcount _ (.recording ha hid' hmem), written,
      hw.keep hcount (not_finished_of_call hp) rfl rfl⟩
    rw [advance_state, Db.findTask_updateTask, ht, Option.map_some,
      if_pos (hid.trans hid'.symm)]
  | recorded hp ha hid' hy =>
    rw [if_neg Bool.false_ne_true, List.append_nil]
    exact ⟨⟨task, ht, hid⟩, h.nodup, phase_advance h.phase (fun _ _ => Iff.rfl) _ (.ended _), _,
      hw.insert ⟨rfl, ha⟩ hid' (not_finished_of_call hp) hy _⟩

omit [DecidableEq ι] in
theorem progress_init (calls : ι → ResolveCall) {d : Db} {task : ReviewTask}
    (ht : d.findTask taskId = some task) :
    Progress calls taskId task.id (d.actionsOf task.id) [] (reviewers calls d) where
  found := ⟨task, ht, rfl⟩
  nodup := List.nodup_nil
  phase _ := .waiting List.not_mem_nil
  written := ⟨[], (List.append_nil _).symm, List.nodup_nil,
    fun _ he => absurd he List.not_mem_nil,
    fun _ => ⟨fun hm => absurd hm List.not_mem_nil, fun hm => absurd hm.1 List.not_mem_nil⟩⟩

/-- **Where the calls stand after any schedule.** -/
theorem progress_run {d : Db} {task : ReviewTask} (hcalls : ∀ j, (calls j).taskId = taskId)
    (ht : d.findTask taskId = some task) (sched : List ι) :
    Progress calls taskId task.id (d.actionsOf task.id)
      (points exec decides (reviewers calls d) sched) ((reviewers calls d).run exec sched) := by
  refine run_induction (I := fun s Q => Progress calls taskId task.id (d.actionsOf task.id)
      (points exec decides (reviewers calls d) s) Q) (progress_init calls ht) ?_ sched
  intro s i h
  rw [points_concat]
  exact h.step hcalls i

/-! ## Statuses -/

/-- A safe step carries the action of a call that counts from it, and no other. -/
theorem Progress.status_step (h : Progress calls taskId id old pts P)
    (hcalls : ∀ j, (calls j).taskId = taskId) (hsafe : UpdateSafe taskId P i)
    {status : TaskStatus} (hs : P.state.statusOf taskId = some status) :
    (P.step exec i).state.statusOf taskId =
      some (if decides P i then status.after (calls i).action else status) := by
  obtain ⟨task, ht, hid⟩ := h.found
  have hstep := callStep_of_phase (by rw [hcalls i]; exact ht) (h.phase i)
  generalize decides P i = b, P.step exec i = Q at hstep
  cases hstep with
  | idle hend => exact hs
  | seenClosed hp ha hrow hc hn =>
    -- the action counts, and on a closed task it has no effect
    rw [hcalls i] at hrow
    rw [Db.statusOf_of_find hrow] at hs
    obtain rfl := Option.some.inj hs
    rw [if_pos rfl, TaskStatus.after_closed hc]
    exact Db.statusOf_of_find hrow
  | seenOpen hp ha hrow ho hn => exact hs
  | @decided action row _ _ hp ha hid' hn =>
    rw [if_pos rfl, advance_state, hid', ← hid, Db.statusOf_updateTask ht]
    congr 1
    have haction : (calls i).action = action := by
      rw [ResolveCall.action, ha]
      rfl
    -- the UPDATE writes its status blindly; safety makes that what a replay gives
    by_cases hc : status.terminal = true
    · have hsame := hsafe action.toStatus (some (calls i).reviewerId) row.id status
        (by rw [hp]; rfl) hs hc
      rw [TaskStatus.after_closed hc, hsame]
    · rw [TaskStatus.after, if_neg hc, haction]
  | recorded hp ha hid' hy => exact hs

theorem Progress.closed_step (h : Progress calls taskId id old pts P)
    (hcalls : ∀ j, (calls j).taskId = taskId) (hsafe : UpdateSafe taskId P i)
    {status : TaskStatus} (hs : P.state.statusOf taskId = some status)
    (hc : status.terminal = true) : (P.step exec i).state.statusOf taskId = some status := by
  rw [h.status_step hcalls hsafe hs, TaskStatus.after_closed hc, ite_self]

/-- An UPDATE that leaves a closed task as it is was safe. -/
theorem Progress.safe_of_closed (h : Progress calls taskId id old pts P)
    (hstays : ∀ status, P.state.statusOf taskId = some status → status.terminal = true →
      (P.step exec i).state.statusOf taskId = some status) : UpdateSafe taskId P i := by
  intro status reviewerId id' now hnext hnow hc
  obtain ⟨task, ht, hid⟩ := h.found
  have hafter := hstays now hnow hc
  have hphase := h.phase i
  generalize hp : P.prog i = p at hphase
  rw [hp] at hnext
  cases hphase with
  | waiting hn =>
    cases ha : ReviewAction.ofValue? (calls i).decision with
    | none =>
      rw [resolveTask_none ha] at hnext
      cases hnext
    | some action =>
      rw [resolveTask_some ha] at hnext
      cases hnext
  | @deciding action row ha hid' hn =>
    cases hnext
    rw [step_call hp] at hafter
    have hset : (P.state.updateTask action.toStatus (some (calls i).reviewerId) row.id).statusOf
        taskId = some action.toStatus := by
      rw [hid', ← hid]
      exact Db.statusOf_updateTask ht
    exact Option.some.inj (hafter.symm.trans hset)
  | recording ha hid' hy => cases hnext
  | ended result => cases hnext

/-- **With safe UPDATEs the status is the replay of the points.** -/
theorem status_replay {d : Db} {task : ReviewTask} (hcalls : ∀ j, (calls j).taskId = taskId)
    (ht : d.findTask taskId = some task) (sched : List ι)
    (hsafe : EachStep exec (UpdateSafe taskId) (reviewers calls d) sched) :
    ((reviewers calls d).run exec sched).state.statusOf taskId =
      some (replay task.status ((points exec decides (reviewers calls d) sched).map
        fun i => (calls i).action)) := by
  refine run_induction_of (I := fun s Q => Q.state.statusOf taskId =
      some (replay task.status ((points exec decides (reviewers calls d) s).map
        fun i => (calls i).action))) (Db.statusOf_of_find ht) ?_ sched hsafe
  intro s i hs hi
  rw [(progress_run hcalls ht s).status_step hcalls hi hs, points_concat]
  by_cases hd : decides ((reviewers calls d).run exec s) i = true
  · rw [if_pos hd, if_pos hd, List.map_append, List.map_singleton, replay_concat]
  · rw [if_neg hd, if_neg hd, List.append_nil]

/-- **Closed tasks stay so** exactly when every UPDATE is safe. -/
theorem staysClosed_iff {d : Db} {task : ReviewTask} (hcalls : ∀ j, (calls j).taskId = taskId)
    (ht : d.findTask taskId = some task) (sched : List ι) :
    StaysClosed taskId (reviewers calls d) sched ↔
      EachStep exec (UpdateSafe taskId) (reviewers calls d) sched := by
  constructor
  · intro h p i hp
    refine (progress_run hcalls ht p).safe_of_closed fun status hs hc => ?_
    rw [← run_concat]
    exact h p [i] hp status hs hc
  · intro h p q hpq status hs hc
    induction q using List.reverseRecOn with
    | nil => rwa [List.append_nil]
    | append_singleton q i ih =>
      rw [← List.append_assoc] at hpq ⊢
      have hbefore := ih ((List.prefix_append _ [i]).trans hpq)
      rw [run_concat]
      exact (progress_run hcalls ht (p ++ q)).closed_step hcalls (h _ i hpq) hbefore hc

omit [DecidableEq ι] in
theorem not_finished_of_decides (P : Reviewers ι) (i : ι) (h : decides P i = true) :
    ¬P.Finished i := by
  cases hp : P.prog i with
  | ret a =>
    rw [decides, hp] at h
    cases h
  | call s k => exact not_finished_of_call hp

/-- **At quiescence the rows replay** in the order of the points, when every UPDATE was
safe. -/
theorem replays_of_safe {d : Db} {task : ReviewTask} (hcalls : ∀ j, (calls j).taskId = taskId)
    (ht : d.findTask taskId = some task)
    (hold : task.status = replay .opened ((d.actionsOf task.id).map (·.action)))
    (sched : List ι) (hsafe : EachStep exec (UpdateSafe taskId) (reviewers calls d) sched)
    (hq : ((reviewers calls d).run exec sched).Quiescent) :
    Replays calls taskId task.id (reviewers calls d) sched := by
  have hprog := progress_run hcalls ht sched
  obtain ⟨written, hw⟩ := hprog.written
  -- every call that counted has ended, so it has its row
  have hperm : (points exec decides (reviewers calls d) sched).Perm (written.map (·.1)) := by
    rw [List.perm_ext_iff_of_nodup hprog.nodup hw.nodup]
    intro i
    rw [hw.mem i]
    exact ⟨fun hi => ⟨hi, hq i⟩, fun hi => hi.1⟩
  -- the written rows in the order of the points
  obtain ⟨order, hpts, horder⟩ : ∃ order : List (ι × ActionRow),
      points exec decides (reviewers calls d) sched = order.map (·.1) ∧ order.Perm written :=
    (congrFun (congrFun (List.eq_map_comp_perm Prod.fst) _) written).mpr hperm
  have hrowOf : ∀ e ∈ order, RowOf (calls e.1) e.2 := fun e he =>
    hw.rowOf e (horder.mem_iff.1 he)
  refine ⟨order, ?_, hrowOf, ?_, ?_, ?_⟩
  · rw [hw.rows]
    exact List.Perm.append_left _ (horder.symm.map _)
  · rw [← hpts]
    exact hprog.nodup
  · rw [← hpts]
    exact points_realtime not_finished_of_decides sched
  · have hactions : order.map (fun e => (calls e.1).action) = order.map fun e => e.2.action :=
      List.map_congr_left fun e he => (hrowOf e he).action_eq
    rw [status_replay hcalls ht sched hsafe, hpts, List.map_map, List.map_append, List.map_map,
      replay_append, hold]
    congr 2

/-- **Concurrent reviewers.** A closed task keeps its status and at quiescence the rows replay
to it, exactly when every UPDATE finds the task open or closed with the status it writes. -/
theorem concurrent_reviews (calls : ι → ResolveCall) (taskId : Uuid) (d : Db)
    (task : ReviewTask) (hcalls : ∀ j, (calls j).taskId = taskId)
    (ht : d.findTask taskId = some task)
    (hold : task.status = replay .opened ((d.actionsOf task.id).map (·.action)))
    (sched : List ι) :
    (StaysClosed taskId (reviewers calls d) sched ∧
      (((reviewers calls d).run exec sched).Quiescent →
        Replays calls taskId task.id (reviewers calls d) sched)) ↔
      EachStep exec (UpdateSafe taskId) (reviewers calls d) sched := by
  rw [staysClosed_iff hcalls ht]
  exact ⟨fun h => h.1, fun h => ⟨h, replays_of_safe hcalls ht hold sched h⟩⟩

/-! ## Two reviewers -/

def approveAnnotate (b : Bool) : ResolveCall where
  taskId := sampleTask.taskId
  decision := if b then "approve" else "annotate"
  reviewerId := if b then "rev_1" else "rev_2"
  actionId := if b then sampleUuid 1 else sampleUuid 2
  now := "2026-04-22T10:00:00+00:00"

/-- One after the other: the annotation finds the task resolved. -/
theorem concurrent_reviews_serial :
    StaysClosed sampleTask.taskId (reviewers approveAnnotate (sampleDb sampleTask))
        [true, true, true, false, false] ∧
      (((reviewers approveAnnotate (sampleDb sampleTask)).run exec
          [true, true, true, false, false]).Quiescent →
        Replays approveAnnotate sampleTask.taskId sampleTask.id
          (reviewers approveAnnotate (sampleDb sampleTask)) [true, true, true, false, false]) := by
  refine (concurrent_reviews approveAnnotate sampleTask.taskId (sampleDb sampleTask) sampleTask
    (fun _ => rfl) rfl rfl [true, true, true, false, false]).2 ?_
  simp only [eachStep_cons, eachStep_nil, and_true]
  refine ⟨?_, ?_, ?_, ?_, ?_⟩
  · intro status reviewerId id now hnext
    cases hnext
  · -- the UPDATE of the approval finds the task open
    intro status reviewerId id now hnext hnow hc
    cases hnext
    cases hnow
    cases hc
  · intro status reviewerId id now hnext
    cases hnext
  · intro status reviewerId id now hnext
    cases hnext
  · intro status reviewerId id now hnext
    cases hnext

/-- **A resolved task is reopened**: both reviewers find it open, and the annotation is written
after the approval. -/
theorem concurrent_reviews_reopen :
    let P := reviewers approveAnnotate (sampleDb sampleTask)
    let sched := [true, false, true, false, true, false]
    (P.run exec sched).Quiescent ∧ ¬StaysClosed sampleTask.taskId P sched ∧
      ¬Replays approveAnnotate sampleTask.taskId sampleTask.id P sched := by
  intro P sched
  refine ⟨?_, ?_, ?_⟩
  · rintro (_ | _) <;> rfl
  · intro h
    have hopen := h [true, false, true] [false, true, false] (List.prefix_refl _) .resolved rfl rfl
    cases hopen
  · rintro ⟨order, hperm, -, -, -, hreplay⟩
    have hmem : ReviewAction.approve ∈
        (P.state.actionsOf sampleTask.id ++ order.map (·.2)).map (·.action) :=
      (hperm.map (·.action)).mem_iff.1 (List.mem_cons_self ..)
    have hclosed := replay_closed hmem rfl .opened
    have hstatus := Option.some.inj hreplay
    rw [← hstatus] at hclosed
    cases hclosed

end CivicProof
