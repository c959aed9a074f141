import CivicProof.Spec.Declaration
import CivicProof.Transact.Checked

/-!
# The tables of the migrations

The tables that reviews and statements are stored in, each with the constraints its migration has
given it, and the functions that write them: `openReviewTask` and `persistStatement`.
-/

namespace CivicProof

open Transact

/-! ## What a `jsonb` column can hold -/

mutual

/-- A value that a `jsonb` column can hold. -/
def Json.storable : Json → Bool
  | .str s => storableText s
  | .list l => Json.storableList l
  | .obj fields => Json.storableFields fields
  | .null | .bool _ | .int _ | .num _ => true

/-- The elements of a list. -/
def Json.storableList : List Json → Bool
  | [] => true
  | x :: l => x.storable && Json.storableList l

/-- The fields of an object. -/
def Json.storableFields : List (String × Json) → Bool
  | [] => true
  | (k, x) :: l => storableText k && x.storable && Json.storableFields l

end

/-! ## Review tasks -/

/-- The wire name of a kind of task. -/
def TaskKind.name : TaskKind → String
  | .entityResolution => "entity_resolution"
  | .verdict => "verdict"
  | .conflict => "conflict"
  | .declaration => "declaration"

/-- The kinds that `open_review_task` lets through. -/
def openTaskKinds : List String := ["entity_resolution", "verdict", "conflict", "declaration"]

/-- The kinds of `review_tasks_kind_check`. -/
def reviewTasksKindCheck : List String := ["entity_resolution", "verdict", "conflict"]

/-- What `review_tasks` asks of a row. Its check on the status lets every status through. -/
def ReviewTask.Check (t : ReviewTask) : Prop :=
  t.kind.name ∈ reviewTasksKindCheck ∧
    ∀ e ∈ t.payload.entries, storableText e.1 = true ∧ e.2.storable = true

instance : DecidablePred ReviewTask.Check := fun t =>
  inferInstanceAs (Decidable (t.kind.name ∈ reviewTasksKindCheck ∧
    ∀ e ∈ t.payload.entries, storableText e.1 = true ∧ e.2.storable = true))

/-- `review_tasks`. -/
abbrev ReviewTasks := Checked ReviewTask Uuid ReviewTask.Check ReviewTask.taskId

/-- What the database fills in for a new task, and the id that `open_review_task` draws. -/
structure TaskStamp where
  id : ℕ
  taskId : Uuid
  createdAt : String

/-- The row of a new task. -/
def NewTask.row (task : NewTask) (stamp : TaskStamp) : ReviewTask where
  id := stamp.id
  taskId := stamp.taskId
  kind := task.kind
  status := .opened
  priority := task.priority
  payload := task.payload
  createdAt := stamp.createdAt

/-- `open_review_task`. -/
def openReviewTask (stamp : TaskStamp) (task : NewTask) : Eff ReviewTasks Unit := fun tasks =>
  if task.kind.name ∉ openTaskKinds then (.error .valueError, tasks)
  else match tasks.insert (task.row stamp) with
    | some tasks' => (.ok (), tasks')
    -- a constraint is broken
    | none => (.error .external, tasks)

/-! ## Statements -/

/-- The wire name of a language. -/
def Language.name : Language → String
  | .he => "he"
  | .en => "en"

/-- The wire name of a method. -/
def Method.name : Method → String
  | .rules => "rules"
  | .llm => "llm"

/-- The wire name of a granularity. -/
def Granularity.name : Granularity → String
  | .day => "day"
  | .month => "month"
  | .year => "year"
  | .term => "term"
  | .unknown => "unknown"

/-- A text or null. -/
def textOrNull (s : Option String) : Json := (s.map Json.str).getD .null

/-- `model_dump` of a time scope. -/
def TimeScope.fields (s : TimeScope) : List (String × Json) :=
  [("start", textOrNull s.start), ("end", textOrNull s.stop), ("granularity", .str s.granularity.name)]

/-- `StatementRecord`; also a row of `statements`. -/
structure StatementRecord where
  statementId : String
  rawText : String
  language : String
  speakerHint : Option String := none
  sourceUrl : Option String := none
  sourceFamily : Option String := none
  metadata : List (String × Json) := []

/-- The texts of a statement can be stored. -/
def StatementRecord.Storable (s : StatementRecord) : Prop :=
  (∀ text ∈ [some s.rawText, s.speakerHint, s.sourceUrl, s.sourceFamily].filterMap id,
    storableText text = true) ∧ (Json.obj s.metadata).storable = true

/-- What `statements` asks of a row (`statements_language_check`). -/
def StatementRecord.Check (s : StatementRecord) : Prop := s.language ∈ ["he", "en"] ∧ s.Storable

instance : DecidablePred StatementRecord.Check := fun _ =>
  inferInstanceAs (Decidable (_ ∧ _ ∧ _))

/-- A row of `statement_claims`. -/
structure StatementClaim where
  statementId : String
  claimId : String
  claimType : String
  checkability : String
  method : String
  slots : Json
  timeScope : Json

/-- What `statement_claims` asks of a row: its checks on the type, the checkability and the method,
and values that `jsonb` can hold. -/
structure StatementClaim.Check (c : StatementClaim) : Prop where
  claimType : c.claimType ∈ ["vote_cast", "bill_sponsorship", "office_held", "committee_membership",
    "committee_attendance", "statement_about_formal_action"]
  checkability : c.checkability ∈ ["checkable", "non_checkable", "insufficient_time_scope",
    "insufficient_entity_resolution"]
  method : c.method ∈ ["rules", "llm", "rules+llm"]
  slots : c.slots.storable = true
  timeScope : c.timeScope.storable = true

instance : DecidablePred StatementClaim.Check := fun _ =>
  decidable_of_iff (_ ∧ _ ∧ _ ∧ _ ∧ _)
    ⟨fun ⟨h₁, h₂, h₃, h₄, h₅⟩ => ⟨h₁, h₂, h₃, h₄, h₅⟩, fun ⟨h₁, h₂, h₃, h₄, h₅⟩ => ⟨h₁, h₂, h₃, h₄, h₅⟩⟩

/-- The key of `uq_statement_claim`. -/
def StatementClaim.key (c : StatementClaim) : String × String := (c.statementId, c.claimId)

/-- The tables of migration 0006, with the foreign key of the second. -/
structure StatementTables where
  statements : Checked StatementRecord String StatementRecord.Check StatementRecord.statementId
  claims : Checked StatementClaim (String × String) StatementClaim.Check StatementClaim.key
  statement_mem : ∀ c ∈ claims.rows, c.statementId ∈ statements.rows.map (·.statementId)

namespace StatementTables

/-- `INSERT INTO statements … ON CONFLICT DO NOTHING`. -/
def insertStatement (row : StatementRecord) : Eff StatementTables Unit := fun t =>
  match h : t.statements.insertNew row with
  | none => (.error .external, t)
  | some statements => (.ok (),
    { t with
      statements := statements
      statement_mem := fun c hc => by
        obtain ⟨s, hs, hid⟩ := List.mem_map.1 (t.statement_mem c hc)
        exact List.mem_map.2 ⟨s, Checked.mem_insertNew h hs, hid⟩ })

/-- `INSERT INTO statement_claims … ON CONFLICT DO NOTHING`. -/
def insertClaim (row : StatementClaim) : Eff StatementTables Unit := fun t =>
  if hfk : row.statementId ∈ t.statements.rows.map (·.statementId) then
    match h : t.claims.insertNew row with
    | none => (.error .external, t)
    | some claims => (.ok (),
      { t with
        claims := claims
        statement_mem := fun c hc => by
          rw [Checked.insertNew_rows h] at hc
          split at hc
          · exact t.statement_mem c hc
          · rcases List.mem_append.1 hc with hc | hc
            · exact t.statement_mem c hc
            · rwa [List.mem_singleton.1 hc] })
  else (.error .external, t)

end StatementTables

/-- The slots of a claim as JSON. -/
def slotsJson (slots : Slots) : Json := .obj (Slot.keys.map fun s => (s.name, textOrNull (slots s)))

/-- The row of a claim. -/
def DecomposedClaim.row (statementId : String) (checkabilityByClaim : String → Option String)
    (timeScopeByClaim : String → Option (List (String × Json))) (claim : DecomposedClaim) :
    StatementClaim where
  statementId := statementId
  claimId := claim.claimId
  claimType := claim.claimType.name
  checkability := (checkabilityByClaim claim.claimId).getD "non_checkable"
  method := claim.method.name
  slots := slotsJson claim.slots
  timeScope := .obj ((timeScopeByClaim claim.claimId).getD [])

/-- `persist_statement`. It returns how many claims it has persisted. -/
def persistStatement (statement : StatementRecord) (claims : List DecomposedClaim)
    (checkabilityByClaim : String → Option String)
    (timeScopeByClaim : String → Option (List (String × Json))) : Eff StatementTables ℕ := do
  StatementTables.insertStatement statement
  Eff.forList (fun n claim => do
    StatementTables.insertClaim
      (claim.row statement.statementId checkabilityByClaim timeScopeByClaim)
    return n + 1) 0 claims

end CivicProof
