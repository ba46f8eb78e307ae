import AnonReq.Audit.Emit
import AnonReq.Pipeline.Routes

/-!
# The two entry points of a chat request

`PipelineContentDispatcher.dispatch` of `proxy/pipeline_dispatcher.py` next to `chat_completions` of
`routing/chat.py`: both run the pipeline of the application on a context of their own making, with
the stages after the provider, which restore the response and write the audit event.

* `db_dispatch`: whatever the stages do, the dispatcher leaves the audit chain as it is.
* `dispatch_response_iff`: the dispatcher returns a response when no stage fails.
* `not_sameEffect`: the two entry points never have the same effect.
-/

namespace AnonReq.Proxy

open Pipeline

universe u v

/-! ### The context -/

/-- The audit chain: the hash of its events, its configuration, and the library functions that the
emission uses. -/
structure AuditChain where
  H : List (String × Audit.Json) → String
  retentionDays : ℤ := 2557
  auditWriteAttempts : ℤ := 3
  uuid5 : String → String
  dumps : Audit.EmitMetadata → String

/-- The emission of one call. -/
def AuditChain.setting (A : AuditChain) (ctx : Audit.EmitContext) : Audit.EmitSetting Unit where
  H := A.H
  retentionDays := A.retentionDays
  auditWriteAttempts := A.auditWriteAttempts
  uuid5 := A.uuid5
  dumps := A.dumps
  context _ := ctx

/-- The other fields of a `ProcessingContext` that the stages after the provider use, and the table
of the audit chain. -/
structure EntryData (Λ : Type u) where
  chat : RequestData Λ
  requestId : Audit.RequestId
  auditChain : Option AuditChain := none
  restoredResponse : Option Json := none
  db : Audit.Database

variable {Λ : Type u} {β : Type v}

/-- The stages of an entry point. -/
abbrev EntryStage (Λ : Type u) (β : Type v) := PipelineStage (EntryData Λ) StageError β

/-- A stage that uses the fields of the chat pipeline only. -/
def lifted (s : ChatStage Λ β) : EntryStage Λ β where
  guaranteed := s.guaranteed
  execute ctx :=
    let out := s.execute ⟨ctx.data.chat, ctx.errors⟩
    ⟨{ ctx.data with chat := out.data }, out.recorded, out.ending⟩

/-! ### The stages after the provider -/

/-- `obj.get(key, default)`, which only a dictionary has. -/
def getOr (key : String) (default : Json) : Json → Except Text Json
  | .object fields => .ok ((Dict.get fields (name key)).getD default)
  | _ => .error (name "AttributeError")

/-- What a loop over a value runs through. The items of a dictionary or a text are texts. -/
def iterate : Json → Except Text (List Json)
  | .list items => .ok items
  | .object fields => .ok (fields.map fun field => .text field.1)
  | .text s => .ok (s.map fun c => .text [c])
  | _ => .error (name "TypeError")

/-- A content, which can be joined with others if it is a text. -/
def joined : Json → Except Text Text
  | .text s => .ok s
  | _ => .error (name "TypeError")

/-- `_extract_response_text`, or the name of the exception that it raises. -/
def extractResponseText (providerResponse : Option Json) : Except Text Text :=
  match providerResponse.filter Json.truthy with
  | none => .ok []
  | some response => do
    let choices ← iterate (← getOr "choices" (.list []) response)
    let contents ← choices.mapM fun choice => do
      getOr "content" (.text []) (← getOr "message" (.object []) choice)
    let texts ← (contents.filter Json.truthy).mapM joined
    .ok (['\n'].intercalate texts)

/-- `OutboundDLPStage`. The engine says of a text of a tenant whether it is blocked. -/
def outboundDlpStage (dlpEngine : Option (Text → Text → Except StageError Bool)) :
    EntryStage Λ β where
  guaranteed := false
  execute ctx :=
    match dlpEngine with
    | none => .done ctx.data
    | some inspect =>
      match extractResponseText ctx.data.chat.providerResponse with
      | .error typeName => .raised ctx.data (.other typeName)
      | .ok text =>
        if text = [] then .done ctx.data
        else
          match inspect text ctx.data.chat.tenantId with
          | .error error => .raised ctx.data error
          | .ok true => .failed ctx.data (.abort 451 (name "Outbound DLP blocked response"))
          | .ok false => .done ctx.data

/-- The classification asks for no restoration. -/
def skipsRestoration (classificationResult : Option Fields) : Bool :=
  match (classificationResult.getD []).lookup (name "action") with
  | some action => isAction action (name "PASS") || isAction action (name "BLOCK")
  | none => false

/-- `RestorationStage`. A restorer that fails with a `PipelineAbortError` raises it. -/
def restorationStage (restore : Json → List (Text × Text) → Except StageError Json) :
    EntryStage Λ β where
  guaranteed := false
  execute ctx :=
    if skipsRestoration ctx.data.chat.classificationResult then .done ctx.data
    else
      match ctx.data.chat.providerResponse with
      | none => .failed ctx.data (.abort 500 (name "No provider response to restore"))
      | some response =>
        match restore response (ctx.data.chat.tokenMappings.getD []) with
        | .ok restored => .done { ctx.data with restoredResponse := some restored }
        | .error (.abort statusCode message) =>
          .raised ctx.data (.abort statusCode message)
        | .error _ => .failed ctx.data (.abort 500 (name "Restoration stage failed"))

/-- A text of a dictionary. -/
def textOf (fields : Fields) (key : String) : Option String :=
  match Dict.get fields (name key) with
  | some (.text s) => some (String.ofList s)
  | _ => none

/-- How often each entity type was detected. -/
def entityCounts (detections : List NodeDetection) : List (String × ℕ) :=
  detections.foldl
    (fun counts d =>
      let entityType := String.ofList d.detection.entityType
      Dict.set counts entityType ((Dict.get counts entityType).getD 0 + 1))
    []

/-- What `emit_anonymization_audit` reads of the context. -/
def emitContext (data : EntryData Λ) : Audit.EmitContext where
  tenantId := String.ofList data.chat.tenantId
  requestId := data.requestId
  hasAuditChain := data.auditChain.isSome
  operatorId := textOf data.chat.auditMetadata "operator_id"
  provider := data.chat.provider.map String.ofList
  classificationAction := textOf (data.chat.classificationResult.getD []) "action"
  metadata :=
    { entityCounts := entityCounts (data.chat.detections.getD [])
      tokenCount := (data.chat.tokenMappings.getD []).length
      locale := textOf data.chat.auditMetadata "locale"
      model := data.chat.model.map String.ofList
      compliancePreset := textOf data.chat.auditMetadata "compliance_preset" }

/-- What happens in a write attempt: its time, the id that is drawn, and its end. -/
structure Attempt where
  now : Audit.UtcTime
  fresh : String
  outcome : Audit.Outcome

/-- `emit_anonymization_audit`: all attempts there are. One that comes after the call has returned
does nothing. -/
def emitAnonymizationAudit (A : AuditChain) (ctx : Audit.EmitContext) (attempts : ℕ → Attempt)
    (db : Audit.Database) : Audit.EmitState Unit :=
  Audit.emitRun (A.setting ctx)
    { db := db, status := fun _ => if ctx.hasAuditChain then .running 1 else .returned }
    ((List.range ((A.setting ctx).maxAttempts ctx).toNat).map fun n =>
      .attempt () (attempts n).now (attempts n).fresh (attempts n).outcome)

/-- `CleanupStage`, which runs after a failure too. The mapping in the cache is not modelled. -/
def cleanupStage (attempts : ℕ → Attempt) : EntryStage Λ β where
  guaranteed := true
  execute ctx :=
    match ctx.data.auditChain with
    | none => .done ctx.data
    | some A =>
      let s := emitAnonymizationAudit A (emitContext ctx.data) attempts ctx.data.db
      match s.status () with
      | .returned => .done { ctx.data with db := s.db }
      | _ => .raised { ctx.data with db := s.db } (.abort 500 (name "Audit write failed"))

/-! ### The entry points -/

/-- The application state: the pipeline with its collaborators, and what the entry points read. -/
structure EntryState (Λ : Type u) where
  engines : Engines Λ
  gates : AppState Λ
  unicode : Unicode
  aliasRegistry : Option AliasRegistry
  post : Json → Except StageError Json
  outboundDlp : Option (Text → Text → Except StageError Bool)
  restore : Json → List (Text × Text) → Except StageError Json
  auditChain : Option AuditChain
  activeCompliancePresets : List Text := []
  localeHeader : Option Text := none
  db : Audit.Database

/-- What is drawn in a run: the identifiers, the random bits of the session, and the attempts to
write the audit event. -/
structure Draws where
  requestId : Audit.RequestId
  contextId : Text
  randomBits : Fin (2 ^ 64)
  attempts : ℕ → Attempt

/-- The stages in front of the provider. -/
def frontStages (state : EntryState Λ) (randomBits : Fin (2 ^ 64)) : List (EntryStage Λ β) :=
  (buildPreProviderPipeline state.engines (some state.gates) randomBits).map lifted

/-- The pipeline of the application. -/
def entryPipeline (state : EntryState Λ) (draws : Draws) : List (EntryStage Λ β) :=
  frontStages state draws.randomBits ++
    [lifted (providerStage state.unicode state.aliasRegistry state.post),
     outboundDlpStage state.outboundDlp,
     restorationStage state.restore,
     cleanupStage draws.attempts]

/-- The context of a dispatched request. The audit chain, the model, the classification that the
client asserts and the compliance presets are not set. -/
def dispatchContext (state : EntryState Λ) (bodyDict : Fields) (tenantId : Text) (draws : Draws) :
    ProcessingContext (EntryData Λ) StageError where
  data :=
    { chat :=
        { tenantId := tenantId
          contextId := draws.contextId
          originalRequest := .object bodyDict
          textNodes := extract (.object bodyDict)
          localeHeader := state.localeHeader.filter fun header => !header.isEmpty }
      requestId := draws.requestId
      db := state.db }
  errors := []

/-- What `dispatch` returns: one of its fixed errors, or the text of a response. -/
inductive Reply where
  | unsupportedMediaType
  | failClosed
  | languageUnsupported (language : Text)
  | response (body : Json)

/-- What `dispatch` makes of the finished context. -/
def replyOf (ctx : ProcessingContext (EntryData Λ) StageError) : Reply :=
  match ctx.errors.getLast? with
  | some (.languageUnsupported language) => .languageUnsupported language
  | some _ => .failClosed
  | none =>
    match ctx.data.restoredResponse, ctx.data.chat.providerResponse with
    | some restored, _ => .response restored
    | none, some response => .response response
    | none, none => .failClosed

/-- `dispatch`, with what `json.loads` makes of the body: the reply and the table of the audit
chain, unless a cancellation leaves it. -/
def dispatch (state : EntryState Λ) (loads : List UInt8 → Option Json) (contentType : Text)
    (body : List UInt8) (tenantId : Text) (draws : Draws) :
    Except β (Reply × Audit.Database) :=
  if ¬ name "application/json" <+: contentType ∨ body = [] then
    .ok (.unsupportedMediaType, state.db)
  else
    match loads body with
    | some (.object bodyDict) =>
      (run (entryPipeline state draws) (dispatchContext state bodyDict tenantId draws)).1.map
        fun ctx => (replyOf ctx, ctx.data.db)
    | _ => .ok (.failClosed, state.db)

/-- The context of a request of the chat route. -/
def chatContext (state : EntryState Λ) (request : ChatRequest) (info : RequestInfo)
    (draws : Draws) : ProcessingContext (EntryData Λ) StageError where
  data :=
    { chat := (newProcessingContext Λ request
        { info with
          contextId := draws.contextId
          activeCompliancePresets := state.activeCompliancePresets }).data
      requestId := draws.requestId
      auditChain := state.auditChain
      db := state.db }
  errors := []

/-- What `chat_completions` makes of the finished context. `validate` is the validation of the
response, which is raised if it fails. -/
def serve (validate : Json → Option Json) (ctx : ProcessingContext (EntryData Λ) StageError) :
    Except Rejection Json :=
  match raiseForPipelineErrors ctx.errors with
  | some rejection => .error rejection
  | none =>
    let action := actionOf (ctx.data.chat.classificationResult.getD [])
    if isAction action (name "BLOCK") then .error (.http 403 (name "Request blocked by policy"))
    else if isAction action (name "ROUTE_LOCAL") then
      .error (.http 501 (name "ROUTE_LOCAL not yet implemented"))
    else
      let restored := ctx.data.restoredResponse.filter fun response =>
        isAction action (name "ANONYMIZE") && response.truthy
      match restored.or (ctx.data.chat.providerResponse.filter Json.truthy) with
      | none => .error (.http 500 (name "No response produced"))
      | some response =>
        match validate response with
        | none => .error (.exception (name "ValidationError"))
        | some validated => .ok validated

/-- `chat_completions` of a request that does not ask for a stream: what it returns or raises, and
the table of the audit chain, unless a cancellation leaves it. -/
def chatCompletions (state : EntryState Λ) (validate : Json → Option Json)
    (request : {request : ChatRequest // request.stream = false}) (info : RequestInfo)
    (draws : Draws) : Except β (Except Rejection Json × Audit.Database) :=
  (run (entryPipeline state draws) (chatContext state request info draws)).1.map fun ctx =>
    (serve validate ctx, ctx.data.db)

/-! ### What the stages keep -/

/-- A call leaves alone who sent the request and its id, and the audit chain with its table. -/
structure Kept (before after : EntryData Λ) : Prop where
  tenantId : after.chat.tenantId = before.chat.tenantId
  requestId : after.requestId = before.requestId
  auditChain : after.auditChain = before.auditChain
  db : after.db = before.db

theorem Kept.refl (data : EntryData Λ) : Kept data data := ⟨rfl, rfl, rfl, rfl⟩

theorem Kept.trans {a b c : EntryData Λ} (h : Kept a b) (h' : Kept b c) : Kept a c :=
  ⟨h'.tenantId.trans h.tenantId, h'.requestId.trans h.requestId,
    h'.auditChain.trans h.auditChain, h'.db.trans h.db⟩

/-- The stage always leaves alone what `Kept` says, and no cancellation leaves it. -/
def Keeping (s : EntryStage Λ β) : Prop :=
  ∀ ctx, Kept ctx.data (s.execute ctx).data ∧ ∀ error, (s.execute ctx).ending ≠ .baseException error

theorem keeping_lifted {s : ChatStage Λ β}
    (htenant : ∀ ctx, (s.execute ctx).data.tenantId = ctx.data.tenantId)
    (hbase : ∀ ctx error, (s.execute ctx).ending ≠ .baseException error) :
    Keeping (lifted s) := fun ctx =>
  ⟨⟨htenant ⟨ctx.data.chat, ctx.errors⟩, rfl, rfl, rfl⟩, hbase ⟨ctx.data.chat, ctx.errors⟩⟩

/-- The stages in front of the provider leave alone who sent the request. -/
theorem tenantId_buildPreProviderPipeline (engines : Engines Λ) (appState : Option (AppState Λ))
    (randomBits : Fin (2 ^ 64)) :
    ∀ s ∈ (buildPreProviderPipeline engines appState randomBits : List (ChatStage Λ β)), ∀ ctx,
      (s.execute ctx).data.tenantId = ctx.data.tenantId := by
  intro s hs
  obtain hs | hs := List.mem_append.mp hs
  · obtain hs | hs := List.mem_append.mp hs
    · exact fun ctx => (proper_prepareStages engines s hs ctx).1.tenantId
    · exact fun ctx => (proper_gateStages engines appState s hs ctx).1.tenantId
  · simp only [sealStages, List.mem_cons, List.not_mem_nil, or_false] at hs
    obtain rfl | rfl := hs
    · intro ctx
      simp only [tokenizationStage, stage]
      split_ifs
      · rfl
      · rfl
      · split <;> rfl
      · split
        · rfl
        · split
          · -- however the failure surfaces, the data are the same
            rename_i stored _
            rcases stored <;> rfl
          · rfl
    · intro ctx
      simp only [forwardingGuard, stage]
      split_ifs <;> rfl

theorem keeping_providerStage (unicode : Unicode) (aliasRegistry : Option AliasRegistry)
    (post : Json → Except StageError Json) :
    Keeping (lifted (providerStage unicode aliasRegistry post) : EntryStage Λ β) := by
  refine keeping_lifted (fun ctx => ?_) fun ctx error => ?_
  · simp only [providerStage, stage]
    split
    · rfl
    · split_ifs
      · rfl
      · split
        · split <;> rfl
        · split
          · rfl
          · split <;> rfl
  · simp only [providerStage, stage]
    split
    · exact returned_ne_baseException error
    · split_ifs
      · exact returned_ne_baseException error
      · split
        · split <;> exact returned_ne_baseException error
        · split
          · exact returned_ne_baseException error
          · split <;> exact returned_ne_baseException error

theorem keeping_outboundDlpStage (dlpEngine : Option (Text → Text → Except StageError Bool)) :
    Keeping (outboundDlpStage dlpEngine : EntryStage Λ β) := by
  intro ctx
  rcases dlpEngine with _ | inspect
  · exact ⟨Kept.refl ctx.data, returned_ne_baseException⟩
  · simp only [outboundDlpStage]
    split
    · exact ⟨Kept.refl ctx.data, exception_ne_baseException _⟩
    · split_ifs
      · exact ⟨Kept.refl ctx.data, returned_ne_baseException⟩
      · split
        · exact ⟨Kept.refl ctx.data, exception_ne_baseException _⟩
        · exact ⟨Kept.refl ctx.data, returned_ne_baseException⟩
        · exact ⟨Kept.refl ctx.data, returned_ne_baseException⟩

theorem keeping_restorationStage (restore : Json → List (Text × Text) → Except StageError Json) :
    Keeping (restorationStage restore : EntryStage Λ β) := by
  intro ctx
  simp only [restorationStage]
  split_ifs
  · exact ⟨Kept.refl ctx.data, returned_ne_baseException⟩
  · split
    · exact ⟨Kept.refl ctx.data, returned_ne_baseException⟩
    · split
      · exact ⟨⟨rfl, rfl, rfl, rfl⟩, returned_ne_baseException⟩
      · exact ⟨Kept.refl ctx.data, exception_ne_baseException _⟩
      · exact ⟨Kept.refl ctx.data, returned_ne_baseException⟩

/-- The stages in front of the cleanup. -/
def stagesBeforeCleanup (state : EntryState Λ) (randomBits : Fin (2 ^ 64)) :
    List (EntryStage Λ β) :=
  frontStages state randomBits ++
    [lifted (providerStage state.unicode state.aliasRegistry state.post),
     outboundDlpStage state.outboundDlp,
     restorationStage state.restore]

theorem entryPipeline_eq (state : EntryState Λ) (draws : Draws) :
    (entryPipeline state draws : List (EntryStage Λ β)) =
      stagesBeforeCleanup state draws.randomBits ++ [cleanupStage draws.attempts] := by
  rw [entryPipeline, stagesBeforeCleanup, List.append_assoc]
  rfl

/-- The stages in front of the cleanup leave the audit chain alone. -/
theorem keeping_stagesBeforeCleanup (state : EntryState Λ) (randomBits : Fin (2 ^ 64)) :
    ∀ s ∈ (stagesBeforeCleanup state randomBits : List (EntryStage Λ β)), Keeping s := by
  intro s hs
  obtain hs | hs := List.mem_append.mp hs
  · obtain ⟨front, hfront, rfl⟩ := List.mem_map.mp hs
    exact keeping_lifted (tenantId_buildPreProviderPipeline _ _ _ front hfront)
      (noBaseException_buildPreProviderPipeline _ _ _ front hfront)
  · simp only [List.mem_cons, List.not_mem_nil, or_false] at hs
    obtain rfl | rfl | rfl := hs
    · exact keeping_providerStage _ _ _
    · exact keeping_outboundDlpStage _
    · exact keeping_restorationStage _

variable {ctx : ProcessingContext (EntryData Λ) StageError}

/-- Without an audit chain the cleanup does nothing. -/
theorem execute_cleanupStage_of_none (attempts : ℕ → Attempt) (h : ctx.data.auditChain = none) :
    (cleanupStage attempts : EntryStage Λ β).execute ctx = .done ctx.data := by
  simp only [cleanupStage, h]

/-- No cancellation leaves the pipeline. -/
theorem noBaseException_entryPipeline (state : EntryState Λ) (draws : Draws) :
    NoBaseException (entryPipeline state draws : List (EntryStage Λ β)) := by
  intro s hs ctx error
  rw [entryPipeline_eq] at hs
  obtain hs | hs := List.mem_append.mp hs
  · exact (keeping_stagesBeforeCleanup state draws.randomBits s hs ctx).2 error
  · obtain rfl := List.mem_singleton.mp hs
    simp only [cleanupStage]
    split
    · exact returned_ne_baseException error
    · split
      · exact returned_ne_baseException error
      · exact exception_ne_baseException _ error

/-! ### The dispatcher and the audit chain -/

/-- The bytes of a chat body are a JSON dictionary: what is dispatched. -/
theorem dispatch_eq (state : EntryState Λ) {loads : List UInt8 → Option Json} {contentType : Text}
    {body : List UInt8} {bodyDict : Fields} (hjson : name "application/json" <+: contentType)
    (hbody : body ≠ []) (hloads : loads body = some (.object bodyDict)) (tenantId : Text)
    (draws : Draws) :
    (dispatch state loads contentType body tenantId draws : Except β (Reply × Audit.Database)) =
      (run (entryPipeline state draws) (dispatchContext state bodyDict tenantId draws)).1.map
        fun ctx => (replyOf ctx, ctx.data.db) := by
  rw [dispatch, if_neg (by simp [hjson, hbody]), hloads]

/-- **Nothing is stored.** Whatever is dispatched, the audit chain is left as it is. -/
theorem db_dispatch {state : EntryState Λ} {loads : List UInt8 → Option Json} {contentType : Text}
    {body : List UInt8} {tenantId : Text} {draws : Draws} {reply : Reply} {db : Audit.Database}
    (h : (dispatch state loads contentType body tenantId draws :
      Except β (Reply × Audit.Database)) = .ok (reply, db)) : db = state.db := by
  rw [dispatch] at h
  split_ifs at h
  · obtain ⟨-, rfl⟩ := Prod.mk.inj (Except.ok.inj h)
    rfl
  · split at h
    · rename_i bodyDict _
      obtain ⟨ctx, hctx, heq⟩ := Runs.map_eq_ok_iff.mp h
      -- the context has no audit chain, so no stage writes
      have hkept : Kept (dispatchContext state bodyDict tenantId draws).data ctx.data := by
        refine run_of_step (I := Kept (dispatchContext state bodyDict tenantId draws).data)
          (fun s hs ctx hctx => ?_) (Kept.refl _) hctx
        rw [entryPipeline_eq] at hs
        obtain hs | hs := List.mem_append.mp hs
        · exact hctx.trans (keeping_stagesBeforeCleanup state draws.randomBits s hs ctx).1
        · obtain rfl := List.mem_singleton.mp hs
          rw [execute_cleanupStage_of_none _ hctx.auditChain]
          exact hctx
      obtain ⟨-, rfl⟩ := Prod.mk.inj heq
      exact hkept.db
    · obtain ⟨-, rfl⟩ := Prod.mk.inj (Except.ok.inj h)
      rfl

/-! ### When the dispatcher returns a response -/

/-- The provider stage records an error, or leaves a response. -/
theorem providerStage_cases (unicode : Unicode) (aliasRegistry : Option AliasRegistry)
    (post : Json → Except StageError Json) (ctx : ChatContext Λ) :
    let out := (providerStage unicode aliasRegistry post : ChatStage Λ β).execute ctx
    out.recorded ≠ [] ∨ out.data.providerResponse.isSome := by
  have hfailed : ∀ (data : RequestData Λ) (error : StageError),
      (Outcome.failed data error : Outcome (RequestData Λ) StageError β).recorded ≠ [] :=
    fun _ _ => List.cons_ne_nil _ _
  simp only [providerStage, stage]
  split
  · exact Or.inl (hfailed _ _)
  · split_ifs
    · exact Or.inl (hfailed _ _)
    · split
      · split
        · exact Or.inl (hfailed _ _)
        · exact Or.inr rfl
      · split
        · exact Or.inl (hfailed _ _)
        · split
          · exact Or.inl (hfailed _ _)
          · exact Or.inr rfl

/-- A provider stage that does not fail leaves a response. -/
theorem isSome_providerResponse_providerStage {unicode : Unicode}
    {aliasRegistry : Option AliasRegistry} {post : Json → Except StageError Json}
    (h : fails (lifted (providerStage unicode aliasRegistry post) : EntryStage Λ β) ctx = false) :
    (applied (lifted (providerStage unicode aliasRegistry post) : EntryStage Λ β)
      ctx).data.chat.providerResponse.isSome := by
  obtain hrecorded | hresponse := providerStage_cases (β := β) unicode aliasRegistry post
    ⟨ctx.data.chat, ctx.errors⟩
  · rw [fails] at h
    split at h
    · have hempty : ((lifted (providerStage unicode aliasRegistry post) :
          EntryStage Λ β).execute ctx).recorded = [] := by simpa using h
      exact absurd hempty hrecorded
    · cases h
  · exact hresponse

/-- The stages behind the provider leave its response alone. -/
theorem providerResponse_afterwards (state : EntryState Λ) (attempts : ℕ → Attempt) :
    ∀ s ∈ ([outboundDlpStage state.outboundDlp, restorationStage state.restore,
        cleanupStage attempts] : List (EntryStage Λ β)), ∀ ctx,
      (s.execute ctx).data.chat.providerResponse = ctx.data.chat.providerResponse := by
  intro s hs ctx
  simp only [List.mem_cons, List.not_mem_nil, or_false] at hs
  obtain rfl | rfl | rfl := hs
  · simp only [outboundDlpStage]
    split
    · rfl
    · split
      · rfl
      · split_ifs
        · rfl
        · split <;> rfl
  · simp only [restorationStage]
    split_ifs
    · rfl
    · split
      · rfl
      · split <;> rfl
  · simp only [cleanupStage]
    split
    · rfl
    · split <;> rfl

/-- If no stage fails there is a response of the provider. -/
theorem isSome_providerResponse_appliedAll {state : EntryState Λ} {draws : Draws}
    (h : firstFailure (entryPipeline state draws : List (EntryStage Λ β)) ctx = none) :
    (appliedAll (entryPipeline state draws : List (EntryStage Λ β))
      ctx).data.chat.providerResponse.isSome := by
  rw [entryPipeline, firstFailure_append, Option.or_eq_none_iff, Option.map_eq_none_iff] at h
  have hprovider := h.2
  rw [firstFailure] at hprovider
  split_ifs at hprovider with hfails
  have hresponse := isSome_providerResponse_providerStage (Bool.not_eq_true _ ▸ hfails)
  rw [entryPipeline, appliedAll, List.foldl_append, List.foldl_cons, ← appliedAll, ← appliedAll]
  refine appliedAll_of_step (I := fun data : EntryData Λ => data.chat.providerResponse.isSome)
    (fun s hs ctx hctx => ?_) hresponse
  rwa [providerResponse_afterwards state draws.attempts s hs ctx]

/-- **When the dispatcher returns a response.** It does so if and only if no stage fails. -/
theorem dispatch_response_iff {state : EntryState Λ} {loads : List UInt8 → Option Json}
    {contentType : Text} {body : List UInt8} {bodyDict : Fields}
    (hjson : name "application/json" <+: contentType) (hbody : body ≠ [])
    (hloads : loads body = some (.object bodyDict)) (tenantId : Text) (draws : Draws) :
    (∃ response db, (dispatch state loads contentType body tenantId draws :
        Except β (Reply × Audit.Database)) = .ok (.response response, db)) ↔
      firstFailure (entryPipeline state draws : List (EntryStage Λ β))
        (dispatchContext state bodyDict tenantId draws) = none := by
  have hbase := noBaseException_entryPipeline (β := β) state draws
  rw [dispatch_eq state hjson hbody hloads]
  cases hfailure : firstFailure (entryPipeline state draws : List (EntryStage Λ β))
      (dispatchContext state bodyDict tenantId draws) with
  | none =>
    obtain ⟨hrun, herrors⟩ := run_of_firstFailure_none rfl hfailure
    obtain ⟨response, hresponse⟩ := Option.isSome_iff_exists.mp
      (isSome_providerResponse_appliedAll hfailure)
    refine iff_of_true ?_ rfl
    rw [hrun, Except.map, replyOf, herrors, hresponse]
    cases (appliedAll (entryPipeline state draws : List (EntryStage Λ β))
        (dispatchContext state bodyDict tenantId draws)).data.restoredResponse with
    | none => exact ⟨response, _, rfl⟩
    | some restored => exact ⟨restored, _, rfl⟩
  | some k =>
    obtain ⟨ctx, hctx⟩ := run_returns (dispatchContext state bodyDict tenantId draws) hbase
    have herrors := (run_of_firstFailure_some rfl hfailure hctx).2
    have hne : ctx.errors ≠ [] := herrors ▸ appliedAll_errors_ne_nil hbase hfailure
    refine iff_of_false ?_ (Option.some_ne_none k)
    rintro ⟨response, db, h⟩
    rw [hctx] at h
    obtain ⟨hreply, -⟩ := Prod.mk.inj (Except.ok.inj h)
    rw [replyOf, List.getLast?_eq_some_getLast hne] at hreply
    split at hreply <;> simp_all

/-! ### The same request at both entry points -/

/-- The library functions of the routes: the JSON decoder, and the validation of requests and of
responses. -/
structure Codec where
  loads : List UInt8 → Option Json
  validateRequest : Json → Option ChatRequest
  validateResponse : Json → Option Json

/-- A JSON chat body: bytes of a dictionary that is a valid request and does not ask for a
stream. -/
structure ChatBody (codec : Codec) where
  contentType : Text
  bytes : List UInt8
  bodyDict : Fields
  request : ChatRequest
  isJson : name "application/json" <+: contentType
  nonempty : bytes ≠ []
  decoded : codec.loads bytes = some (.object bodyDict)
  validated : codec.validateRequest (.object bodyDict) = some request
  notStreamed : request.stream = false

section

variable (β : Type v) (state : EntryState Λ) {codec : Codec} (body : ChatBody codec)
  (info : RequestInfo) (draws : Draws)

/-- The body goes through the dispatcher, as the proxies send it. -/
def ChatBody.dispatched : Except β (Reply × Audit.Database) :=
  dispatch state codec.loads body.contentType body.bytes info.tenantId draws

/-- The body goes through the chat route. -/
def ChatBody.answered : Except β (Except Rejection Json × Audit.Database) :=
  chatCompletions state codec.validateResponse ⟨body.request, body.notStreamed⟩ info draws

/-- What is offered to the provider stage, if the pipeline comes to it. -/
def offered (ctx : ProcessingContext (EntryData Λ) StageError) : Option Json :=
  let front : List (EntryStage Λ β) := frontStages state draws.randomBits
  match firstFailure front ctx with
  | none => (appliedAll front ctx).data.chat.transformedRequest
  | some _ => none

/-- The events of a request in the table. -/
def events (db : Audit.Database) (tenantId : Text) (requestId : Audit.RequestId) :
    List Audit.Row :=
  db.rows.filter fun row =>
    decide (Audit.IsEventOf (String.ofList tenantId) requestId row.toColumns)

/-- A run stores exactly one event of the request. -/
def Stored (tenantId : Text) (requestId : Audit.RequestId) (before after : Audit.Database) :
    Prop :=
  (events after tenantId requestId).length = (events before tenantId requestId).length + 1

/-- The two entry points have the same effect: the dispatcher returns a response only if the chat
route answers, both offer the provider the same, and the dispatcher stores the event before it
returns a reply for which one is due. -/
structure SameEffect (due : Reply → Prop) : Prop where
  served : ∀ response db, body.dispatched β state info draws = .ok (.response response, db) →
    ∃ answer db', body.answered β state info draws = .ok (.ok answer, db')
  offered : offered β state draws (dispatchContext state body.bodyDict info.tenantId draws) =
    offered β state draws (chatContext state body.request info draws)
  stored : ∀ reply db, body.dispatched β state info draws = .ok (reply, db) → due reply →
    Stored info.tenantId draws.requestId state.db db

/-- The reply is a response. -/
def Reply.IsResponse (reply : Reply) : Prop := ∃ body, reply = .response body

variable {β state info draws}

/-- No reply comes after an event was stored. -/
theorem not_stored_dispatched {reply : Reply} {db : Audit.Database}
    (h : body.dispatched β state info draws = .ok (reply, db)) :
    ¬ Stored info.tenantId draws.requestId state.db db := by
  rw [db_dispatch h, Stored]
  omega

end

/-- **The dispatcher stores no event.** At no input do the two entry points have the same effect,
an event being due with every reply. Where one is due with a response only, they do if and only if
a stage fails on the context of the dispatcher, and both offer the provider the same. -/
theorem not_sameEffect (β : Type v) (state : EntryState Λ) {codec : Codec}
    (body : ChatBody codec) (info : RequestInfo) (draws : Draws) :
    ¬ SameEffect β state body info draws (fun _ => True) ∧
    (SameEffect β state body info draws Reply.IsResponse ↔
      firstFailure (entryPipeline state draws : List (EntryStage Λ β))
          (dispatchContext state body.bodyDict info.tenantId draws) ≠ none ∧
        offered β state draws (dispatchContext state body.bodyDict info.tenantId draws) =
          offered β state draws (chatContext state body.request info draws)) := by
  have hresponse : (∃ response db, body.dispatched β state info draws =
      .ok (.response response, db)) ↔ _ :=
    dispatch_response_iff body.isJson body.nonempty body.decoded info.tenantId draws
  refine ⟨fun h => ?_, fun h => ⟨fun hnone => ?_, h.offered⟩, fun ⟨hfailure, hoffered⟩ =>
    ⟨fun response db hreply => ?_, hoffered, fun reply db hreply hdue => ?_⟩⟩
  · -- the dispatcher always replies
    obtain ⟨ctx, hctx⟩ := run_returns (dispatchContext state body.bodyDict info.tenantId draws)
      (noBaseException_entryPipeline (β := β) state draws)
    have hreply : body.dispatched β state info draws = .ok (replyOf ctx, ctx.data.db) := by
      rw [ChatBody.dispatched, dispatch_eq state body.isJson body.nonempty body.decoded, hctx]
      rfl
    exact not_stored_dispatched body hreply (h.stored _ _ hreply trivial)
  · obtain ⟨response, db, hreply⟩ := hresponse.mpr hnone
    exact not_stored_dispatched body hreply (h.stored _ _ hreply ⟨response, rfl⟩)
  · exact absurd (hresponse.mp ⟨response, db, hreply⟩) hfailure
  · obtain ⟨response, rfl⟩ := hdue
    exact absurd (hresponse.mp ⟨response, db, hreply⟩) hfailure

/-! ### A sample request -/

/-- The bytes of a request with one message. -/
def sampleBytes : List UInt8 :=
  ("\x7b\"model\": \"gpt-4\", \"messages\": [\x7b\"role\": \"user\", " ++
    "\"content\": \"hi\"\x7d]\x7d").toUTF8.toList

/-- The dictionary that they decode to. -/
def sampleBodyDict : Fields :=
  [(name "model", .text (name "gpt-4")),
   (name "messages", .list [.object
     [(name "role", .text (name "user")), (name "content", .text (name "hi"))]])]

/-- The request that the dictionary validates to. -/
def sampleChatRequest : ChatRequest where
  model := name "gpt-4"
  messages := [{ role := .user, content := some (.text (name "hi")) }]

/-- A decoder and a validation that know this body. -/
def sampleCodec : Codec where
  loads bytes := if bytes = sampleBytes then some (.object sampleBodyDict) else none
  validateRequest json :=
    match json.get (name "model") with
    | some (.text model) => some { sampleChatRequest with model := model }
    | _ => none
  validateResponse := some

def sampleBody : ChatBody sampleCodec where
  contentType := name "application/json"
  bytes := sampleBytes
  bodyDict := sampleBodyDict
  request := sampleChatRequest
  isJson := List.prefix_rfl
  nonempty := by decide +kernel
  decoded := if_pos rfl
  validated := rfl
  notStreamed := rfl

/-- A gateway with an audit chain, whose provider answers, and whose table is empty. -/
def sampleEntryState : EntryState Unit where
  engines := sampleEngines
  gates := {}
  unicode := Unicode.ascii
  aliasRegistry := some sampleAliases
  post _ := .ok (.object [(name "choices", .list [])])
  outboundDlp := none
  restore response _ := .ok response
  auditChain := some
    { H := Audit.sampleHash
      uuid5 := Audit.sampleUuid5
      dumps := fun _ => "\x7b\x7d" }
  db := { dialect := .sqlite }

theorem isUtc_sampleTime : Audit.sampleTime.IsUtc := rfl

/-- Every attempt to write comes to its end. -/
def sampleDraws : Draws where
  requestId := ⟨"r1", by decide⟩
  contextId := name "c"
  randomBits := (sampleCall []).randomBits
  attempts _ := ⟨⟨Audit.sampleTime, isUtc_sampleTime⟩, "f", .finished⟩

/-- The chat route answers the sample request and stores its event; the dispatcher returns a
response and stores nothing. -/
theorem not_sameEffect_sampleBody :
    sampleEntryState.auditChain.isSome ∧
    (match sampleBody.answered Empty sampleEntryState { contextId := [] } sampleDraws with
      | .ok (.ok _, db) => (events db (name "default") sampleDraws.requestId).length
      | _ => 0) = 1 ∧
    ¬ SameEffect Empty sampleEntryState sampleBody { contextId := [] } sampleDraws
      Reply.IsResponse := by
  refine ⟨rfl, by decide +kernel, fun h => ?_⟩
  have hresponse : ∃ response db, sampleBody.dispatched Empty sampleEntryState
      { contextId := [] } sampleDraws = .ok (.response response, db) := by
    refine (dispatch_response_iff sampleBody.isJson sampleBody.nonempty sampleBody.decoded
      (name "default") sampleDraws).mpr ?_
    decide +kernel
  obtain ⟨response, db, hreply⟩ := hresponse
  exact not_stored_dispatched sampleBody hreply (h.stored _ _ hreply ⟨response, rfl⟩)

end AnonReq.Proxy
