import AnonReq.Foundation.Dict
import Mathlib.Order.WithBot

/-!
# Breach notifications

`breach/notifications.py`: a notification to the regulator and one to each contact of each affected
tenant are rendered and stored. The rows name a contact, and no tenant.

* `extends_sendBreachNotifications`: what is stored is of the regulator, or of a contact of an
  affected tenant.
-/

namespace AnonReq.Breach

/-! ### Rows -/

/-- A value of a column. Times are in microseconds, counted from some day on. -/
inductive Value where
  | null
  | text (s : String)
  | number (n : ℤ)
  | flag (b : Bool)
  | datetime (t : ℤ)
deriving DecidableEq

/-- A row of a table. The tenant that a notification was stored for is not a column. -/
structure Row where
  columns : List (String × Value)
  storedFor : Option String := none
deriving DecidableEq

namespace Row

/-- `row.get(column, "")`. -/
def get (row : Row) (column : String) : Value := (Dict.get row.columns column).getD (.text "")

/-- The time in a column. A missing one counts as later than any other when rows are ordered. -/
def time (row : Row) (column : String) : WithTop ℤ :=
  match row.get column with
  | .datetime t => t
  | _ => ⊤

end Row

/-! ### Sending -/

/-- `DEFAULT_REGULATORS`: by framework and region, the name and the contact. -/
def defaultRegulators : List (String × List (String × String × String)) :=
  [("gdpr",
    [("eu", "Lead SA (Supervisory Authority)", "regulator-gdpr-eu@example.com"),
      ("uk", "ICO (Information Commissioner's Office)", "regulator-gdpr-uk@example.com")]),
    ("dora", [("eu", "Competent Authority (DORA)", "regulator-dora-eu@example.com")])]

/-- A rendered template. -/
structure Rendered where
  templateId : String
  subject : String
  body : String

/-- `BreachNotifier`: the governance service, which may raise when it is asked for contacts, and the
template manager, which raises where it has no template. -/
structure BreachNotifier where
  governanceService : Option (String → Option (List String)) := none
  render : String → String → List (String × String) → Option Rendered

/-- What happens when a notification is stored: the identifier that it draws, and whether its
statement and its commit succeed. -/
structure Turn where
  id : String
  committed : Bool := true

/-- The rows so far, the turns to come, and the count of the notifications. -/
structure SendState where
  table : List Row
  turns : List Turn
  notificationsSent : ℕ := 0

/-- The arguments of `send_breach_notifications`. -/
structure Incident where
  breachId : String
  framework : String
  description : String
  affectedTenants : List String
  vars : List (String × String) := []
  region : String := "eu"
  classification : String := "HIGH"

namespace BreachNotifier

variable (N : BreachNotifier)

/-- `_get_regulator_contact`. -/
def getRegulatorContact (framework region : String) : Option (String × String) :=
  (defaultRegulators.lookup framework).bind fun regulators => regulators.lookup region

/-- The contact of a tenant that no other is known of. -/
def defaultContact (tenantId : String) : String := "compliance@" ++ tenantId ++ ".example.com"

/-- `_get_tenant_contacts`. -/
def getTenantContacts (tenantId : String) : List String :=
  match N.governanceService.bind fun getContacts => getContacts tenantId with
  | some (contact :: contacts) => contact :: contacts
  | _ => [defaultContact tenantId]

/-- The row of a notification. -/
def notification (id : String) (incident : Incident) (targetType targetId : String)
    (rendered : Rendered) (now : ℤ) (storedFor : Option String) : Row where
  columns :=
    [("id", .text id), ("breach_id", .text incident.breachId), ("target_type", .text targetType),
      ("target_id", .text targetId), ("channel", .text "email"),
      ("template_id", .text rendered.templateId), ("rendered_subject", .text rendered.subject),
      ("rendered_body", .text rendered.body), ("status", .text "sent"),
      ("created_at", .datetime now)]
  storedFor := storedFor

/-- `_send_notification`: one that cannot be rendered or stored is not sent, and nothing is
raised. A row with an identifier that is there cannot be inserted. -/
def sendNotification (incident : Incident) (targetType targetId : String)
    (vars : List (String × String)) (now : ℤ) (storedFor : Option String) (s : SendState) :
    Bool × SendState :=
  match N.render incident.framework incident.region vars, s.turns with
  | some rendered, turn :: turns =>
    let row := notification turn.id incident targetType targetId rendered now storedFor
    if turn.committed ∧ row.get "id" ∉ s.table.map (Row.get · "id") then
      (true,
        { table := s.table ++ [row], turns := turns, notificationsSent := s.notificationsSent + 1 })
    else (false, { s with turns := turns })
  | _, _ => (false, s)

/-- The variables of the templates. -/
def allVariables (incident : Incident) (date : String) : List (String × String) :=
  Dict.update
    [("breach_id", incident.breachId), ("date", date), ("description", incident.description),
      ("classification", incident.classification), ("sender_name", "AnonReq Security Team"),
      ("recipient_name", "Regulator"), ("tenant_name", "affected"),
      ("affected_count", toString incident.affectedTenants.length),
      ("mitigation", "Under investigation")]
    incident.vars

/-- The notifications of one affected tenant. -/
def notifyTenant (incident : Incident) (date : String) (now : ℤ) (s : SendState)
    (tenantId : String) : SendState :=
  let vars := Dict.set (Dict.set (allVariables incident date) "recipient_name"
    ("Tenant " ++ tenantId)) "tenant_name" tenantId
  (N.getTenantContacts tenantId).foldl
    (fun s contact =>
      (N.sendNotification incident "tenant" contact vars now (some tenantId) s).2) s

/-- `send_breach_notifications`: the rows after it, how many were sent, and whether one was sent to
the regulator. -/
def sendBreachNotifications (incident : Incident) (date : String) (now : ℤ) (table : List Row)
    (turns : List Turn) : List Row × ℕ × Bool :=
  let s : SendState := { table := table, turns := turns }
  let (regulatorQueued, s) :=
    match getRegulatorContact incident.framework incident.region with
    | some (_, contact) =>
      N.sendNotification incident "regulator" contact (allVariables incident date) now none s
    | none => (false, s)
  let s := incident.affectedTenants.foldl (N.notifyTenant incident date now) s
  (s.table, s.notificationsSent, regulatorQueued)

/-! ### What is stored -/

/-- A row that is stored for a breach: to the regulator, or to a contact of an affected tenant. -/
structure Stored (incident : Incident) (now : ℤ) (row : Row) : Prop where
  time : row.time "created_at" = now
  target : (row.storedFor = none ∧ row.get "target_type" = .text "regulator") ∨
    ∃ tenantId ∈ incident.affectedTenants, row.storedFor = some tenantId ∧
      row.get "target_type" = .text "tenant" ∧
        ∃ contact ∈ N.getTenantContacts tenantId, row.get "target_id" = .text contact

/-- The rows that are added have a property, and identifiers of their own. -/
structure Extends (P : Row → Prop) (table table' : List Row) : Prop where
  added : ∀ row ∈ table', row ∈ table ∨ P row
  key : (table.map (Row.get · "id")).Nodup → (table'.map (Row.get · "id")).Nodup

variable {N} {P : Row → Prop}

theorem Extends.refl (table : List Row) : Extends P table table := ⟨fun _ => Or.inl, id⟩

theorem Extends.trans {table table' table'' : List Row} (h : Extends P table table')
    (h' : Extends P table' table'') : Extends P table table'' where
  added row hrow := (h'.added row hrow).elim (h.added row) Or.inr
  key hkey := h'.key (h.key hkey)

/-- What one notification adds. -/
theorem extends_sendNotification {incident : Incident} {targetType targetId : String}
    {vars : List (String × String)} {now : ℤ} {storedFor : Option String} {s : SendState}
    (h : ∀ id rendered, P (notification id incident targetType targetId rendered now storedFor)) :
    Extends P s.table
      (N.sendNotification incident targetType targetId vars now storedFor s).2.table := by
  unfold sendNotification
  split
  · rename_i rendered turn turns _ _
    dsimp only
    split_ifs with hturn
    · refine ⟨fun row hrow => ?_, fun hkey => ?_⟩
      · refine (List.mem_append.mp hrow).imp_right fun hnew => ?_
        rw [List.mem_singleton.mp hnew]
        exact h turn.id rendered
      · rw [List.map_append, List.nodup_append]
        refine ⟨hkey, List.nodup_singleton _, fun id hid id' hid' heq => hturn.2 ?_⟩
        obtain rfl := heq.trans (List.mem_singleton.mp hid')
        exact hid
    · exact Extends.refl _
  · exact Extends.refl _

theorem extends_foldl {ι : Type} {f : SendState → ι → SendState} {items : List ι}
    (hf : ∀ s, ∀ item ∈ items, Extends P s.table (f s item).table) (s : SendState) :
    Extends P s.table (items.foldl f s).table := by
  induction items generalizing s with
  | nil => exact Extends.refl _
  | cons item items ih =>
    exact (hf s item List.mem_cons_self).trans
      (ih (fun s other hother => hf s other (List.mem_cons_of_mem item hother)) (f s item))

/-- **What is stored** for a breach is to the regulator or to a contact of an affected tenant, and
identifiers stay distinct. -/
theorem extends_sendBreachNotifications (N : BreachNotifier) (incident : Incident) (date : String)
    (now : ℤ) (table : List Row) (turns : List Turn) :
    Extends (N.Stored incident now) table
      (N.sendBreachNotifications incident date now table turns).1 := by
  have hregulator : ∀ s : SendState, ∀ contact vars, Extends (N.Stored incident now) s.table
      (N.sendNotification incident "regulator" contact vars now none s).2.table :=
    fun s contact vars => extends_sendNotification fun id rendered =>
      ⟨rfl, Or.inl ⟨rfl, rfl⟩⟩
  have htenants : ∀ s : SendState, Extends (N.Stored incident now) s.table
      (incident.affectedTenants.foldl (N.notifyTenant incident date now) s).table := by
    refine extends_foldl fun s tenantId htenant => extends_foldl (fun s contact hcontact => ?_) s
    exact extends_sendNotification fun id rendered =>
      ⟨rfl, Or.inr ⟨tenantId, htenant, rfl, rfl, contact, hcontact, rfl⟩⟩
  unfold sendBreachNotifications
  cases getRegulatorContact incident.framework incident.region with
  | none => exact htenants { table := table, turns := turns }
  | some regulator =>
    have hfirst := hregulator { table := table, turns := turns } regulator.2
      (allVariables incident date)
    exact hfirst.trans (htenants _)

end BreachNotifier

end AnonReq.Breach
