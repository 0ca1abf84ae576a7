import Mathlib.Data.List.Sort
import SaccoPlatform.Lib.Keyed
import SaccoPlatform.Lib.Runs
import SaccoPlatform.Platform.Gate

/-!
# Notifications

`app/core/notifications`: an event is published with its channels (`service.py`), dispatched to the
channels that its recipient has not disabled (`dispatcher.py`), and queued again by the retry job
while every failing channel is under the cap (`beat.py`). The tables are those of one schema, the
platform's or a tenant's; schemas share none of them.
-/

namespace SaccoPlatform.Notifications

open Lib Platform

/-! ## Catalog -/

/-- `CHANNELS`. -/
inductive Channel where
  | email
  | sms
  | inApp
deriving DecidableEq

def Channel.name : Channel → String
  | email => "email"
  | sms => "sms"
  | inApp => "in_app"

/-- The channel of a name, if it is in `CHANNELS`. -/
def Channel.ofName? (name : String) : Option Channel :=
  [email, sms, inApp].find? fun c => c.name = name

/-- `RECIPIENT_KINDS`. -/
inductive RecipientKind where
  | platformUser
  | tenantUser
  | member
deriving DecidableEq

def RecipientKind.name : RecipientKind → String
  | platformUser => "platform_user"
  | tenantUser => "tenant_user"
  | member => "member"

structure NotificationEventSpec where
  code : String
  defaultChannels : List Channel
  recipientKinds : List RecipientKind

section

open Channel RecipientKind

/-- `NOTIFICATION_CATALOG`. -/
def notificationCatalog : List NotificationEventSpec :=
  let staff := [platformUser, tenantUser]
  let all := [platformUser, tenantUser, member]
  let emailInApp := [email, inApp]
  [⟨"password_reset", emailInApp, all⟩,
   ⟨"maker_checker_pending", emailInApp, staff⟩,
   ⟨"maker_checker_approved", emailInApp, staff⟩,
   ⟨"maker_checker_rejected", emailInApp, staff⟩,
   ⟨"invoice_issued", emailInApp, [tenantUser]⟩,
   ⟨"invoice_overdue", emailInApp, [tenantUser]⟩,
   ⟨"subscription_suspended", emailInApp, [tenantUser]⟩,
   ⟨"system_announcement", emailInApp, all⟩,
   ⟨"member_activated", emailInApp, [member]⟩,
   ⟨"kyc_submission_approved", emailInApp, [member]⟩,
   ⟨"kyc_submission_rejected", emailInApp, [member]⟩,
   ⟨"loan_application_approved", emailInApp, [member]⟩,
   ⟨"loan_application_rejected", emailInApp, [member]⟩,
   ⟨"tenant_offboarding_cancelled", emailInApp, [tenantUser]⟩,
   ⟨"tenant_offboarding_read_only", emailInApp, [tenantUser]⟩,
   ⟨"tenant_offboarding_archived", emailInApp, [tenantUser]⟩,
   ⟨"tenant_offboarding_restored", emailInApp, [tenantUser]⟩]

end

/-- `BY_CODE`. -/
def byCode (code : String) : Option NotificationEventSpec := notificationCatalog.find? (·.code = code)

/-! ## Tables -/

/-- Of the mapping `variables` its keys. -/
structure NotificationTemplate where
  code : String
  channel : Channel
  locale : String
  subjectTemplate : Option String
  bodyHtml : Option String
  bodyText : Option String
  smsBody : Option String
  variableNames : List String
  isActive : Bool

/-- `event.status`; the text of `partlySent` is `"partial"`. -/
inductive EventStatus where
  | queued
  | sent
  | partlySent
  | failed
deriving DecidableEq

abbrev Context := List (String × String)

/-- A row of `notification_events`; times are microseconds. -/
structure NotificationEvent where
  id : ℕ
  eventCode : String
  recipientKind : RecipientKind
  recipientUserId : ℕ
  recipientEmail : Option String
  recipientPhone : Option String
  channels : List Channel
  context : Context
  dedupeKey : Option String
  scheduledAt : ℕ
  status : EventStatus
deriving DecidableEq

inductive DeliveryStatus where
  | sent
  | failed
deriving DecidableEq

/-- A row of `notification_deliveries`. -/
structure NotificationDelivery where
  notificationEventId : ℕ
  channel : Channel
  provider : String
  attempt : ℕ
  status : DeliveryStatus
  externalId : Option String
  errorMessage : Option String
  sentAt : ℕ
deriving DecidableEq

/-- `uq_notification_preferences_scope`. -/
structure PreferenceKey where
  recipientKind : RecipientKind
  userId : ℕ
  eventCode : String
  channel : Channel
deriving DecidableEq

/-- A row of `notification_preferences`. -/
structure NotificationPreference where
  key : PreferenceKey
  enabled : Bool

/-- The tables of one schema. -/
structure NotificationTables where
  events : Keyed NotificationEvent.id
  deliveries : List NotificationDelivery
  preferences : Keyed NotificationPreference.key

/-! ## Publishing -/

/-- The arguments of `publish`. -/
structure PublishRequest where
  eventCode : String
  recipientKind : String
  recipientUserId : ℕ
  recipientEmail : Option String
  recipientPhone : Option String
  context : Context
  channels : Option (List String)
  scheduledAt : Option ℕ
  dedupeKey : Option String

/-- `_allowed_context_keys`. -/
def allowedContextKeys (templates : List NotificationTemplate) (eventCode : String) :
    Option (List String) :=
  let rows := templates.filter fun t => t.code = eventCode ∧ t.isActive
  if rows.isEmpty then none else some (rows.flatMap (·.variableNames))

/-- `resolved_channels`, with the check that each is in `CHANNELS`. -/
def resolveChannels (spec : NotificationEventSpec) (channels : Option (List String)) :
    Except String (List Channel) :=
  match channels with
  | none => .ok spec.defaultChannels
  | some names => names.mapM fun ch =>
    match Channel.ofName? ch with
    | some channel => .ok channel
    | none => .error s!"Unknown channel '{ch}'"

/-- The context may use only the variables of the templates. -/
def checkContext (templates : List NotificationTemplate) (eventCode : String) (context : Context) :
    Except String Unit :=
  match allowedContextKeys templates eventCode with
  | none => .ok ()
  | some allowed =>
    match context.find? fun entry => entry.1 ∉ allowed with
    | some (key, _) =>
      .error s!"context key '{key}' is not in the template allow-list for '{eventCode}'"
    | none => .ok ()

/-- `NotificationService.publish`: the event, new or with the same `dedupe_key`, and the tables. -/
def publish (templates : List NotificationTemplate) (now : ℕ) (req : PublishRequest)
    (t : NotificationTables) : Except String (NotificationEvent × NotificationTables) := do
  let some spec := byCode req.eventCode
    | throw s!"Unknown notification event_code '{req.eventCode}'"
  let some kind := spec.recipientKinds.find? fun kind => kind.name = req.recipientKind
    | throw s!"recipient kind '{req.recipientKind}' is not allowed for '{req.eventCode}'"
  let channels ← resolveChannels spec req.channels
  checkContext templates req.eventCode req.context
  let event := fun id : ℕ =>
    { id
      eventCode := req.eventCode
      recipientKind := kind
      recipientUserId := req.recipientUserId
      recipientEmail := req.recipientEmail
      recipientPhone := req.recipientPhone
      channels
      context := req.context
      dedupeKey := req.dedupeKey
      scheduledAt := req.scheduledAt.getD now
      status := .queued : NotificationEvent }
  match t.events.rows.find? fun event => req.dedupeKey.isSome ∧ event.dedupeKey = req.dedupeKey with
  | some existing => return (existing, t)
  | none => return (event t.events.fresh, { t with events := t.events.insertNew event fun _ => rfl })

/-! ## Preferences -/

/-- `NotificationPreferenceIn`. -/
structure NotificationPreferenceIn where
  eventCode : String
  channel : String
  enabled : Bool

/-- The checks of `_put_preferences` on one entry. -/
def checkPreference (pref : NotificationPreferenceIn) : Except HttpError Channel :=
  if (byCode pref.eventCode).isNone then .error ⟨422, s!"Unknown event_code '{pref.eventCode}'"⟩
  else
    match Channel.ofName? pref.channel with
    | some channel => .ok channel
    | none => .error ⟨422, s!"Unknown channel '{pref.channel}'"⟩

/-- `_put_preferences`. -/
def putPreferences (kind : RecipientKind) (userId : ℕ) (body : List NotificationPreferenceIn)
    (t : NotificationTables) : Except HttpError NotificationTables := do
  let channels ← body.mapM checkPreference
  return { t with preferences := (body.zip channels).foldl (fun preferences (pref, channel) =>
    preferences.store ⟨⟨kind, userId, pref.eventCode, channel⟩, pref.enabled⟩) t.preferences }

/-! ## Dispatching -/

/-- `EmailProvider`: an external id, or the text of what it raises. -/
structure EmailProvider where
  name : String
  send : (recipient subject text : String) → (html : Option String) → Except String (Option String)

/-- `SMSProvider`. -/
structure SMSProvider where
  name : String
  send : (recipient body : String) → Except String (Option String)

/-- What one call of `_send_channel` depends on besides the event: the templates, the providers and
the renderer, which may fail. -/
structure SendEnv where
  templates : List NotificationTemplate
  emailProvider : EmailProvider
  smsProvider : SMSProvider
  render : String → Context → (html : Bool) → Except String String

structure Outcome where
  provider : String
  status : DeliveryStatus
  externalId : Option String
  errorMessage : Option String

/-- `_failure`. -/
def failure (provider message : String) : Outcome := ⟨provider, .failed, none, some message⟩

/-- A text that is not `None` and not empty. -/
def truthy (text : Option String) : Option String := text.filter (· ≠ "")

/-- The `try` block: what is raised becomes a failure. -/
def settle (provider : String) : Except String (Option String) → Outcome
  | .ok externalId => ⟨provider, .sent, externalId, none⟩
  | .error exc => failure provider (String.ofList (exc.toList.take 500))

def sendEmail (env : SendEnv) (template : NotificationTemplate) (context : Context) (recipient : String) :
    Except String (Option String) := do
  let subject ← env.render (template.subjectTemplate.getD "") context false
  let text ← env.render (template.bodyText.getD "") context false
  let html ← match truthy template.bodyHtml with
    | some body => some <$> env.render body context true
    | none => pure none
  env.emailProvider.send recipient subject text html

def sendSms (env : SendEnv) (template : NotificationTemplate) (context : Context) (recipient : String) :
    Except String (Option String) := do
  let body ← env.render (((truthy template.smsBody).or (truthy template.bodyText)).getD "") context false
  env.smsProvider.send recipient body

/-- `_send_channel`. -/
def sendChannel (env : SendEnv) (event : NotificationEvent) (channel : Channel) : Outcome :=
  let template := env.templates.find? fun t =>
    t.code = event.eventCode ∧ t.channel = channel ∧ t.locale = "en" ∧ t.isActive
  let provider := if channel = .email then env.emailProvider.name else env.smsProvider.name
  match template with
  | none => failure provider "no active template"
  | some template =>
    if channel = .email then
      match truthy event.recipientEmail with
      | none => failure provider "no recipient email"
      | some recipient => settle provider (sendEmail env template event.context recipient)
    else
      match truthy event.recipientPhone with
      | none => failure provider "no recipient phone"
      | some recipient => settle provider (sendSms env template event.context recipient)

/-- The channels of the event that its recipient has disabled. -/
def disabledChannels (preferences : Keyed NotificationPreference.key) (event : NotificationEvent) :
    List Channel :=
  (preferences.rows.filter fun p => p.key.recipientKind = event.recipientKind ∧
    p.key.userId = event.recipientUserId ∧ p.key.eventCode = event.eventCode ∧ p.enabled = false).map
    (·.key.channel)

/-- `ok`, `failed` and the rows added so far. -/
structure Tally where
  ok : ℕ
  failed : ℕ
  added : List NotificationDelivery

/-- The body of the loop of `dispatch_event`. -/
def dispatchChannel (env : SendEnv) (now : ℕ) (event : NotificationEvent)
    (prior : List NotificationDelivery) (tally : Tally) (channel : Channel) : Tally :=
  let alreadySent := (prior.filter (·.status = .sent)).map (·.channel)
  if channel = .inApp ∨ channel ∈ alreadySent then { tally with ok := tally.ok + 1 }
  else
    let outcome := sendChannel env event channel
    let delivery : NotificationDelivery :=
      { notificationEventId := event.id
        channel
        provider := outcome.provider
        attempt := (prior.filter (·.channel = channel)).length + 1
        status := outcome.status
        externalId := outcome.externalId
        errorMessage := outcome.errorMessage
        sentAt := now }
    if outcome.status = .sent then ⟨tally.ok + 1, tally.failed, tally.added ++ [delivery]⟩
    else ⟨tally.ok, tally.failed + 1, tally.added ++ [delivery]⟩

/-- The loop over `resolved`; each call of `_send_channel` has an environment of its own. -/
def dispatchChannels (env : ℕ → SendEnv) (now : ℕ) (event : NotificationEvent)
    (prior : List NotificationDelivery) (resolved : List Channel) : Tally :=
  resolved.zipIdx.foldl (fun tally (channel, i) =>
    dispatchChannel (env i) now event prior tally channel) ⟨0, 0, []⟩

/-- The status at the end of `dispatch_event`. -/
def Tally.status (tally : Tally) : EventStatus :=
  if tally.failed = 0 then .sent else if tally.ok > 0 then .partlySent else .failed

/-- The deliveries of an event. -/
def NotificationTables.deliveriesOf (t : NotificationTables) (id : ℕ) : List NotificationDelivery :=
  t.deliveries.filter (·.notificationEventId = id)

/-- What `dispatch_event` does for the event. -/
def dispatchTally (env : ℕ → SendEnv) (now : ℕ) (t : NotificationTables) (event : NotificationEvent) :
    Tally :=
  dispatchChannels env now event (t.deliveriesOf event.id)
    (event.channels.filter (· ∉ disabledChannels t.preferences event))

/-- `dispatch_event`. -/
def dispatchEvent (env : ℕ → SendEnv) (now : ℕ) (t : NotificationTables) (event : NotificationEvent) :
    NotificationTables :=
  let tally := dispatchTally env now t event
  { t with events := t.events.put { event with status := tally.status }
           deliveries := t.deliveries ++ tally.added }

/-! ## The jobs -/

/-- The query of `_dispatch_for_schema`: `locked` are the events that another transaction holds. -/
def dueEvents (now : ℕ) (locked : List ℕ) (t : NotificationTables) : List NotificationEvent :=
  ((t.events.rows.filter fun event =>
    event.status = .queued ∧ event.scheduledAt ≤ now ∧ event.id ∉ locked).insertionSort
      fun event event' => event.scheduledAt ≤ event'.scheduledAt).take 100

/-- `_dispatch_for_schema`. -/
def dispatchForSchema (env : ℕ → ℕ → SendEnv) (now : ℕ) (locked : List ℕ) (t : NotificationTables) :
    NotificationTables :=
  (dueEvents now locked t).foldl (fun t event => dispatchEvent (env event.id) now t event) t

/-- `timedelta(minutes=_RETRY_BACKOFF_MINUTES)`. -/
def retryBackoff : ℕ := 5 * 60 * 10 ^ 6

/-- `max_attempts`. -/
def maxAttempts : ℕ := 3

/-- `failed_channels`. -/
def failedChannels (deliveries : List NotificationDelivery) : List Channel :=
  ((deliveries.filter (·.status = .failed)).map (·.channel)).filter
    (· ∉ (deliveries.filter (·.status = .sent)).map (·.channel))

/-- An entry of `max_attempt_per_channel`. -/
def maxAttempt (deliveries : List NotificationDelivery) (channel : Channel) : ℕ :=
  ((deliveries.filter (·.channel = channel)).map (·.attempt)).foldr max 0

/-- The body of the loop of `_retry_for_schema`. -/
def retryEvent (now : ℕ) (t : NotificationTables) (event : NotificationEvent) : NotificationTables :=
  let deliveries := t.deliveriesOf event.id
  if failedChannels deliveries = [] then t
  else if ∃ channel ∈ failedChannels deliveries, maxAttempts ≤ maxAttempt deliveries channel then t
  else if now - retryBackoff ≤ (deliveries.map (·.sentAt)).foldr max 0 then t
  else { t with events := t.events.put { event with status := .queued, scheduledAt := now } }

/-- The query of `_retry_for_schema`. -/
def retryableEvents (locked : List ℕ) (t : NotificationTables) : List NotificationEvent :=
  t.events.rows.filter fun event =>
    (event.status = .partlySent ∨ event.status = .failed) ∧ event.id ∉ locked

/-- `_retry_for_schema`. -/
def retryForSchema (now : ℕ) (locked : List ℕ) (t : NotificationTables) : NotificationTables :=
  (retryableEvents locked t).foldl (retryEvent now) t

/-! ## Runs -/

inductive NotificationOp where
  | publish (templates : List NotificationTemplate) (now : ℕ) (req : PublishRequest)
  | putPreferences (kind : RecipientKind) (userId : ℕ) (body : List NotificationPreferenceIn)
  | dispatch (env : ℕ → ℕ → SendEnv) (now : ℕ) (locked : List ℕ)
  | retry (now : ℕ) (locked : List ℕ)

namespace NotificationTables

def empty : NotificationTables := ⟨⟨[], List.nodup_nil⟩, [], ⟨[], List.nodup_nil⟩⟩

/-- A call that raises changes nothing. -/
def step (t : NotificationTables) : NotificationOp → NotificationTables
  | .publish templates now req =>
    match publish templates now req t with
    | .ok (_, t') => t'
    | .error _ => t
  | .putPreferences kind userId body =>
    match putPreferences kind userId body t with
    | .ok t' => t'
    | .error _ => t
  | .dispatch env now locked => dispatchForSchema env now locked t
  | .retry now locked => retryForSchema now locked t

end NotificationTables

end SaccoPlatform.Notifications
