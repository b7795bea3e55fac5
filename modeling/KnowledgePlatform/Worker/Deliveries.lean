import KnowledgePlatform.Api.Sse
import KnowledgePlatform.Worker.Webhooks

/-!
# Webhook deliveries

After its transaction, `dispatch_webhooks_for_event` posts one signed body to the
webhooks it found, one after another.  What a post raises is caught if it is one of
httpx's own exceptions, and then the next webhook has its turn: a delivery decides
about its own success and nothing else (`deliverAll_eq`).

The HTTP client is a parameter, and so are the texts of JSON and the HMAC.
-/

open Api Core Foundations Python Relational

namespace Worker

/-! ## The HTTP client -/

/-- An exception: a subclass of `httpx.HTTPError`, or another one. -/
inductive Raised
  | httpError (message : Str)
  | other (message : Str)
  deriving DecidableEq

structure Request where
  url : Str
  content : List UInt8
  headers : List (Str × Str)
  deriving DecidableEq

structure Response where
  statusCode : ℕ
  deriving DecidableEq

/-- `response.is_success` -/
def Response.isSuccess (response : Response) : Bool :=
  decide (200 ≤ response.statusCode ∧ response.statusCode < 300)

/-- `client.post`, by the number of posts before it, and `response.raise_for_status`. -/
structure HttpClient where
  post : ℕ → Request → Except Raised Response
  raiseForStatus : Response → Except Raised Unit

namespace HttpClient

/-- What the library documents. -/
structure Documented (client : HttpClient) : Prop where
  post_raises : ∀ sent request raised, client.post sent request = .error raised →
    ∃ message, raised = .httpError message
  status_raises : ∀ response raised, client.raiseForStatus response = .error raised →
    ∃ message, raised = .httpError message
  raises_iff : ∀ response,
    (∃ raised, client.raiseForStatus response = .error raised) ↔ response.isSuccess = false

/-- The post gets a response with a status of success. -/
def succeeds (client : HttpClient) (sent : ℕ) (request : Request) : Bool :=
  match client.post sent request with
  | .ok response => response.isSuccess
  | .error _ => false

/-- The body of the `try` statement. -/
def deliver (client : HttpClient) (sent : ℕ) (request : Request) : Except Raised Unit := do
  let response ← client.post sent request
  client.raiseForStatus response

/-- A delivery succeeds with a response of success and is caught otherwise. -/
theorem Documented.deliver_cases {client : HttpClient} (h : client.Documented) (sent : ℕ)
    (request : Request) :
    client.deliver sent request = .ok () ∧ client.succeeds sent request = true ∨
      ∃ message, client.deliver sent request = .error (.httpError message) ∧
        client.succeeds sent request = false := by
  unfold deliver succeeds
  cases hpost : client.post sent request with
  | error raised =>
      obtain ⟨message, rfl⟩ := h.post_raises sent request raised hpost
      exact .inr ⟨message, rfl, rfl⟩
  | ok response =>
      cases hstatus : client.raiseForStatus response with
      | error raised =>
          obtain ⟨message, rfl⟩ := h.status_raises response raised hstatus
          exact .inr ⟨message, hstatus, (h.raises_iff response).mp ⟨_, hstatus⟩⟩
      | ok result =>
          refine .inl ⟨hstatus, ?_⟩
          rw [← Bool.not_eq_false, ← h.raises_iff response]
          rintro ⟨raised, hraised⟩
          cases hstatus.symm.trans hraised

end HttpClient

/-! ## The dispatch -/

/-- `json.dumps`, and `hmac.new(key, message, hashlib.sha256).hexdigest()`. -/
structure Encoders where
  dumps : Json → Str
  hmacSha256 : List UInt8 → List UInt8 → Str

/-- HMAC-SHA256 of the raw request body, hex-encoded. -/
def signPayload (encoders : Encoders) (secret : Str) (body : List UInt8) : Str :=
  encoders.hmacSha256 (encodeUtf8 secret) body

/-- The body that is posted at a point in time. -/
def eventBody (encoders : Encoders) (eventType : Str) (payload : Json) (now : Time) : List UInt8 :=
  encodeUtf8 (encoders.dumps (.object [("event".toList, .string eventType),
    ("data".toList, payload), ("ts".toList, .number (now / Time.second : ℕ))]))

/-- The request for a webhook. -/
def requestFor (encoders : Encoders) (eventType : Str) (body : List UInt8) (webhook : OrgWebhook) :
    Request where
  url := webhook.url
  content := body
  headers := [("Content-Type".toList, "application/json".toList),
    ("X-Webhook-Event".toList, eventType),
    ("X-Webhook-Signature".toList, signPayload encoders webhook.secret body)]

/-- What a dispatch does: the requests it posts, the webhooks it logs a failed delivery
for, and what it returns or raises. -/
structure Dispatch where
  requests : List Request
  failed : List Uuid
  result : Except Fault ℕ

/-- The loop over the webhooks, after these requests, failures and successes. -/
def deliverAll (client : HttpClient) (request : OrgWebhook → Request) :
    List OrgWebhook → List Request → List Uuid → ℕ → Dispatch
  | [], requests, failed, delivered => ⟨requests, failed, .ok delivered⟩
  | webhook :: rest, requests, failed, delivered =>
      match client.deliver requests.length (request webhook) with
      | .ok () => deliverAll client request rest (requests ++ [request webhook]) failed (delivered + 1)
      | .error (.httpError _) =>
          deliverAll client request rest (requests ++ [request webhook]) (failed ++ [webhook.id])
            delivered
      | .error (.other message) =>
          ⟨requests ++ [request webhook], failed, .error (.raised message)⟩

def dispatchWebhooksForEvent (client : HttpClient) (encoders : Encoders) (began now : Time)
    (db : Database) (orgId : Uuid) (eventType : Str) (payload : Json) : Dispatch :=
  match subscribedWebhooks orgId eventType (.start .appUser began db) with
  | .error fault => ⟨[], [], .error fault⟩
  | .ok (webhooks, _) =>
      if webhooks = [] then ⟨[], [], .ok 0⟩
      else
        let body := eventBody encoders eventType payload now
        deliverAll client (requestFor encoders eventType body) webhooks [] [] 0

/-! ## One delivery after another -/

/-- Every webhook gets its request, and each delivery counts on its own. -/
theorem deliverAll_eq {client : HttpClient} (h : client.Documented) (request : OrgWebhook → Request)
    (webhooks : List OrgWebhook) (requests : List Request) (failed : List Uuid) (delivered : ℕ) :
    deliverAll client request webhooks requests failed delivered =
      ⟨requests ++ webhooks.map request,
        failed ++ ((webhooks.zipIdx requests.length).filter fun sent =>
          !client.succeeds sent.2 (request sent.1)).map fun sent => sent.1.id,
        .ok (delivered + (webhooks.zipIdx requests.length).countP fun sent =>
          client.succeeds sent.2 (request sent.1))⟩ := by
  induction webhooks generalizing requests failed delivered with
  | nil => simp [deliverAll]
  | cons webhook rest ih =>
      rw [deliverAll]
      rcases h.deliver_cases requests.length (request webhook) with
        ⟨hdeliver, hsucceeds⟩ | ⟨message, hdeliver, hfails⟩
      · rw [hdeliver]
        dsimp only
        rw [ih]
        simp [hsucceeds, Nat.add_assoc, Nat.add_comm 1]
      · rw [hdeliver]
        dsimp only
        rw [ih]
        simp [hfails]

/-- The active webhooks of an organization that are subscribed to an event. -/
def subscribed (db : Database) (orgId : Uuid) (eventType : Str) : List OrgWebhook :=
  (db .orgWebhooks).filter fun webhook =>
    webhook.orgId == orgId && webhook.isActive && webhook.eventTypes.contains eventType

/-- The transaction finds exactly the webhooks to deliver to. -/
theorem subscribedWebhooks_start (db : Database) (began : Time) (orgId : Uuid) (eventType : Str) :
    (subscribedWebhooks orgId eventType).Runs (.start .appUser began db)
      (subscribed db orgId eventType) ⟨.appUser, some orgId, began, db⟩ := by
  simp only [subscribedWebhooks, Program.runs_bind, runs_setOrgContext, Program.runs_pure]
  refine ⟨(), _, rfl, _, _, runs_scalars.mpr ⟨rfl, rfl⟩, ?_, rfl⟩
  rw [List.filter_filter]
  refine List.filter_congr fun webhook _ => ?_
  have hvisible : (Conn.policy ⟨.appUser, some orgId, began, db⟩).visible .orgWebhooks webhook =
      (webhook.orgId == orgId) := by
    simp [Conn.policy, policy, orgIsolation, rowOrg]
  rw [Conn.start, hvisible, Bool.and_comm]

/-- One bad webhook never affects another: whatever the deliveries come to, a dispatch
posts one request to each active webhook of the organization that is subscribed to the
event, all with one body and each signed with its own secret, and returns the number
of deliveries that got a response of success. -/
theorem dispatchWebhooksForEvent_eq (client : HttpClient) (h : client.Documented)
    (encoders : Encoders) (began now : Time) (db : Database) (orgId : Uuid) (eventType : Str)
    (payload : Json) :
    (dispatchWebhooksForEvent client encoders began now db orgId eventType payload).requests =
        (subscribed db orgId eventType).map (fun webhook =>
          { url := webhook.url
            content := eventBody encoders eventType payload now
            headers := [("Content-Type".toList, "application/json".toList),
              ("X-Webhook-Event".toList, eventType),
              ("X-Webhook-Signature".toList,
                signPayload encoders webhook.secret (eventBody encoders eventType payload now))] }) ∧
      (dispatchWebhooksForEvent client encoders began now db orgId eventType payload).result =
        .ok ((dispatchWebhooksForEvent client encoders began now db orgId eventType
          payload).requests.zipIdx.countP fun posted => client.succeeds posted.2 posted.1) := by
  have hrun : subscribedWebhooks orgId eventType (.start .appUser began db) =
      .ok (subscribed db orgId eventType, ⟨.appUser, some orgId, began, db⟩) :=
    subscribedWebhooks_start db began orgId eventType
  rw [dispatchWebhooksForEvent, hrun]
  dsimp only
  split
  · next hnone =>
      rw [hnone]
      exact ⟨rfl, rfl⟩
  · rw [deliverAll_eq h]
    refine ⟨rfl, ?_⟩
    rw [List.nil_append, List.zipIdx_map, List.countP_map, Nat.zero_add]
    rfl

/-- A first post that is answered and later ones that time out. -/
def flakyClient : HttpClient where
  post := fun sent _ => if sent = 0 then .ok ⟨204⟩ else .error (.httpError "timed out".toList)
  raiseForStatus := fun response =>
    if response.isSuccess then .ok () else .error (.httpError "status".toList)

theorem documented_flakyClient : flakyClient.Documented where
  post_raises := by
    intro sent request raised h
    unfold flakyClient at h
    dsimp only at h
    split at h
    · cases h
    · cases h
      exact ⟨_, rfl⟩
  status_raises := by
    intro response raised h
    unfold flakyClient at h
    dsimp only at h
    split at h
    · cases h
    · cases h
      exact ⟨_, rfl⟩
  raises_iff := by
    intro response
    unfold flakyClient
    dsimp only
    split
    · next hsuccess => simp [hsuccess]
    · next hfails => exact iff_of_true ⟨_, rfl⟩ (Bool.eq_false_iff.mpr hfails)

/-- Two webhooks of an organization and one of another. -/
def hookedDb : Database
  | .orgWebhooks => [⟨7, 1, "https://a.example/hook".toList, "first".toList,
      ["document.ready".toList], true, 0⟩,
    ⟨8, 2, "https://b.example/hook".toList, "other".toList, ["document.ready".toList], true, 0⟩,
    ⟨9, 1, "https://c.example/hook".toList, "second".toList, ["document.ready".toList], true, 0⟩]
  | _ => []

/-- The text of the event and its signatures with the two secrets. -/
def readyEncoders : Encoders where
  dumps := fun _ =>
    ("\x7b\"event\": \"document.ready\", \"data\": " ++
      "\x7b\"document_id\": \"abc123\"\x7d, \"ts\": 0\x7d").toList
  hmacSha256 := fun key _ =>
    if key = encodeUtf8 "first".toList then
      "1eda15a5d7a8e842ad84fd920de43a462591720a2297bf3eb90b834fb22254ed".toList
    else "12e67a67a1dad3a61fe07ba4f94835212ccbb25887c59539b14adacae782c6b1".toList

/-- The payload of the event. -/
def readyPayload : Json := .object [("document_id".toList, .string "abc123".toList)]

theorem dispatchWebhooksForEvent_eq_ready :
    (dispatchWebhooksForEvent flakyClient readyEncoders 0 0 hookedDb 1 "document.ready".toList
      readyPayload).requests =
        (subscribed hookedDb 1 "document.ready".toList).map (fun webhook =>
          { url := webhook.url
            content := eventBody readyEncoders "document.ready".toList readyPayload 0
            headers := [("Content-Type".toList, "application/json".toList),
              ("X-Webhook-Event".toList, "document.ready".toList),
              ("X-Webhook-Signature".toList, signPayload readyEncoders webhook.secret
                (eventBody readyEncoders "document.ready".toList readyPayload 0))] }) ∧
      (dispatchWebhooksForEvent flakyClient readyEncoders 0 0 hookedDb 1 "document.ready".toList
        readyPayload).result =
        .ok ((dispatchWebhooksForEvent flakyClient readyEncoders 0 0 hookedDb 1
          "document.ready".toList readyPayload).requests.zipIdx.countP fun posted =>
            flakyClient.succeeds posted.2 posted.1) :=
  dispatchWebhooksForEvent_eq flakyClient documented_flakyClient readyEncoders 0 0 hookedDb 1
    "document.ready".toList readyPayload

end Worker
