import KnowledgePlatform.Core.Db

/-!
# Webhook dispatch

The transaction of `dispatch_webhooks_for_event`: the active webhooks of the
organization that are subscribed to the event.
-/

open Core Foundations Python Relational

namespace Worker

def subscribedWebhooks (orgId : Uuid) (eventType : Str) : Tx (List OrgWebhook) := do
  setOrgContext orgId
  let webhooks ← scalars .orgWebhooks fun webhook => webhook.isActive
  pure (webhooks.filter fun webhook => webhook.eventTypes.contains eventType)

/-- Dispatching only reads, and reads webhooks of the organization. -/
theorem subscribedWebhooks_eq_ok {conn conn' : Conn} {orgId : Uuid} {eventType : Str}
    {webhooks : List OrgWebhook} (hrole : conn.role = .appUser)
    (h : (subscribedWebhooks orgId eventType).Runs conn webhooks conn') :
    { conn with currentOrg := some orgId } = conn' ∧
      ∀ webhook ∈ webhooks, webhook.orgId = orgId := by
  simp only [subscribedWebhooks, Program.runs_bind, runs_setOrgContext, Program.runs_pure] at h
  obtain ⟨_, _, rfl, found, _, hfound, rfl, rfl⟩ := h
  obtain ⟨rfl, hseen⟩ := of_runs_scalars hfound
  refine ⟨rfl, fun webhook hwebhook => ?_⟩
  obtain ⟨_, _, hvisible⟩ := hseen webhook (List.mem_filter.mp hwebhook).1
  have hbound : ({ conn with currentOrg := some orgId } : Conn).role = .appUser := hrole
  exact Option.some.inj (@rowOrg_of_visible _ _ hbound rfl .orgWebhooks _ hvisible)

end Worker
