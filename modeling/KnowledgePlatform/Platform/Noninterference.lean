import KnowledgePlatform.Api.Agreement
import KnowledgePlatform.Platform.Accounts
import KnowledgePlatform.Platform.Privileges

/-!
# Noninterference between organizations

Two platforms are compared as one organization sees them.  They start with the
same rows of the organization; what else they hold may differ.  Then each goes
its own way: the steps of other organizations, sign-ups and logins included, are
taken on one of them or on the other, in any number and order (`TwinStep.first`,
`TwinStep.second`).  Only the actions of the organization itself are the same,
and are executed on both (`TwinStep.both`).

Such actions give the same answers on both platforms, and the rows of the
organization stay the same.  What the two platforms may differ in is whether an
action succeeds: e-mail addresses, slugs and key prefixes are unique among all
organizations.  So an action counts where it succeeds on both.  They may also differ
in what an approximate scan of the shared vector index misses; a search counts where
it scans the index exactly.
-/

open Api Core Foundations Python Relational Worker

namespace Platform

variable {settings : Settings} {crypto : Crypto} {orgId : Uuid}

/-- The organization a step belongs to: the one its session is bound to, or the one
of the API key. -/
def Event.orgId? : Event → Option Uuid
  | .authenticated _ _ orgId _ => some orgId
  | .auth .. => none
  | .served orgId .. | .notIngested orgId _ | .dispatched orgId .. => some orgId
  | .asked turn | .answered turn _ => some turn.orgId
  | .ingesting run | .stored run .. | .raised run _ | .failed run _ => some run.orgId

theorem orgId?_of_boundTo {event : Event} (h : event.boundTo = some orgId) :
    event.orgId? = some orgId := by
  cases event <;> first | exact h | cases h

/-- The action scans the vector index exactly, if it searches. -/
def Action.ScansExactly : Action → Prop
  | .serve _ _ _ request => Api.ScansExactly request
  | .answer _ engine _ _ => engine.ExactScan
  | _ => True

/-- A step of two platforms. -/
inductive TwinEvent
  | first (event : Event)
  | second (event : Event)
  | both (event event' : Event)

/-- A step of another organization on one of the platforms, or one action of the
organization on both. -/
inductive TwinStep (settings : Settings) (crypto : Crypto) (orgId : Uuid) :
    World × World → TwinEvent → World × World → Prop
  | first {world world' other : World} {event : Event} :
      Step settings crypto world event world' → event.orgId? ≠ some orgId →
      TwinStep settings crypto orgId (world, other) (.first event) (world', other)
  | second {world other other' : World} {event : Event} :
      Step settings crypto other event other' → event.orgId? ≠ some orgId →
      TwinStep settings crypto orgId (world, other) (.second event) (world, other')
  | both {world world' other other' : World} {now : Time} {action : Action} {event event' : Event} :
      perform settings crypto now world action = some (event, world') →
      perform settings crypto now other action = some (event', other') →
      event.orgId? = some orgId → event'.orgId? = some orgId → action.ScansExactly →
      TwinStep settings crypto orgId (world, other) (.both event event') (world', other')

/-! ## Steps of others -/

theorem sameRows_iff {db db' : Database} : schema.SameRows orgId db db' ↔
    ∀ table, orgRows orgId db' table = orgRows orgId db table := by
  have hrows : ∀ (db : Database) table,
      (db table).filter (schema.isOf orgId table) = orgRows orgId db table := by
    intro db table
    refine List.filter_congr fun row _ => ?_
    exact (beq_eq_decide (rowOrg table row) (some orgId)).symm
  unfold Schema.SameRows
  simp only [hrows]
  exact forall_congr' fun table => eq_comm

/-- A step of another organization leaves the rows of this one as they are. -/
theorem sameRows_of_foreign {world world' : World} {event : Event} (hcoherent : Coherent world)
    (hissued : orgId ∈ world.issued) (hstep : Step settings crypto world event world')
    (hforeign : event.orgId? ≠ some orgId) : schema.SameRows orgId world.db world'.db := by
  refine sameRows_iff.mpr fun table => ?_
  cases hbound : event.boundTo with
  | some bound =>
      refine orgRows_of_isolated table (served_of_step hcoherent hstep hbound).isolated ?_
      rintro rfl
      exact hforeign (orgId?_of_boundTo hbound)
  | none =>
      cases event with
      | auth request =>
          refine orgRows_of_auth hstep ?_
          -- a new organization is not this one
          rintro ⟨hfounds, _⟩
          rw [← request.head?_draws] at hfounds
          exact (started_of_step hstep).2.1 _ (List.mem_of_head? hfounds) hissued
      | authenticated =>
          refine orgRows_of_authenticated hcoherent.sound hstep ?_
          rintro ⟨rfl, _⟩
          exact hforeign rfl
      | served | asked | answered | ingesting | notIngested | stored | raised | failed
        | dispatched => cases hbound

/-! ## Actions of the organization -/

/-- A transaction that is bound to the organization. -/
theorem same_of_transact {α : Type} {now : Time} {db db' after after' : Database} {tx : Tx α}
    {value value' : α} (hagrees : tx.Agrees (Begun orgId) (Bound orgId))
    (sound : schema.Sound db) (sound' : schema.Sound db') (hsame : schema.SameRows orgId db db')
    (h : transact .appUser now db tx = some (value, after))
    (h' : transact .appUser now db' tx = some (value', after')) :
    value = value' ∧ schema.SameRows orgId after after' := by
  obtain ⟨conn, hrun, rfl⟩ := transact_eq_some h
  obtain ⟨conn', hrun', rfl⟩ := transact_eq_some h'
  have hbegun : Begun orgId (.start .appUser now db) (.start .appUser now db') :=
    ⟨rfl, rfl, rfl, hsame, sound, sound'⟩
  obtain ⟨hvalue, hbound⟩ := hagrees _ _ _ _ _ _ hbegun hrun hrun'
  exact ⟨hvalue, hbound.rows⟩

/-- An API key of the organization. -/
theorem same_of_authenticate {now : Time} {db db' after after' : Database} {rawKey : Str}
    {creator creator' : User} (sound : schema.Sound db) (sound' : schema.Sound db')
    (hsame : schema.SameRows orgId db db')
    (h : transact .appAuth now db (resolveApiKey settings crypto now rawKey) =
      some ((orgId, creator), after))
    (h' : transact .appAuth now db' (resolveApiKey settings crypto now rawKey) =
      some ((orgId, creator'), after')) :
    creator = creator' ∧ schema.SameRows orgId after after' := by
  obtain ⟨conn, hrun, rfl⟩ := transact_eq_some h
  obtain ⟨conn', hrun', rfl⟩ := transact_eq_some h'
  obtain ⟨key, hkey, secret, hparse, _, _, _, hcreatedBy, hcreator, _, horg, hwrote⟩ :=
    resolveApiKey_eq_ok hrun
  obtain ⟨key', hkey', secret', hparse', _, _, _, hcreatedBy', hcreator', _, horg', hwrote'⟩ :=
    resolveApiKey_eq_ok hrun'
  have hkeyOf : schema.isOf orgId .apiKeys key = true := Schema.isOf_iff.mpr (congrArg some horg)
  -- prefixes are unique, so both keys are the one of the organization
  obtain rfl : key' = key := by
    rw [hparse] at hparse'
    have hprefix := congrArg Prod.fst (Option.some.inj hparse')
    exact eq_of_keyPrefix_eq sound' ((hsame.mem_iff hkeyOf).mp hkey) hkey' hprefix.symm
  obtain rfl : creator' = creator := by
    have hcreatorOf : schema.isOf orgId .users creator = true :=
      @Schema.isOf_parent _ _ _ _ _ _ _ .apiKeys rooted_schema sound _ hkey hkeyOf _
        (List.mem_cons_of_mem _ List.mem_cons_self) _ hcreator hcreatedBy
    rw [hcreatedBy] at hcreatedBy'
    exact sound'.eq_of_key_eq hcreator' ((hsame.mem_iff hcreatorOf).mp hcreator)
      (Option.some.inj hcreatedBy').symm
  refine ⟨rfl, ?_⟩
  rw [hwrote.update.2, hwrote'.update.2]
  refine hsame.update fun row => ?_
  split <;> rfl

/-- An action of the organization that succeeds on both platforms. -/
theorem same_of_perform {first first' second second' : World} {now : Time} {action : Action}
    {event event' : Event} (sound : schema.Sound first.db) (sound' : schema.Sound second.db)
    (hsame : schema.SameRows orgId first.db second.db)
    (h : perform settings crypto now first action = some (event, first'))
    (h' : perform settings crypto now second action = some (event', second'))
    (hof : event.orgId? = some orgId) (hof' : event'.orgId? = some orgId)
    (hexact : action.ScansExactly) :
    event = event' ∧ schema.SameRows orgId first'.db second'.db := by
  cases action <;> simp only [perform] at h h'
  case auth =>
    split at h
    · obtain ⟨_, _, ⟨⟩⟩ := Option.map_eq_some_iff.mp h
      cases hof
    · cases h
  case authenticate =>
    obtain ⟨⟨⟨_, creator⟩, db⟩, hresult, ⟨⟩⟩ := Option.map_eq_some_iff.mp h
    obtain ⟨⟨⟨_, creator'⟩, db'⟩, hresult', ⟨⟩⟩ := Option.map_eq_some_iff.mp h'
    cases hof
    cases hof'
    obtain ⟨rfl, hafter⟩ := same_of_authenticate sound sound' hsame hresult hresult'
    exact ⟨rfl, hafter⟩
  case serve =>
    split at h
    · split at h'
      · obtain ⟨⟨response, db⟩, hresult, ⟨⟩⟩ := Option.map_eq_some_iff.mp h
        obtain ⟨⟨response', db'⟩, hresult', ⟨⟩⟩ := Option.map_eq_some_iff.mp h'
        cases hof
        obtain ⟨rfl, hafter⟩ :=
          same_of_transact (agrees_serve hexact) sound sound' hsame hresult hresult'
        exact ⟨rfl, hafter⟩
      · cases h'
    · cases h
  case ask =>
    split at h
    · split at h'
      · obtain ⟨⟨_, db⟩, hresult, ⟨⟩⟩ := Option.map_eq_some_iff.mp h
        obtain ⟨⟨_, db'⟩, hresult', ⟨⟩⟩ := Option.map_eq_some_iff.mp h'
        cases hof
        exact ⟨rfl, (same_of_transact agrees_persistUserTurn sound sound' hsame hresult hresult').2⟩
      · cases h'
    · cases h
  case answer =>
    split at h
    · split at h'
      · obtain ⟨⟨out, db⟩, hresult, ⟨⟩⟩ := Option.map_eq_some_iff.mp h
        obtain ⟨⟨out', db'⟩, hresult', ⟨⟩⟩ := Option.map_eq_some_iff.mp h'
        cases hof
        obtain ⟨rfl, hafter⟩ :=
          same_of_transact (agrees_answerTurn hexact) sound sound' hsame hresult hresult'
        exact ⟨rfl, hafter⟩
      · cases h'
    · cases h
  case beginIngestion =>
    obtain ⟨⟨found, db⟩, hresult, hevent⟩ := Option.map_eq_some_iff.mp h
    obtain ⟨⟨found', db'⟩, hresult', hevent'⟩ := Option.map_eq_some_iff.mp h'
    cases found with
    | none | some =>
        cases hevent
        cases hof
        obtain ⟨rfl, hafter⟩ :=
          same_of_transact agrees_beginIngestion sound sound' hsame hresult hresult'
        cases hevent'
        exact ⟨rfl, hafter⟩
  case store =>
    split at h
    · cases h
    · next hprepare =>
        simp only [hprepare] at h'
        split at h
        · split at h'
          · obtain ⟨⟨_, db⟩, hresult, ⟨⟩⟩ := Option.map_eq_some_iff.mp h
            obtain ⟨⟨_, db'⟩, hresult', ⟨⟩⟩ := Option.map_eq_some_iff.mp h'
            cases hof
            exact ⟨rfl,
              (same_of_transact agrees_storeChunks sound sound' hsame hresult hresult').2⟩
          · cases h'
        · cases h
  case raiseWork =>
    split at h
    · cases h
    · next hprepare =>
        simp only [hprepare] at h'
        split at h
        · split at h'
          · cases h
            cases h'
            exact ⟨rfl, hsame⟩
          · cases h'
        · cases h
  case fail =>
    split at h
    · split at h'
      · obtain ⟨⟨_, db⟩, hresult, ⟨⟩⟩ := Option.map_eq_some_iff.mp h
        obtain ⟨⟨_, db'⟩, hresult', ⟨⟩⟩ := Option.map_eq_some_iff.mp h'
        cases hof
        exact ⟨rfl, (same_of_transact agrees_setStatus sound sound' hsame hresult hresult').2⟩
      · cases h'
    · cases h
  case dispatch =>
    obtain ⟨⟨webhooks, db⟩, hresult, ⟨⟩⟩ := Option.map_eq_some_iff.mp h
    obtain ⟨⟨webhooks', db'⟩, hresult', ⟨⟩⟩ := Option.map_eq_some_iff.mp h'
    cases hof
    obtain ⟨rfl, hafter⟩ :=
      same_of_transact agrees_subscribedWebhooks sound sound' hsame hresult hresult'
    exact ⟨rfl, hafter⟩

/-! ## Runs of two platforms -/

/-- What is known of two platforms in a run. -/
structure Twins (orgId : Uuid) (worlds : World × World) : Prop where
  first : Coherent worlds.1
  second : Coherent worlds.2
  issued : orgId ∈ worlds.1.issued
  issued' : orgId ∈ worlds.2.issued
  same : schema.SameRows orgId worlds.1.db worlds.2.db

theorem mem_issued_of_mem {world world' : World} {event : Event} (hissued : orgId ∈ world.issued)
    (hstep : Step settings crypto world event world') : orgId ∈ world'.issued := by
  rw [(started_of_step hstep).1]
  exact List.mem_append_right _ hissued

theorem Twins.step {worlds worlds' : World × World} {event : TwinEvent} (h : Twins orgId worlds)
    (hstep : TwinStep settings crypto orgId worlds event worlds') :
    Twins orgId worlds' ∧ ∀ left right, event = .both left right → left = right := by
  cases hstep with
  | first hstep hforeign =>
      have hsame := (sameRows_of_foreign h.first h.issued hstep hforeign).symm.trans h.same
      exact ⟨⟨h.first.step hstep, h.second, mem_issued_of_mem h.issued hstep, h.issued', hsame⟩,
        by simp⟩
  | second hstep hforeign =>
      have hsame := h.same.trans (sameRows_of_foreign h.second h.issued' hstep hforeign)
      exact ⟨⟨h.first, h.second.step hstep, h.issued, mem_issued_of_mem h.issued' hstep, hsame⟩,
        by simp⟩
  | both hperform hperform' hof hof' hexact =>
      obtain ⟨hevents, hsame⟩ := same_of_perform h.first.sound h.second.sound h.same hperform
        hperform' hof hof' hexact
      have hstep := step_of_perform hperform
      have hstep' := step_of_perform hperform'
      refine ⟨⟨h.first.step hstep, h.second.step hstep', mem_issued_of_mem h.issued hstep,
        mem_issued_of_mem h.issued' hstep', hsame⟩, ?_⟩
      rintro _ _ ⟨⟩
      exact hevents

/-- An organization cannot tell two platforms apart that hold the same rows of it,
whatever the others do on either: in every run of both, its own actions answer the
same on both, and leave the same rows of it. -/
theorem noninterference {start start' first second : World} {trace trace' : List Event}
    {last : World × World} {twins : List TwinEvent} (hstart : Initial start)
    (hfirst : Runs settings crypto start trace first) (hstart' : Initial start')
    (hsecond : Runs settings crypto start' trace' second) (hissued : orgId ∈ first.issued)
    (hissued' : orgId ∈ second.issued) (hsame : schema.SameRows orgId first.db second.db)
    (hrun : Run (TwinStep settings crypto orgId) (first, second) twins last) :
    schema.SameRows orgId last.1.db last.2.db ∧
      ∀ event event', TwinEvent.both event event' ∈ twins → event = event' := by
  have htwins : Twins orgId (first, second) :=
    ⟨coherent_of_runs hstart hfirst, coherent_of_runs hstart' hsecond, hissued, hissued', hsame⟩
  suffices hall : Twins orgId last ∧
      ∀ event event', TwinEvent.both event event' ∈ twins → event = event' from
    ⟨hall.1.same, hall.2⟩
  refine hrun.invariant (P := fun twins worlds => Twins orgId worlds ∧
    ∀ event event', TwinEvent.both event event' ∈ twins → event = event')
    ⟨htwins, fun _ _ hmem => absurd hmem List.not_mem_nil⟩ ?_
  rintro twins middle event last _ ⟨htwins, hevents⟩ hstep
  obtain ⟨hnext, hboth⟩ := htwins.step hstep
  refine ⟨hnext, fun left right hmem => ?_⟩
  rcases List.mem_append.mp hmem with hbefore | hnew
  · exact hevents left right hbefore
  · exact hboth left right (List.mem_singleton.mp hnew).symm

/-- The sign-up of an organization. -/
def signUp (name email draw : Str) (orgId userId tokenId : Uuid) : Action :=
  .auth (.signup ⟨name, email, [], none⟩ [] ⟨orgId, userId, draw⟩ ⟨draw, tokenId⟩)

/-- The first organization creates a document. -/
def creatingDocument : Action := .serve 1 2 false (.createDocument ⟨"D".toList, none, none⟩ 8)

/-- On the second platform another organization signs up in between. -/
theorem noninterference_signUp : ∃ first second : World, ∃ event event' : Event,
    ((first.db .organizations).length, (first.db .documents).length) = (1, 1) ∧
    ((second.db .organizations).length, (second.db .documents).length) = (2, 1) ∧
    schema.SameRows 1 first.db second.db ∧ event.orgId? = some 1 ∧ event = event' := by
  have hevaluate : ((perform {} sampleCrypto 0 emptyWorld
      (signUp "A".toList "a@x".toList "a".toList 1 2 3)).bind fun base =>
        (perform {} sampleCrypto 0 base.2 (signUp "B".toList "b@x".toList "b".toList 4 5 6)).bind
          fun grown => (perform {} sampleCrypto 1 base.2 creatingDocument).bind fun left =>
            (perform {} sampleCrypto 1 grown.2 creatingDocument).map fun right =>
              ((base.2.issued.contains 1, grown.1.orgId?, left.1.orgId?, right.1.orgId?),
                ((left.2.db .organizations).length, (left.2.db .documents).length),
                ((right.2.db .organizations).length, (right.2.db .documents).length))) =
      some ((true, none, some 1, some 1), (1, 1), (2, 1)) := by decide +kernel
  obtain ⟨⟨_, base⟩, hbase, hrest⟩ := Option.bind_eq_some_iff.mp hevaluate
  obtain ⟨⟨other, grown⟩, hother, hrest⟩ := Option.bind_eq_some_iff.mp hrest
  obtain ⟨⟨event, first⟩, hleft, hrest⟩ := Option.bind_eq_some_iff.mp hrest
  obtain ⟨⟨event', second⟩, hright, hfacts⟩ := Option.map_eq_some_iff.mp hrest
  obtain ⟨⟨hissued, hforeign, hof, hof'⟩, hfirst, hsecond⟩ : (_ ∧ _ ∧ _ ∧ _) ∧ _ ∧ _ := by
    simpa only [Prod.mk.injEq] using hfacts
  have hbaseRun := Run.single (step_of_perform hbase)
  have hmem : (1 : Uuid) ∈ base.issued := by simpa using hissued
  have hrun : Run (TwinStep {} sampleCrypto 1) (base, base)
      ([.second other] ++ [.both event event']) (first, second) :=
    (Run.single (.second (step_of_perform hother) (by rw [hforeign]; simp))).snoc
      (.both hleft hright hof hof' trivial)
  obtain ⟨hsame, hevents⟩ := noninterference initial_emptyWorld hbaseRun initial_emptyWorld hbaseRun
    hmem hmem (fun _ => rfl) hrun
  refine ⟨first, second, event, event', ?_, ?_, hsame, hof, hevents event event' (by simp)⟩
  · exact Prod.ext hfirst.1 hfirst.2
  · exact Prod.ext hsecond.1 hsecond.2

end Platform
