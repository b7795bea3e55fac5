import KnowledgePlatform.Api.Schemas
import KnowledgePlatform.Platform.Isolation

/-!
# Stored values

The rows of a reachable database fit their columns (`fitting_of_runs`): the
database checks what is stored, and its referential actions only set references
to NULL.  An accepted body is therefore stored as it is exactly when
`Submission.FitsColumns` says so, whatever happened before.
-/

open Api Core Foundations Python Relational

namespace Platform

/-- The caller a submission is served to is one the guard of its endpoint lets pass;
a sign-up has none. -/
def Admits (draws : HandlerDraws) (db : Database) : Submission → Prop
  | .signup _ => True
  | .served principal body => Admitted (body.request draws).roles principal.orgId
      principal.user.id db principal

section Spec

variable {settings : Settings} {crypto : Crypto} {draws : HandlerDraws} {now began : Time}
  {validators : Validators}

theorem fitting_of_wrote {conn conn' : Conn} {writes : List (Write schema)}
    (h : conn.Wrote writes conn') (hfitting : schema.Fitting conn.db) :
    schema.Fitting conn'.db :=
  h.executes.preserves
    (fun _ _ _ _ hexecute => Policy.fitting_execute rowFits_clear hexecute) hfitting

/-- The rows of a reachable database fit their columns. -/
theorem fitting_of_runs {start world : World} {trace : List Event}
    (hstart : schema.Fitting start.db) (hrun : Runs settings crypto start trace world) :
    schema.Fitting world.db := by
  refine hrun.keeps (P := fun world => schema.Fitting world.db) ?_ hstart
  intro before event after hfitting hstep
  obtain ⟨conn, conn', writes, _, hwrote, hbefore, hafter⟩ := step_effect hstep
  rw [hafter]
  exact fitting_of_wrote hwrote (hbefore ▸ hfitting)

/-- The organization of an admitted caller is stored. -/
theorem exists_organization {db : Database} (hsound : schema.Sound db)
    {roles : Option (List UserRole)} {orgId userId : Uuid} {principal : Principal}
    (hadmitted : Admitted roles orgId userId db principal) :
    ∃ org ∈ db .organizations, org.id = orgId := by
  obtain ⟨org, horg, hid⟩ := hsound.resolved .users principal.user hadmitted.stored
    (orgKey User.orgId) List.mem_cons_self principal.user.orgId rfl
  exact ⟨org, horg, hid.trans hadmitted.member⟩

/-- The statements of a submission are the ones a handler that answers has executed, if
it changed anything. -/
theorem wrote_of_submission {db : Database} {submission : Submission} {conn' : Conn}
    (hadmitted : Admits draws db submission)
    (hrun : (submission.run settings crypto draws now).Runs (submission.session began db) ()
      conn') :
    submission.session began db = conn' ∨ (submission.session began db).Wrote
      (submission.writes settings crypto draws now (submission.session began db)) conn' := by
  cases submission with
  | signup body =>
      obtain ⟨tokens, hsignup, _⟩ := Program.runs_map.mp hrun
      exact .inr (signup_wrote rfl hsignup).2
  | served principal body =>
      obtain ⟨response, hhandle, _⟩ := Program.runs_map.mp hrun
      exact (handle_eq_ok rfl rfl hadmitted.stored hadmitted.member hhandle).2

/-- In every reachable state, the columns hold what the handler of an accepted body
stores exactly when the body is one they hold. -/
theorem submission_storable_iff {start world : World} {trace : List Event}
    (hstart : Initial start) (hfitting : schema.Fitting start.db)
    (hrun : Runs settings crypto start trace world) (hdocumented : validators.Documented)
    {raw submission : Submission} (haccepted : raw.validate validators = some submission)
    (hadmitted : Admits draws world.db submission) (hdraws : draws.Documented crypto) :
    submission.Storable settings crypto draws now (submission.session began world.db) ↔
      submission.FitsColumns world.db := by
  cases raw with
  | signup raw =>
      obtain ⟨body, hbody, rfl⟩ := Option.map_eq_some_iff.mp haccepted
      exact SignupRequest.storable_iff (SignupRequest.bounded_of_validate hdocumented hbody) hdraws
        rfl
  | served principal raw =>
      obtain ⟨body, hbody, rfl⟩ := Option.map_eq_some_iff.mp haccepted
      have hsound := (coherent_of_runs hstart hrun).sound
      exact ServedBody.storable_iff (ServedBody.bounded_of_validate hdocumented hbody) hdraws
        (fitting_of_runs hfitting hrun) (exists_organization hsound hadmitted)

end Spec

/-! ## A first organization -/

/-- Validators that take an address or a URL as it is. -/
def sampleValidators : Validators where
  emailStr := fun raw =>
    if '@' ∈ raw ∧ raw.length ≤ 254 ∧ '\x00' ∉ raw then some raw else none
  httpUrl := fun raw => if '\x00' ∉ raw then some raw else none

theorem documented_sampleValidators : sampleValidators.Documented where
  emailStr := by
    intro raw email h
    obtain ⟨⟨_, hlength, hnul⟩, heq⟩ := Option.ite_none_right_eq_some.mp h
    cases heq
    exact ⟨hlength, hnul⟩
  httpUrl := by
    intro raw url h
    obtain ⟨hnul, heq⟩ := Option.ite_none_right_eq_some.mp h
    cases heq
    exact hnul

def rainDraws : HandlerDraws where
  id := 7
  hashedPassword := "$argon2id$v=19$m=65536,t=3,p=4$".toList ++ List.replicate 22 'A' ++
    '$' :: List.replicate 43 'A'
  provisioned := ⟨1, 2, "0a1b2c".toList⟩
  token := ⟨"first".toList, 3⟩
  apiKey := ⟨4, "0a1b2c3d".toList, "second".toList⟩
  webhookSecret := List.replicate 43 'A'

theorem documented_rainDraws : rainDraws.Documented sampleCrypto where
  hashedPassword := by decide +kernel
  suffix := by decide +kernel
  tokenHash := by decide +kernel
  handle := show IsHex 8 _ by decide +kernel
  hashedKey := by decide +kernel
  webhookSecret := by decide +kernel

/-- Ann signs up and founds the organization Rain. -/
def foundingRain : List (Time × Action) :=
  [(0, .auth (.signup ⟨"Rain".toList, "ann@rain.org".toList, "password".toList, none⟩
    rainDraws.hashedPassword rainDraws.provisioned rainDraws.token))]

def ann : Principal where
  orgId := 1
  role := .admin
  user := ⟨2, 1, "ann@rain.org".toList, some rainDraws.hashedPassword, none, .admin, true, 0⟩
  viaApiKey := false

/-- Ann sets the monthly budget. -/
def annBudget (budget : ℚ) : Submission := .served ann (.organizationUpdate ⟨some budget⟩)

theorem admits_annBudget {db : Database} (hstored : ann.user ∈ db .users) (budget : ℚ) :
    Admits rainDraws db (annBudget budget) where
  bound := rfl
  role := rfl
  stored := hstored
  userId := rfl
  active := rfl
  member := rfl
  allowed := by
    rintro allowed ⟨⟩
    exact List.mem_singleton_self _

/-- A budget of whole cents is stored as it is. -/
theorem submission_storable_iff_budget : ∃ trace world,
    performAll {} sampleCrypto emptyWorld foundingRain = some (trace, world) ∧
      (annBudget (51 / 2)).Storable {} sampleCrypto rainDraws 0
        ((annBudget (51 / 2)).session 0 world.db) := by
  have hevaluate : (performAll {} sampleCrypto emptyWorld foundingRain).map
      (fun result => result.2.db .users) = some [ann.user] := by decide +kernel
  obtain ⟨⟨trace, world⟩, hfound, husers⟩ := Option.map_eq_some_iff.mp hevaluate
  have hstored : ann.user ∈ world.db .users := by
    simp only at husers
    rw [husers]
    exact List.mem_singleton_self _
  have haccepted : (annBudget (51 / 2)).validate sampleValidators = some (annBudget (51 / 2)) := by
    decide +kernel
  refine ⟨trace, world, hfound, ?_⟩
  refine (submission_storable_iff initial_emptyWorld (fun _ _ h => absurd h List.not_mem_nil)
    (runs_of_performAll hfound) documented_sampleValidators haccepted (admits_annBudget hstored _)
    documented_rainDraws).mpr ?_
  rintro budget ⟨⟩
  exact ⟨⟨2550, by norm_num⟩, by norm_num⟩

/-- Half a cent is accepted, and stored as a cent. -/
theorem halfCent_storedAsCent : ∃ trace world conn',
    performAll {} sampleCrypto emptyWorld foundingRain = some (trace, world) ∧
      (annBudget (5 / 1000)).validate sampleValidators = some (annBudget (5 / 1000)) ∧
      Admits rainDraws world.db (annBudget (5 / 1000)) ∧
      ((annBudget (5 / 1000)).run {} sampleCrypto rainDraws 0).Runs
        ((annBudget (5 / 1000)).session 0 world.db) () conn' ∧
      (conn'.db .organizations).map (fun org =>
        (org.id, org.monthlyBudgetUsd.map Numeric.unscaled)) = [(1, some 1)] ∧
      ¬(annBudget (5 / 1000)).Storable {} sampleCrypto rainDraws 0
        ((annBudget (5 / 1000)).session 0 world.db) := by
  have hevaluate : (performAll {} sampleCrypto emptyWorld foundingRain).bind (fun result =>
      (((annBudget (5 / 1000)).run {} sampleCrypto rainDraws 0
        ((annBudget (5 / 1000)).session 0 result.2.db)).toOption).map fun answered =>
          (result.2.db .users, (answered.2.db .organizations).map fun org =>
            (org.id, org.monthlyBudgetUsd.map Numeric.unscaled))) =
      some ([ann.user], [(1, some 1)]) := by decide +kernel
  obtain ⟨⟨trace, world⟩, hfound, hrest⟩ := Option.bind_eq_some_iff.mp hevaluate
  obtain ⟨⟨_, conn'⟩, hanswered, hfacts⟩ := Option.map_eq_some_iff.mp hrest
  obtain ⟨husers, horganizations⟩ := Prod.mk.inj hfacts
  have hstored : ann.user ∈ world.db .users := by
    rw [husers]
    exact List.mem_singleton_self _
  have hrun := Program.runs_of_toOption hanswered
  refine ⟨trace, world, conn', hfound, by decide +kernel, admits_annBudget hstored _, hrun,
    horganizations, ?_⟩
  intro hstorable
  have hkeeps := hstorable.keepsBudget conn' hrun
  obtain ⟨org, horg, hbudget⟩ := List.mem_map.mp
    (horganizations ▸ List.mem_singleton_self ((1 : Uuid), some (1 : ℤ)))
  obtain ⟨hid, hcents⟩ := Prod.mk.inj hbudget
  have hexact := hkeeps org horg hid
  obtain ⟨stored, hmonthly, hone⟩ := Option.map_eq_some_iff.mp hcents
  rw [hmonthly] at hexact
  have hrat : stored.toRat = 5 / 1000 := Option.some.inj hexact
  rw [Numeric.toRat, hone] at hrat
  norm_num at hrat

end Platform
