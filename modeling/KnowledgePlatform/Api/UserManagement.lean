import KnowledgePlatform.Api.AuthEffects
import KnowledgePlatform.Api.Requests
import KnowledgePlatform.Foundations.Runs

/-!
# Concurrent user management

The statements of the requests of the users router, interleaved.  `get_principal` reads
the acting user when the request begins and takes no lock; the handler reads the user it
acts on and applies the checks that keep administrators from acting on themselves; its
`UPDATE` or `DELETE` waits for the row lock and becomes visible at the commit.

An organization keeps an active administrator because the acting one does: it may not
demote, deactivate or delete itself.  That it still is one when its change commits is
checked nowhere, and two administrators who act on each other both stop being one.
-/

open Core Foundations Python Relational

namespace Api

/-- A change of a user. -/
inductive UserChange
  | update (body : UserUpdate)
  | delete
  deriving DecidableEq

/-- The requests of the users router that write. -/
inductive ManageRequest
  | create (body : UserCreate) (id : Uuid) (hashedPassword : Str)
  | change (target : Uuid) (change : UserChange)
  deriving DecidableEq

/-- How far a request has come. -/
inductive ManagePhase
  | idle
  | admitted (principal : Principal) (request : ManageRequest)
  | selected (principal : Principal) (loaded : User) (change : UserChange)
  | written (principal : Principal) (loaded : User) (change : UserChange)
  | ended
  deriving DecidableEq

/-- The committed organizations and users, the requests, and the row locks of users. -/
structure UserStore where
  orgs : List Uuid
  users : List User
  requests : ℕ → ManagePhase
  lockedBy : Uuid → Option ℕ

/-- The statements of the requests, and the provisioning of an organization by a sign-up
or an OAuth callback. -/
inductive ManageEvent
  | provision (email : Str) (hashedPassword fullName : Option Str) (draw : ProvisionDraw)
      (createdAt : Time)
  | authenticate (request : ℕ) (orgId userId : Uuid) (viaApiKey : Bool) (wanted : ManageRequest)
  | select (request : ℕ)
  | write (request : ℕ)
  | commit (request : ℕ) (createdAt : Time)
  | abort (request : ℕ)

/-! ## Changes -/

/-- The assignments that differ from what was loaded; the session writes no others. -/
def netChange (loaded : User) (body : UserUpdate) : UserUpdate where
  fullName := body.fullName.filter fun fullName => some fullName ≠ loaded.fullName
  role := body.role.filter fun role => role ≠ loaded.role
  isActive := body.isActive.filter fun isActive => isActive ≠ loaded.isActive

/-- The row of a user as a session of the organization sees it. -/
def isRowOf (orgId id : Uuid) (user : User) : Bool := user.orgId == orgId && user.id == id

/-- What a query for a row returns: the object that the session has loaded already, or
the row. -/
def sessionObject (principal : Principal) (found : User) : User :=
  if found.id = principal.user.id then principal.user else found

namespace UserChange

/-- The checks of `update_user` and `delete_user`. -/
def isRefused (principal : Principal) (loaded : User) : UserChange → Bool
  | .update body => loaded.id == principal.user.id &&
      (body.role.any (· ≠ .admin) || body.isActive == some false)
  | .delete => loaded.id == principal.user.id

/-- The users after the statement. -/
def apply (principal : Principal) (loaded : User) (users : List User) : UserChange → List User
  | .update body => users.map fun user =>
      if isRowOf principal.orgId loaded.id user then
        (assignUser (netChange loaded body)).set user
      else user
  | .delete => users.filter fun user => !isRowOf principal.orgId loaded.id user

/-- The change takes an active administrator away: it demotes, deactivates or deletes. -/
def demotes : UserChange → Bool
  | .update body => body.role.any (· ≠ .admin) || body.isActive == some false
  | .delete => true

end UserChange

namespace UserStore

/-- A request moves on. -/
def move (store : UserStore) (request : ℕ) (phase : ManagePhase) : UserStore :=
  { store with requests := Function.update store.requests request phase }

/-- The row lock of a user is taken or released. -/
def setLock (store : UserStore) (id : Uuid) (holder : Option ℕ) : UserStore :=
  { store with lockedBy := Function.update store.lockedBy id holder }

/-- The row of a user, to a session of the organization. -/
def row (store : UserStore) (orgId id : Uuid) : Option User := store.users.find? (isRowOf orgId id)

@[simp] theorem move_self (store : UserStore) (request : ℕ) (phase : ManagePhase) :
    (store.move request phase).requests request = phase :=
  Function.update_self ..

@[simp] theorem row_move (store : UserStore) (request : ℕ) (phase : ManagePhase) (orgId id : Uuid) :
    (store.move request phase).row orgId id = store.row orgId id := rfl

@[simp] theorem move_move (store : UserStore) (request : ℕ) (phase later : ManagePhase) :
    (store.move request phase).move request later = store.move request later := by
  simp [move]

/-- Whether a new user violates no unique constraint. -/
def isNew (store : UserStore) (user : User) : Bool :=
  store.users.all fun other => other.id != user.id && !rowClash .users other user

/-- Whether the commit has no statement to send, or one that finds no row to delete. -/
def writesNothing (store : UserStore) (principal : Principal) (loaded : User) :
    UserChange → Bool
  | .update body => netChange loaded body == ⟨none, none, none⟩
  | .delete => (store.row principal.orgId loaded.id).isNone

/-- One statement. -/
def next (store : UserStore) : ManageEvent → Option UserStore
  | .provision email hashedPassword fullName draw createdAt =>
      if store.orgs.contains draw.orgId = false ∧
          store.isNew (firstAdmin email hashedPassword fullName draw createdAt) = true then
        some { store with
          orgs := draw.orgId :: store.orgs
          users := store.users ++ [firstAdmin email hashedPassword fullName draw createdAt] }
      else none
  | .authenticate request orgId userId viaApiKey wanted =>
      match store.requests request with
      -- `get_principal`, and `require_role(ADMIN)` on what it read
      | .idle =>
          match store.row orgId userId with
          | none => some (store.move request .ended)
          | some user =>
              if user.isActive = true ∧ user.role = .admin then
                some (store.move request (.admitted ⟨orgId, user.role, user, viaApiKey⟩ wanted))
              else some (store.move request .ended)
      | _ => none
  | .select request =>
      match store.requests request with
      | .admitted principal (.change target change) =>
          match store.row principal.orgId target with
          | none => some (store.move request .ended)
          | some found =>
              if change.isRefused principal (sessionObject principal found) then
                some (store.move request .ended)
              else some (store.move request
                (.selected principal (sessionObject principal found) change))
      | _ => none
  | .write request =>
      match store.requests request with
      | .selected principal loaded change =>
          -- no `UPDATE` is emitted where no column changes
          if store.writesNothing principal loaded change then none
          -- otherwise it waits for the row, and matches none if the row is gone
          else match store.lockedBy loaded.id, store.row principal.orgId loaded.id with
            | none, some _ => some ((store.move request (.written principal loaded change)).setLock
                loaded.id (some request))
            | _, _ => none
      | _ => none
  | .commit request createdAt =>
      match store.requests request with
      | .admitted principal (.create body id hashedPassword) =>
          if store.isNew (newUser principal body id hashedPassword createdAt) then
            some { store.move request .ended with
              users := store.users ++ [newUser principal body id hashedPassword createdAt] }
          else none
      | .selected principal loaded change =>
          if store.writesNothing principal loaded change then some (store.move request .ended)
          else none
      | .written principal loaded change =>
          some { (store.move request .ended).setLock loaded.id none with
            users := change.apply principal loaded store.users }
      | _ => none
  | .abort request =>
      match store.requests request with
      | .idle | .ended => none
      | .admitted _ _ | .selected _ _ _ => some (store.move request .ended)
      | .written _ loaded _ => some ((store.move request .ended).setLock loaded.id none)

theorem next_commit_of_written {store : UserStore} {request : ℕ} (createdAt : Time)
    {principal : Principal} {loaded : User} {change : UserChange}
    (h : store.requests request = .written principal loaded change) :
    store.next (.commit request createdAt) =
      some { (store.move request .ended).setLock loaded.id none with
        users := change.apply principal loaded store.users } := by
  simp only [next, h]

/-- The user is an active administrator of the organization. -/
def administers (orgId : Uuid) (user : User) : Bool :=
  user.orgId == orgId && user.role == .admin && user.isActive

/-- Every organization has an active administrator. -/
def Administered (store : UserStore) : Prop :=
  ∀ orgId ∈ store.orgs, ∃ user ∈ store.users, administers orgId user = true

/-- No request has begun. -/
structure Start (store : UserStore) : Prop where
  administered : store.Administered
  idle : ∀ request, store.requests request = .idle

/-- A change that is about to take an active administrator away commits only while the
acting user is one itself. -/
def ActsAsAdmin (store : UserStore) : ManageEvent → Prop
  | .commit request _ => ∀ principal loaded change,
      store.requests request = .written principal loaded change → change.demotes = true →
      (∃ user ∈ store.users, user.id = loaded.id ∧ administers principal.orgId user = true) →
      ∃ user ∈ store.users, user.id = principal.user.id ∧ administers principal.orgId user = true
  | _ => True

/-- The runs of the requests. -/
abbrev Runs : UserStore → List ManageEvent → UserStore → Prop :=
  Run fun store event store' => store.next event = some store'

variable {store store' start last : UserStore} {trace : List ManageEvent} {principal : Principal}
  {loaded user : User} {users : List User} {change : UserChange} {orgId : Uuid}

/-! ## What changes leave behind -/

/-- A change leaves all rows but one as they are. -/
theorem mem_apply_of_not_row (huser : user ∈ users)
    (hrow : isRowOf principal.orgId loaded.id user = false) :
    user ∈ change.apply principal loaded users := by
  cases change with
  | update body => exact List.mem_map.mpr ⟨user, huser, if_neg (by simp [hrow])⟩
  | delete => exact List.mem_filter.mpr ⟨huser, by simp [hrow]⟩

/-- Assignments that demote and deactivate nobody leave an administrator one. -/
theorem administers_assignUser {body : UserUpdate} (hdemotes : (UserChange.update body).demotes = false)
    (hadmin : administers orgId user = true) :
    administers orgId ((assignUser (netChange loaded body)).set user) = true := by
  obtain ⟨hrest, hactive⟩ := Bool.and_eq_true_iff.mp hadmin
  obtain ⟨horg, hrole⟩ := Bool.and_eq_true_iff.mp hrest
  obtain ⟨hpromotes, hactivates⟩ := Bool.or_eq_false_iff.mp hdemotes
  have hroles : ∀ role ∈ (netChange loaded body).role, role = .admin := by
    intro role hrole
    have hbody := (Option.filter_eq_some_iff.mp hrole).1
    rw [hbody] at hpromotes
    simpa using hpromotes
  have hactives : ∀ isActive ∈ (netChange loaded body).isActive, isActive = true := by
    intro isActive hset
    have hbody := (Option.filter_eq_some_iff.mp hset).1
    rw [hbody] at hactivates
    simpa using hactivates
  have hnewRole : (netChange loaded body).role.getD user.role = .admin := by
    cases hset : (netChange loaded body).role with
    | none => exact eq_of_beq hrole
    | some role => exact hroles role hset
  have hnewActive : (netChange loaded body).isActive.getD user.isActive = true := by
    cases hset : (netChange loaded body).isActive with
    | none => exact hactive
    | some isActive => exact hactives isActive hset
  simp only [administers, assignUser, hnewRole, hnewActive, Bool.and_true, beq_self_eq_true]
  exact horg

/-- The acting user is not the one a demoting change is about. -/
theorem ne_of_demotes (hrefused : change.isRefused principal loaded = false)
    (hdemotes : change.demotes = true) : loaded.id ≠ principal.user.id := by
  intro hself
  cases change with
  | update body =>
      simp only [UserChange.isRefused, hself, beq_self_eq_true, Bool.true_and] at hrefused
      simp only [UserChange.demotes, hrefused] at hdemotes
      cases hdemotes
  | delete => simp [UserChange.isRefused, hself] at hrefused

/-- A change leaves an administrator in every organization, provided that a demoting one
is made by an administrator. -/
theorem exists_administers_apply (hrefused : change.isRefused principal loaded = false)
    (hacts : change.demotes = true →
      (∃ user ∈ users, user.id = loaded.id ∧ administers principal.orgId user = true) →
      ∃ user ∈ users, user.id = principal.user.id ∧ administers principal.orgId user = true)
    (huser : user ∈ users) (hadmin : administers orgId user = true) :
    ∃ later ∈ change.apply principal loaded users, administers orgId later = true := by
  by_cases hrow : isRowOf principal.orgId loaded.id user = true
  · obtain ⟨horg, hid⟩ := Bool.and_eq_true_iff.mp hrow
    have hsame : orgId = principal.orgId := by
      have hmember := (Bool.and_eq_true_iff.mp (Bool.and_eq_true_iff.mp hadmin).1).1
      exact (eq_of_beq hmember).symm.trans (eq_of_beq horg)
    cases hdemotes : change.demotes with
    | true =>
        subst hsame
        obtain ⟨acting, hacting, hactingId, hactingAdmin⟩ :=
          hacts hdemotes ⟨user, huser, eq_of_beq hid, hadmin⟩
        refine ⟨acting, mem_apply_of_not_row hacting ?_, hactingAdmin⟩
        rw [isRowOf, hactingId]
        have hne := ne_of_demotes hrefused hdemotes
        simp [hne.symm]
    | false =>
        cases change with
        | update body =>
            refine ⟨_, List.mem_map_of_mem huser, ?_⟩
            rw [if_pos hrow]
            exact administers_assignUser hdemotes hadmin
        | delete => cases hdemotes
  · exact ⟨user, mem_apply_of_not_row huser (Bool.eq_false_iff.mpr hrow), hadmin⟩

/-! ## What holds of every run -/

/-- A request that has passed the checks was not refused. -/
def PhaseSane : ManagePhase → Prop
  | .selected principal loaded change | .written principal loaded change =>
      change.isRefused principal loaded = false
  | .idle | .admitted _ _ | .ended => True

/-- Every open request has passed the checks it is past. -/
def Sane (store : UserStore) : Prop := ∀ request, PhaseSane (store.requests request)

theorem Sane.move (h : Sane store) {request : ℕ} {phase : ManagePhase} (hphase : PhaseSane phase) :
    Sane (store.move request phase) := by
  intro other
  by_cases hother : other = request
  · subst hother
    change PhaseSane (Function.update store.requests other phase other)
    rw [Function.update_self]
    exact hphase
  · change PhaseSane (Function.update store.requests request phase other)
    rw [Function.update_of_ne hother]
    exact h other

/-- What a statement does to the organizations and users. -/
inductive ManageEffect (store : UserStore) : ManageEvent → UserStore → Prop
  | kept {event : ManageEvent} {store' : UserStore} :
      store'.orgs = store.orgs → (∀ user ∈ store.users, user ∈ store'.users) →
      ManageEffect store event store'
  | provisioned {event : ManageEvent} {store' : UserStore} {orgId : Uuid} {user : User} :
      administers orgId user = true → store'.orgs = orgId :: store.orgs →
      store'.users = store.users ++ [user] → ManageEffect store event store'
  | changed {request : ℕ} {createdAt : Time} {principal : Principal} {loaded : User}
      {change : UserChange} {store' : UserStore} :
      store.requests request = .written principal loaded change →
      change.isRefused principal loaded = false → store'.orgs = store.orgs →
      store'.users = change.apply principal loaded store.users →
      ManageEffect store (.commit request createdAt) store'

/-- A request that moves on, and nothing else. -/
theorem Sane.moved (h : Sane store) {event : ManageEvent} {request : ℕ} {phase : ManagePhase}
    (hphase : PhaseSane phase) : Sane (store.move request phase) ∧
      ManageEffect store event (store.move request phase) :=
  ⟨h.move hphase, .kept rfl fun _ huser => huser⟩

/-- Every statement keeps the checks that were passed, and has one of the effects. -/
theorem Sane.next (h : Sane store) {event : ManageEvent} (hnext : store.next event = some store') :
    Sane store' ∧ ManageEffect store event store' := by
  cases event with
  | provision email hashedPassword fullName draw createdAt =>
      simp only [UserStore.next] at hnext
      split at hnext
      · cases hnext
        exact ⟨h, .provisioned (by simp [administers, firstAdmin]) rfl rfl⟩
      · cases hnext
  | authenticate request =>
      simp only [UserStore.next] at hnext
      split at hnext
      · split at hnext
        · cases hnext
          exact h.moved trivial
        · split at hnext
          · cases hnext
            exact h.moved trivial
          · cases hnext
            exact h.moved trivial
      · cases hnext
  | select request =>
      simp only [UserStore.next] at hnext
      split at hnext
      · split at hnext
        · cases hnext
          exact h.moved trivial
        · split at hnext
          · cases hnext
            exact h.moved trivial
          · next hpassed =>
              cases hnext
              exact h.moved (Bool.eq_false_iff.mpr hpassed)
      · cases hnext
  | write request =>
      simp only [UserStore.next] at hnext
      split at hnext
      · next principal loaded change hphase =>
          have hpassed := h request
          rw [hphase] at hpassed
          split at hnext
          · cases hnext
          · split at hnext
            · cases hnext
              exact ⟨h.move hpassed, .kept rfl fun _ huser => huser⟩
            · cases hnext
      · cases hnext
  | commit request createdAt =>
      simp only [UserStore.next] at hnext
      split at hnext
      · split at hnext
        · cases hnext
          exact ⟨h.move trivial, .kept rfl fun user huser => List.mem_append_left _ huser⟩
        · cases hnext
      · split at hnext
        · cases hnext
          exact h.moved trivial
        · cases hnext
      · next principal loaded change hphase =>
          have hpassed := h request
          rw [hphase] at hpassed
          cases hnext
          exact ⟨h.move trivial, .changed hphase hpassed rfl rfl⟩
      · cases hnext
  | abort request =>
      simp only [UserStore.next] at hnext
      split at hnext
      · cases hnext
      · cases hnext
      all_goals
        cases hnext
        exact ⟨h.move trivial, .kept rfl fun _ huser => huser⟩

theorem Start.sane (hstart : Start start) : Sane start := by
  intro request
  rw [hstart.idle request]
  trivial

/-- A statement leaves every organization an active administrator, if a demoting change
commits only while the acting user is one. -/
theorem Administered.step (h : store.Administered) {event : ManageEvent}
    (heffect : ManageEffect store event store') (hacts : store.ActsAsAdmin event) :
    store'.Administered := by
  intro orgId horg
  cases heffect with
  | kept horgs husers =>
      obtain ⟨user, huser, hadmin⟩ := h orgId (horgs ▸ horg)
      exact ⟨user, husers user huser, hadmin⟩
  | @provisioned _ _ newOrg newAdmin hfirst horgs husers =>
      rw [horgs] at horg
      rw [husers]
      rcases List.mem_cons.mp horg with rfl | hold
      · exact ⟨newAdmin, List.mem_append_right _ List.mem_cons_self, hfirst⟩
      · obtain ⟨user, huser, hadmin⟩ := h orgId hold
        exact ⟨user, List.mem_append_left _ huser, hadmin⟩
  | changed hphase hpassed horgs husers =>
      obtain ⟨user, huser, hadmin⟩ := h orgId (horgs ▸ horg)
      rw [husers]
      exact exists_administers_apply hpassed (hacts _ _ _ hphase) huser hadmin

/-! ## A request on its own -/

section Alone

variable {settings : Settings} {crypto : Crypto} {db : Database} {conn conn' : Conn}
  {response : Response} {target : Uuid}

/-- The request for a change. -/
def changeRequest (target : Uuid) : UserChange → Request
  | .update body => .updateUser target body
  | .delete => .deleteUser target

/-- The statement of a change. -/
def changeWrite (target : Uuid) : UserChange → Write schema
  | .update body => .update .users (withId .users target) (assignUser body)
  | .delete => .delete .users (withId .users target)

/-- The handlers read the user, check what the machine checks, and send one statement. -/
theorem handle_change_eq_ok {now : Time}
    (h : (handle settings crypto now principal (changeRequest target change)).Runs conn response
      conn') :
    ∃ found ∈ conn.db .users, found.id = target ∧ conn.policy.visible .users found = true ∧
      change.isRefused principal found = false ∧
      conn.Wrote [changeWrite target change] conn' := by
  cases change with
  | update body =>
      obtain ⟨user, hrun, _⟩ := runs_rowOf.mp h
      simp only [updateUser, getOrgUser, Program.runs_bind, Program.runs_raiseIf, runs_save,
        Program.runs_pure] at hrun
      obtain ⟨found, _, hfound, _, _, ⟨hdemoted, rfl⟩, _, _, ⟨hdeactivated, rfl⟩, _, _, hwrote, _,
        rfl⟩ := hrun
      obtain ⟨rfl, hmem, rfl, hvisible⟩ := of_runs_getOr404 hfound
      refine ⟨found, hmem, rfl, hvisible, ?_, hwrote⟩
      by_cases hself : found.id = principal.user.id
      · simp only [hself, true_and, Bool.not_eq_true] at hdemoted hdeactivated
        rw [UserChange.isRefused, hdemoted]
        simp [hdeactivated]
      · simp [UserChange.isRefused, hself]
  | delete =>
      obtain ⟨_, hrun, _⟩ := Program.runs_map.mp h
      simp only [deleteUser, getOrgUser, Program.runs_bind, Program.runs_raiseIf,
        runs_deleteById] at hrun
      obtain ⟨found, _, hfound, _, _, ⟨hself, rfl⟩, hwrote⟩ := hrun
      obtain ⟨rfl, hmem, rfl, hvisible⟩ := of_runs_getOr404 hfound
      exact ⟨found, hmem, rfl, hvisible, by simp [UserChange.isRefused, hself], hwrote⟩

theorem getD_filter_ne {Value : Type} [DecidableEq Value] (assigned : Option Value)
    (value : Value) : (assigned.filter (· ≠ value)).getD value = assigned.getD value := by
  cases assigned with
  | none => rfl
  | some new => by_cases h : new = value <;> simp [Option.filter, h]

/-- Assigning what differs assigns everything. -/
theorem assignUser_netChange (user : User) (body : UserUpdate) :
    (assignUser (netChange user body)).set user = (assignUser body).set user := by
  have hname : ((netChange user body).fullName.orElse fun _ => user.fullName) =
      body.fullName.orElse fun _ => user.fullName := by
    cases hbody : body.fullName with
    | none => simp [netChange, hbody]
    | some fullName =>
        by_cases h : some fullName = user.fullName
        · simp [netChange, hbody, Option.filter, ← h]
        · simp [netChange, hbody, Option.filter, h]
  have hrole : (netChange user body).role.getD user.role = body.role.getD user.role :=
    getD_filter_ne _ _
  have hactive : (netChange user body).isActive.getD user.isActive =
      body.isActive.getD user.isActive := getD_filter_ne _ _
  simp only [assignUser, hname, hrole, hactive]

/-- The users after the statement of a change, if the session had loaded the row as it
is. -/
theorem users_of_changeWrite {found : User} (sound : schema.Sound conn.db)
    (hpolicy : conn.policy = Core.policy .appUser (some orgId)) (horg : principal.orgId = orgId)
    (hfound : found ∈ conn.db .users) (hwrote : conn.Wrote [changeWrite found.id change] conn') :
    conn'.db .users = change.apply principal found (conn.db .users) := by
  have hrows : ∀ user : User, (conn.policy.visible .users user && withId .users found.id user) =
      isRowOf principal.orgId found.id user := by
    intro user
    rw [hpolicy, horg]
    exact congrArg (· && withId .users found.id user) (Option.some_beq_some ..)
  cases change with
  | update body =>
      rw [hwrote.update.2, Database.update_self]
      refine List.map_congr_left fun user huser => ?_
      rw [hrows]
      split
      · next hrow =>
          have hid : user.id = found.id := eq_of_beq (Bool.and_eq_true_iff.mp hrow).2
          rw [sound.eq_of_key_eq huser hfound hid, assignUser_netChange]
      · rfl
  | delete =>
      rw [hwrote.delete.2, users_of_delete]
      exact List.filter_congr fun user _ => congrArg (!·) (hrows user)

/-- What a change does depends on the organization of the caller only. -/
theorem apply_congr {first second : Principal} (h : first.orgId = second.orgId) :
    change.apply first loaded users = change.apply second loaded users := by
  cases change with
  | update body => rw [UserChange.apply, UserChange.apply, h]
  | delete => rw [UserChange.apply, UserChange.apply, h]

/-- A change that writes nothing changes nothing. -/
theorem apply_of_writesNothing {acting : Principal} {found : User} (sound : schema.Sound db)
    (husers : store.users = db .users) (hfound : found ∈ db .users)
    (hrow : store.row acting.orgId found.id = some found)
    (hnothing : store.writesNothing acting found change = true) :
    change.apply acting found store.users = store.users := by
  cases change with
  | update body =>
      have hempty : netChange found body = ⟨none, none, none⟩ := eq_of_beq hnothing
      refine (List.map_congr_left fun user huser => ?_).trans (List.map_id _)
      split
      · next hselected =>
          have hid : user.id = found.id := eq_of_beq (Bool.and_eq_true_iff.mp hselected).2
          rw [sound.eq_of_key_eq (husers ▸ huser) hfound hid, hempty]
          rfl
      · rfl
  | delete => simp [writesNothing, hrow] at hnothing

/-- A transaction that is executed while no other request is open does what the
statements of the request do one after the other. -/
theorem runs_of_serve {now began : Time} {userId : Uuid} {viaApiKey : Bool} {request : ℕ}
    (sound : schema.Sound db)
    (h : (serve settings crypto now orgId userId viaApiKey (changeRequest target change)).Runs
      (.start .appUser began db) response conn')
    (husers : store.users = db .users) (hidle : store.requests request = .idle)
    (hunlocked : ∀ id, store.lockedBy id = none) :
    ∃ trace store', Runs store trace store' ∧ store'.users = conn'.db .users := by
  unfold serve at h
  rw [Program.runs_bind] at h
  obtain ⟨caller, _, hguard, hhandle⟩ := h
  obtain ⟨rfl, hadmitted⟩ := guardPrincipal_eq_ok hguard
  obtain ⟨found, hfound, rfl, hvisible, hpassed, hwrote⟩ := handle_change_eq_ok hhandle
  have hmember : found.orgId = orgId :=
    Option.some.inj (@rowOrg_of_visible _ _ rfl rfl .users _ hvisible)
  have hroles : caller.user.role = .admin := by
    refine List.mem_singleton.mp (hadmitted.allowed [.admin] ?_)
    cases change <;> rfl
  have hrow : ∀ user ∈ db .users, user.orgId = orgId → store.row orgId user.id = some user := by
    intro user huser horg
    unfold row
    rw [husers]
    refine find_of_unique huser (by simp [isRowOf, horg]) fun other hother hsame => ?_
    exact sound.eq_of_key_eq hother huser (eq_of_beq (Bool.and_eq_true_iff.mp hsame).2)
  let acting : Principal := ⟨orgId, caller.user.role, caller.user, viaApiKey⟩
  have hactingRow : store.row orgId userId = some caller.user :=
    hadmitted.userId ▸ hrow caller.user hadmitted.stored hadmitted.member
  have hloaded : sessionObject acting found = found := by
    unfold sessionObject
    split
    · next hself => exact sound.eq_of_key_eq hadmitted.stored hfound hself.symm
    · rfl
  have hrefused : change.isRefused acting found = false := by
    cases change <;> exact hpassed
  have hfoundRow := hrow found hfound hmember
  have happlied : conn'.db .users = change.apply acting found store.users := by
    rw [husers, users_of_changeWrite sound rfl hadmitted.bound hfound hwrote]
    exact apply_congr hadmitted.bound
  -- the caller and the user are read, and the checks are passed
  have hauthenticate : store.next (.authenticate request orgId userId viaApiKey
      (.change found.id change)) =
      some (store.move request (.admitted acting (.change found.id change))) := by
    simp [UserStore.next, hidle, hactingRow, hadmitted.active, hroles, acting]
  have hselect : (store.move request (.admitted acting (.change found.id change))).next
      (.select request) = some (store.move request (.selected acting found change)) := by
    simp [UserStore.next, hfoundRow, hloaded, hrefused, acting]
  have hread : Runs store [.authenticate request orgId userId viaApiKey (.change found.id change),
      .select request] (store.move request (.selected acting found change)) :=
    (Run.single hauthenticate).snoc hselect
  by_cases hnothing : store.writesNothing acting found change = true
  · have hcommit : (store.move request (.selected acting found change)).next (.commit request 0) =
        some (store.move request .ended) := by
      have hsame : (store.move request (.selected acting found change)).writesNothing acting found
          change = true := hnothing
      simp [UserStore.next, hsame]
    refine ⟨_, _, hread.snoc hcommit, ?_⟩
    rw [happlied]
    exact (apply_of_writesNothing sound husers hfound hfoundRow hnothing).symm
  · have hwrite : (store.move request (.selected acting found change)).next (.write request) =
        some ((store.move request (.written acting found change)).setLock found.id
          (some request)) := by
      have hsame : (store.move request (.selected acting found change)).writesNothing acting found
          change = false := Bool.eq_false_iff.mpr hnothing
      have hfree : (store.move request (.selected acting found change)).lockedBy found.id = none :=
        hunlocked found.id
      simp [UserStore.next, hsame, hfree, hfoundRow, acting]
    have hphase : ((store.move request (.written acting found change)).setLock found.id
        (some request)).requests request = .written acting found change := Function.update_self ..
    exact ⟨_, _, (hread.snoc hwrite).snoc (next_commit_of_written 0 hphase),
      happlied.symm⟩

end Alone

/-! ## Administrators -/

/-- In every run in which a change that takes an active administrator away commits only
while the acting user is one, every organization has an active administrator in every
state. -/
theorem administered_of_run (hstart : Start start)
    (hrun : Run (fun store event store' => store.next event = some store' ∧
      store.ActsAsAdmin event) start trace last) : last.Administered := by
  have hkeeps : last.Administered ∧ Sane last := by
    refine hrun.keeps (P := fun store => store.Administered ∧ Sane store)
      (fun store event store' h hnext => ?_) ⟨hstart.administered, hstart.sane⟩
    obtain ⟨hsane, heffect⟩ := h.2.next hnext.1
    exact ⟨h.1.step heffect hnext.2, hsane⟩
  exact hkeeps.1

/-- Nobody has signed up. -/
def empty : UserStore where
  orgs := []
  users := []
  requests := fun _ => .idle
  lockedBy := fun _ => none

theorem start_empty : Start empty := ⟨fun _ horg => absurd horg List.not_mem_nil, fun _ => rfl⟩

/-- An organization with two administrators. -/
def twoAdmins : List ManageEvent :=
  [.provision "a@x".toList none none ⟨1, 2, []⟩ 0,
    .authenticate 0 1 2 false (.create ⟨"c@x".toList, [], none, .admin⟩ 7 []),
    .commit 0 0]

/-- Both administrators demote the other one, each before the other's change commits. -/
def mutualDemotion : List ManageEvent :=
  twoAdmins ++
    [.authenticate 1 1 2 false (.change 7 (.update ⟨none, some .member, none⟩)),
      .authenticate 2 1 7 false (.change 2 (.update ⟨none, some .member, none⟩)),
      .select 1, .select 2, .write 1, .write 2, .commit 1 0, .commit 2 0]

/-- One administrator demotes the other, while it is one itself. -/
def demotion : List ManageEvent :=
  twoAdmins ++
    [.authenticate 1 1 2 false (.change 7 (.update ⟨none, some .member, none⟩)),
      .select 1, .write 1, .commit 1 0]

/-- The condition on a commit, decided. -/
def actsAsAdmin (store : UserStore) : ManageEvent → Bool
  | .commit request _ =>
      match store.requests request with
      | .written principal loaded change => !change.demotes ||
          !(store.users.any fun user => user.id == loaded.id && administers principal.orgId user) ||
          store.users.any fun user =>
            user.id == principal.user.id && administers principal.orgId user
      | _ => true
  | _ => true

theorem actsAsAdmin_of_decided {event : ManageEvent} (h : store.actsAsAdmin event = true) :
    store.ActsAsAdmin event := by
  cases event with
  | commit request createdAt =>
      intro principal loaded change hphase hdemotes hadmin
      obtain ⟨user, huser, hid, hactive⟩ := hadmin
      have hany : (store.users.any fun user =>
          user.id == loaded.id && administers principal.orgId user) = true :=
        List.any_eq_true.mpr ⟨user, huser, by simp [hid, hactive]⟩
      simp only [actsAsAdmin, hphase, hdemotes, hany, Bool.not_true, Bool.false_or] at h
      obtain ⟨acting, hacting, hfound⟩ := List.any_eq_true.mp h
      obtain ⟨hactingId, hactingAdmin⟩ := Bool.and_eq_true_iff.mp hfound
      exact ⟨acting, hacting, eq_of_beq hactingId, hactingAdmin⟩
  | provision | authenticate | select | write | abort => trivial

/-- The statements that are executed under the condition. -/
def nextChecked (store : UserStore) (event : ManageEvent) : Option UserStore :=
  if store.actsAsAdmin event then store.next event else none

theorem administered_of_run_demotion : ∃ last, replay nextChecked empty demotion = some last ∧
    (last.users.map fun user => (user.id, user.role)) = [(2, .admin), (7, .member)] ∧
    last.Administered := by
  have hevaluate : (replay nextChecked empty demotion).map
      (fun store => store.users.map fun user => (user.id, user.role)) =
      some [(2, .admin), (7, .member)] := by decide +kernel
  obtain ⟨last, hreplay, husers⟩ := Option.map_eq_some_iff.mp hevaluate
  have hrun : Run (fun store event store' => store.next event = some store' ∧
      store.ActsAsAdmin event) empty demotion last := by
    refine (run_of_replay nextChecked demotion empty last hreplay).mono
      fun store event store' hstep => ?_
    unfold nextChecked at hstep
    split at hstep
    · next hchecked => exact ⟨hstep, actsAsAdmin_of_decided hchecked⟩
    · cases hstep
  exact ⟨last, hreplay, husers, administered_of_run start_empty hrun⟩

/-- Two administrators demote each other, and the organization has none. -/
theorem mutualDemotion_leaves_none : ∃ last, Runs empty mutualDemotion last ∧
    ¬last.Administered := by
  have hevaluate : (replay UserStore.next empty mutualDemotion).map
      (fun store => (store.orgs, store.users.any (administers 1))) = some ([1], false) := by
    decide +kernel
  obtain ⟨last, hreplay, hfacts⟩ := Option.map_eq_some_iff.mp hevaluate
  obtain ⟨horgs, hnone⟩ := Prod.mk.inj hfacts
  refine ⟨last, run_of_replay UserStore.next mutualDemotion empty last hreplay, fun h => ?_⟩
  obtain ⟨user, huser, hadmin⟩ := h 1 (horgs ▸ List.mem_singleton_self 1)
  exact List.any_eq_false.mp hnone user huser hadmin

end UserStore

end Api
