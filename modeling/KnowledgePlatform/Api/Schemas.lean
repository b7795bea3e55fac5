import KnowledgePlatform.Api.Auth
import KnowledgePlatform.Api.Requests

/-!
# Request schemas

What the schemas of the request bodies accept, and what the handlers store of
an accepted body.  The validators of e-mail addresses and of URLs come from
libraries and are parameters (`Validators`).

The schemas bound the lengths of their fields by those of the columns, but
admit some bodies whose values the columns do not hold as they are: strings
with a NUL, URLs of more than 2048 characters, budgets of more than ten digits
or of fractions of a cent, and names whose slug is too long, on its own or with
its suffix.  `ServedBody.FitsColumns` and `SignupRequest.FitsColumns` say which
bodies are safe, `storable_iff` that these are the ones.
-/

open Core Foundations Python Relational

namespace Api

/-! ## Fields -/

/-- `Field(min_length=…, max_length=…)` -/
def checkLength (minLength maxLength : ℕ) (text : Str) : Option Str :=
  if minLength ≤ text.length ∧ text.length ≤ maxLength then some text else none

/-- The same of a field that may be left out. -/
def checkOptional (minLength maxLength : ℕ) : Option Str → Option (Option Str)
  | none => some none
  | some text => some <$> checkLength minLength maxLength text

/-- The normalized texts of what `EmailStr` and `HttpUrl` accept; for a URL this is
`str(url)`. -/
structure Validators where
  emailStr : Str → Option Str
  httpUrl : Str → Option Str

/-- What the libraries document about accepted addresses and URLs. -/
structure Validators.Documented (validators : Validators) : Prop where
  emailStr : ∀ raw email, validators.emailStr raw = some email →
    email.length ≤ 254 ∧ '\x00' ∉ email
  httpUrl : ∀ raw url, validators.httpUrl raw = some url → '\x00' ∉ url

/-- The longest input of `HttpUrl`. -/
def maxUrlLength : ℕ := 2083

/-! ## Bodies -/

/-- A body as it is parsed and as it is accepted are of one type. -/
def SignupRequest.validate (validators : Validators) (raw : SignupRequest) :
    Option SignupRequest := do
  let orgName ← checkLength 1 255 raw.orgName
  let email ← validators.emailStr raw.email
  let password ← checkLength 8 128 raw.password
  let fullName ← checkOptional 0 255 raw.fullName
  some { orgName, email, password, fullName }

structure OrganizationUpdate where
  monthlyBudgetUsd : Option ℚ
  deriving DecidableEq

def OrganizationUpdate.validate (raw : OrganizationUpdate) : Option OrganizationUpdate :=
  if raw.monthlyBudgetUsd.all (0 ≤ ·) = true then some raw else none

structure WebhookCreate where
  url : Str
  eventTypes : List WebhookEvent
  deriving DecidableEq

def WebhookCreate.validate (validators : Validators) (raw : WebhookCreate) :
    Option WebhookCreate := do
  let input ← checkLength 0 maxUrlLength raw.url
  let url ← validators.httpUrl input
  if 1 ≤ raw.eventTypes.length then some { url, eventTypes := raw.eventTypes } else none

def UserCreate.validate (validators : Validators) (raw : UserCreate) : Option UserCreate := do
  let email ← validators.emailStr raw.email
  let password ← checkLength 8 128 raw.password
  let fullName ← checkOptional 0 255 raw.fullName
  some { email, password, fullName, role := raw.role }

def DocumentCreate.validate (raw : DocumentCreate) : Option DocumentCreate := do
  let title ← checkLength 1 512 raw.title
  let filename ← checkOptional 0 512 raw.filename
  let contentType ← checkOptional 0 255 raw.contentType
  some { title, filename, contentType }

structure DocumentUpdate where
  title : Option Str
  deriving DecidableEq

def DocumentUpdate.validate (raw : DocumentUpdate) : Option DocumentUpdate := do
  let title ← checkOptional 1 512 raw.title
  some { title }

structure ConversationCreate where
  title : Option Str
  deriving DecidableEq

def ConversationCreate.validate (raw : ConversationCreate) : Option ConversationCreate := do
  let title ← checkOptional 0 512 raw.title
  some { title }

def ApiKeyCreate.validate (raw : ApiKeyCreate) : Option ApiKeyCreate := do
  let name ← checkLength 1 255 raw.name
  if raw.expiresInDays.all (fun days => decide (1 ≤ days ∧ days ≤ 3650)) = true then
    some { name, expiresInDays := raw.expiresInDays }
  else none

/-- The bodies of requests by an authenticated caller; a document is named by the
path. -/
inductive ServedBody
  | organizationUpdate (body : OrganizationUpdate)
  | webhookCreate (body : WebhookCreate)
  | userCreate (body : UserCreate)
  | documentCreate (body : DocumentCreate)
  | documentUpdate (documentId : Uuid) (body : DocumentUpdate)
  | conversationCreate (body : ConversationCreate)
  | apiKeyCreate (body : ApiKeyCreate)
  deriving DecidableEq

def ServedBody.validate (validators : Validators) : ServedBody → Option ServedBody
  | .organizationUpdate raw => .organizationUpdate <$> raw.validate
  | .webhookCreate raw => .webhookCreate <$> raw.validate validators
  | .userCreate raw => .userCreate <$> raw.validate validators
  | .documentCreate raw => .documentCreate <$> raw.validate
  | .documentUpdate documentId raw => .documentUpdate documentId <$> raw.validate
  | .conversationCreate raw => .conversationCreate <$> raw.validate
  | .apiKeyCreate raw => .apiKeyCreate <$> raw.validate

/-! ## Handlers -/

/-- What the handlers draw at random: ids, tokens and secrets, and the salted hash of
the password. -/
structure HandlerDraws where
  id : Uuid
  hashedPassword : Str
  provisioned : ProvisionDraw
  token : TokenDraw
  apiKey : ApiKeyDraw
  webhookSecret : Str
  deriving DecidableEq

/-- A text of hexadecimal digits. -/
def IsHex (length : ℕ) (text : Str) : Prop :=
  text.length = length ∧ ∀ c ∈ text, (Uuid.hexValue c).isSome = true

instance {length : ℕ} {text : Str} : Decidable (IsHex length text) :=
  @instDecidableAnd _ _ _ (List.decidableBAll _ _)

/-- What is documented about draws: the texts of `secrets.token_hex` and of SHA-256
digests are hexadecimal, an Argon2 hash of the recommended parameters has 97
characters, a token of 32 bytes has 43, and neither has a NUL. -/
structure HandlerDraws.Documented (crypto : Crypto) (draws : HandlerDraws) : Prop where
  hashedPassword : draws.hashedPassword.length = 97 ∧ '\x00' ∉ draws.hashedPassword
  suffix : IsHex 6 draws.provisioned.suffix
  tokenHash : IsHex 64 (hashSecret crypto draws.token.raw)
  handle : IsHandle draws.apiKey.handle
  hashedKey : IsHex 64 (hashSecret crypto draws.apiKey.secret)
  webhookSecret : draws.webhookSecret.length = 43 ∧ '\x00' ∉ draws.webhookSecret

/-- The request of a body. -/
def ServedBody.request (draws : HandlerDraws) : ServedBody → Request
  | .organizationUpdate body => .updateMyOrganization body.monthlyBudgetUsd
  | .webhookCreate body =>
      .createWebhook body.url body.eventTypes draws.id draws.webhookSecret
  | .userCreate body => .createUser body draws.id draws.hashedPassword
  | .documentCreate body => .createDocument body draws.id
  | .documentUpdate documentId body => .updateDocument documentId body.title
  | .conversationCreate body => .createConversation body.title draws.id
  | .apiKeyCreate body => .createApiKey body draws.apiKey

/-- A body submitted to the endpoint of its schema. -/
inductive Submission
  | signup (body : SignupRequest)
  | served (principal : Principal) (body : ServedBody)
  deriving DecidableEq

namespace Submission

/-- The submission as its schema accepts it. -/
def validate (validators : Validators) : Submission → Option Submission
  | .signup raw => .signup <$> raw.validate validators
  | .served principal raw => .served principal <$> raw.validate validators

/-- The session of the handler, in a transaction that began then. -/
def session (began : Time) (db : Database) : Submission → Conn
  | .signup _ => .start .appAuth began db
  | .served principal _ => ⟨.appUser, some principal.orgId, began, db⟩

/-- The transaction of the handler. -/
def run (settings : Settings) (crypto : Crypto) (draws : HandlerDraws) (now : Time) :
    Submission → Tx Unit
  | .signup body => (fun _ => ()) <$>
      Api.signup settings crypto body draws.hashedPassword draws.provisioned draws.token now
  | .served principal body => (fun _ => ()) <$>
      handle settings crypto now principal (body.request draws)

end Submission

/-! ## What the handlers store -/

/-- The slug an organization of this name is stored with. -/
def storedSlug (name suffix : Str) (db : Database) : Str :=
  if (db .organizations).any (fun org => org.slug == slugify name) = true then
    slugify name ++ '-' :: suffix
  else slugify name

/-- The insertions of a sign-up; there are none when the address is registered. -/
def signupWrites (settings : Settings) (crypto : Crypto) (draws : HandlerDraws) (now : Time)
    (body : SignupRequest) (conn : Conn) : List (Write schema) :=
  if (conn.db .users).any (fun user => user.email == body.email) = true then [] else
  [.insert .organizations
      { id := draws.provisioned.orgId, name := body.orgName,
        slug := storedSlug body.orgName draws.provisioned.suffix conn.db,
        monthlyBudgetUsd := none, createdAt := conn.now },
    .insert .users
      { id := draws.provisioned.userId, orgId := draws.provisioned.orgId, email := body.email,
        hashedPassword := some draws.hashedPassword, fullName := body.fullName, role := .admin,
        isActive := true, createdAt := conn.now },
    .insert .refreshTokens
      (newRefreshToken settings crypto draws.provisioned.userId draws.token now conn.now)]

namespace Submission

/-- The writing statements of the handler, each executed unless one before it fails. -/
def writes (settings : Settings) (crypto : Crypto) (draws : HandlerDraws) (now : Time)
    (conn : Conn) : Submission → List (Write schema)
  | .signup body => signupWrites settings crypto draws now body conn
  | .served principal body => (body.request draws).writes settings crypto principal now conn.now

/-- The stored budget is the one given, where a budget is given. -/
def KeepsBudget (db : Database) : Submission → Prop
  | .served principal (.organizationUpdate body) => ∀ org ∈ db .organizations,
      org.id = principal.orgId → org.monthlyBudgetUsd.map Numeric.toRat = body.monthlyBudgetUsd
  | _ => True

/-- The columns hold what the handler stores: each value fits its column, no statement
fails with a data error, and a budget is stored without change. -/
structure Storable (settings : Settings) (crypto : Crypto) (draws : HandlerDraws) (now : Time)
    (submission : Submission) (conn : Conn) : Prop where
  fits : ∀ write ∈ submission.writes settings crypto draws now conn,
    write.Fits conn.policy conn.db
  noDataError : (submission.run settings crypto draws now).Avoids conn (.database .dataError)
  keepsBudget : ∀ conn', (submission.run settings crypto draws now).Runs conn () conn' →
    submission.KeepsBudget conn'.db

end Submission

/-! ## The bodies that are safe to store -/

/-- `[a-z0-9]` -/
def isSlugChar (c : Char) : Bool :=
  (97 ≤ c.toNat && c.toNat ≤ 122) || (48 ≤ c.toNat && c.toNat ≤ 57)

/-- The runs of letters and digits of the lower-cased name. -/
def slugWords (name : Str) : List Str := wordsFrom isSlugChar [] (name.flatMap lower)

/-- The letters and digits of the lower-cased name, and a hyphen between any two runs;
without any, the length of `"org"`. -/
def slugLength (name : Str) : ℕ :=
  if slugWords name = [] then 3
  else ((slugWords name).map List.length).sum + ((slugWords name).length - 1)

/-- No text of the body has a NUL, and the slug of the name fits its column, with seven
more characters when an organization has it already.  A registered address is
refused before anything is stored. -/
def SignupRequest.FitsColumns (db : Database) (body : SignupRequest) : Prop :=
  (∃ user ∈ db .users, user.email = body.email) ∨
    fitsText body.orgName = true ∧ body.fullName.all fitsText = true ∧
      slugLength body.orgName ≤ 255 ∧
      ((∃ org ∈ db .organizations, org.slug = slugify body.orgName) →
        slugLength body.orgName ≤ 248)

/-- A budget of whole cents and of at most ten digits before the point. -/
def IsStorableBudget (budget : ℚ) : Prop := (∃ cents : ℤ, budget = cents / 100) ∧ budget < 10 ^ 10

def ServedBody.FitsColumns (principal : Principal) (db : Database) : ServedBody → Prop
  | .organizationUpdate body => ∀ budget, body.monthlyBudgetUsd = some budget →
      IsStorableBudget budget
  | .webhookCreate body => body.url.length ≤ 2048
  | .userCreate body => body.fullName.all fitsText = true
  | .documentCreate body => fitsText body.title = true ∧ body.filename.all fitsText = true ∧
      body.contentType.all fitsText = true
  | .documentUpdate documentId body =>
      (∃ document ∈ db .documents, document.id = documentId ∧ document.orgId = principal.orgId) →
        body.title.all fitsText = true
  | .conversationCreate body => body.title.all fitsText = true
  | .apiKeyCreate body => fitsText body.name = true

def Submission.FitsColumns (db : Database) : Submission → Prop
  | .signup body => body.FitsColumns db
  | .served principal body => body.FitsColumns principal db

section Spec

/-! ### Texts -/

theorem fitsText_iff {text : Str} : fitsText text = true ↔ '\x00' ∉ text := by
  unfold fitsText
  rw [List.all_eq_true]
  constructor
  · intro h hmem
    exact absurd (h _ hmem) (by decide)
  · intro h c hc
    rw [bne_iff_ne]
    rintro rfl
    exact h hc

theorem fitsVarchar_iff {n : ℕ} {text : Str} :
    fitsVarchar n text = true ↔ text.length ≤ n ∧ fitsText text = true := by
  unfold fitsVarchar
  rw [Bool.and_eq_true_iff, decide_eq_true_eq]

/-- A text of bounded length fits when it has no NUL. -/
theorem fitsVarchar_iff_fitsText {n : ℕ} {text : Str} (hlength : text.length ≤ n) :
    fitsVarchar n text = true ↔ fitsText text = true :=
  fitsVarchar_iff.trans (and_iff_right hlength)

theorem fitsNullable_iff_fitsText {n : ℕ} {text : Option Str}
    (hlength : ∀ some ∈ text, some.length ≤ n) :
    fitsNullable n text = true ↔ text.all fitsText = true := by
  cases text with
  | none => rfl
  | some text => exact fitsVarchar_iff_fitsText (hlength text rfl)

theorem IsHex.fitsVarchar {length n : ℕ} {text : Str} (h : IsHex length text) (hn : length ≤ n) :
    fitsVarchar n text = true := by
  refine fitsVarchar_iff.mpr ⟨h.1.trans_le hn, fitsText_iff.mpr fun hmem => ?_⟩
  exact absurd (h.2 _ hmem) (by decide)

/-! ### Slugs -/

/-- The slug of a name is its words joined by hyphens, or `"org"`. -/
theorem slugify_eq (name : Str) : slugify name =
    if slugWords name = [] then "org".toList else hyphenJoin (slugWords name) := by
  have hstrip := @strip_hyphenateFrom isSlugChar (by decide) (name.flatMap lower)
  have hempty : hyphenJoin (slugWords name) = [] ↔ slugWords name = [] := by
    constructor
    · intro hnone
      by_contra hwords
      obtain ⟨⟨c, rest, hjoin, _⟩, _⟩ := ends_hyphenJoin hwords fun part hpart =>
        mem_wordsFrom (fun _ h => absurd h List.not_mem_nil) hpart
      rw [hnone] at hjoin
      cases hjoin
    · intro hwords
      rw [hwords]
      rfl
  unfold slugify
  simp only [← hempty]
  exact congrArg (fun slug => if slug = [] then "org".toList else slug) hstrip

theorem length_slugify (name : Str) : (slugify name).length = slugLength name := by
  rw [slugify_eq, slugLength]
  split
  · rfl
  · exact length_hyphenJoin _

-- lower-casing a capital I with a dot leaves a letter and a code point to replace
example : slugify "İİ".toList = "i-i".toList := by decide +kernel

theorem fitsText_slugify (name : Str) : fitsText (slugify name) = true := by
  rw [slugify_eq]
  split
  · decide
  · refine fitsText_iff.mpr fun hmem => ?_
    obtain hhyphen | ⟨word, hword, hmem⟩ := mem_hyphenJoin hmem
    · exact absurd hhyphen (by decide)
    · have hkept := (mem_wordsFrom (fun _ h => absurd h List.not_mem_nil) hword).2 _ hmem
      exact absurd hkept (by decide)

/-- A slug fits its column with the seven characters of a suffix, if it gets one. -/
theorem fitsVarchar_storedSlug {name suffix : Str} {db : Database} (hsuffix : IsHex 6 suffix) :
    fitsVarchar 255 (storedSlug name suffix db) = true ↔ slugLength name ≤ 255 ∧
      ((∃ org ∈ db .organizations, org.slug = slugify name) → slugLength name ≤ 248) := by
  have htaken : ((db .organizations).any (fun org => org.slug == slugify name) = true) ↔
      ∃ org ∈ db .organizations, org.slug = slugify name := by
    simp only [List.any_eq_true, beq_iff_eq]
  unfold storedSlug
  split
  · next hany =>
      have hlength : (slugify name ++ '-' :: suffix).length = slugLength name + 7 := by
        rw [List.length_append, List.length_cons, length_slugify, hsuffix.1]
      have htext : fitsText (slugify name ++ '-' :: suffix) = true := by
        refine fitsText_iff.mpr fun hmem => ?_
        rcases List.mem_append.mp hmem with hslug | hrest
        · exact fitsText_iff.mp (fitsText_slugify name) hslug
        · rcases List.mem_cons.mp hrest with hhyphen | hdigit
          · exact absurd hhyphen (by decide)
          · exact absurd (hsuffix.2 _ hdigit) (by decide)
      rw [fitsVarchar_iff, hlength, and_iff_left htext]
      constructor
      · intro h
        exact ⟨by omega, fun _ => by omega⟩
      · intro h
        have := h.2 (htaken.mp hany)
        omega
  · next hnone =>
      rw [fitsVarchar_iff, length_slugify, and_iff_left (fitsText_slugify name)]
      exact (and_iff_left fun htakenBy => absurd (htaken.mpr htakenBy) hnone).symm

/-! ### Accepted bodies -/

theorem checkLength_eq_some {minLength maxLength : ℕ} {text accepted : Str} :
    checkLength minLength maxLength text = some accepted ↔
      (minLength ≤ text.length ∧ text.length ≤ maxLength) ∧ text = accepted := by
  unfold checkLength
  split <;> simp [*]

theorem length_of_checkOptional {minLength maxLength : ℕ} {text accepted : Option Str}
    (h : checkOptional minLength maxLength text = some accepted) :
    ∀ value ∈ accepted, value.length ≤ maxLength := by
  rintro value hvalue
  cases text with
  | none =>
      cases h
      cases hvalue
  | some text =>
      obtain ⟨checked, hchecked, rfl⟩ := Option.map_eq_some_iff.mp h
      obtain ⟨⟨_, hlength⟩, rfl⟩ := checkLength_eq_some.mp hchecked
      cases hvalue
      exact hlength

/-- What the schema of a sign-up guarantees. -/
structure SignupRequest.Bounded (body : SignupRequest) : Prop where
  orgName : body.orgName.length ≤ 255
  email : fitsVarchar 254 body.email = true
  fullName : ∀ name ∈ body.fullName, name.length ≤ 255

/-- What the other schemas guarantee. -/
def ServedBody.Bounded : ServedBody → Prop
  | .organizationUpdate body => ∀ budget, body.monthlyBudgetUsd = some budget → 0 ≤ budget
  | .webhookCreate body => fitsText body.url = true
  | .userCreate body => fitsVarchar 254 body.email = true ∧
      ∀ name ∈ body.fullName, name.length ≤ 255
  | .documentCreate body => body.title.length ≤ 512 ∧ (∀ name ∈ body.filename, name.length ≤ 512) ∧
      ∀ type ∈ body.contentType, type.length ≤ 255
  | .documentUpdate _ body => ∀ title ∈ body.title, title.length ≤ 512
  | .conversationCreate body => ∀ title ∈ body.title, title.length ≤ 512
  | .apiKeyCreate body => body.name.length ≤ 255

variable {validators : Validators}

theorem Validators.Documented.fitsVarchar (hdocumented : validators.Documented) {raw email : Str}
    (h : validators.emailStr raw = some email) : fitsVarchar 254 email = true := by
  obtain ⟨hlength, hnul⟩ := hdocumented.emailStr raw email h
  exact fitsVarchar_iff.mpr ⟨hlength, fitsText_iff.mpr hnul⟩

theorem SignupRequest.bounded_of_validate (hdocumented : validators.Documented)
    {raw body : SignupRequest} (h : raw.validate validators = some body) : body.Bounded := by
  simp only [validate, Option.bind_eq_bind, Option.bind_eq_some_iff, checkLength_eq_some] at h
  obtain ⟨_, ⟨⟨_, horgName⟩, rfl⟩, email, hemail, _, ⟨_, rfl⟩, fullName, hfullName, ⟨⟩⟩ := h
  exact ⟨horgName, hdocumented.fitsVarchar hemail, length_of_checkOptional hfullName⟩

theorem ServedBody.bounded_of_validate (hdocumented : validators.Documented)
    {raw body : ServedBody} (h : raw.validate validators = some body) : body.Bounded := by
  cases raw with
  | organizationUpdate raw =>
      obtain ⟨body, hbody, rfl⟩ := Option.map_eq_some_iff.mp h
      unfold OrganizationUpdate.validate at hbody
      split at hbody
      · next hnonneg =>
          cases hbody
          intro budget hbudget
          rw [hbudget] at hnonneg
          simpa using hnonneg
      · cases hbody
  | webhookCreate raw =>
      obtain ⟨body, hbody, rfl⟩ := Option.map_eq_some_iff.mp h
      simp only [WebhookCreate.validate, Option.bind_eq_bind, Option.bind_eq_some_iff] at hbody
      obtain ⟨_, _, url, hurl, hbody⟩ := hbody
      split at hbody
      · cases hbody
        exact fitsText_iff.mpr (hdocumented.httpUrl _ _ hurl)
      · cases hbody
  | userCreate raw =>
      obtain ⟨body, hbody, rfl⟩ := Option.map_eq_some_iff.mp h
      simp only [UserCreate.validate, Option.bind_eq_bind, Option.bind_eq_some_iff,
        checkLength_eq_some] at hbody
      obtain ⟨email, hemail, _, ⟨_, rfl⟩, fullName, hfullName, ⟨⟩⟩ := hbody
      exact ⟨hdocumented.fitsVarchar hemail, length_of_checkOptional hfullName⟩
  | documentCreate raw =>
      obtain ⟨body, hbody, rfl⟩ := Option.map_eq_some_iff.mp h
      simp only [DocumentCreate.validate, Option.bind_eq_bind, Option.bind_eq_some_iff,
        checkLength_eq_some] at hbody
      obtain ⟨_, ⟨⟨_, htitle⟩, rfl⟩, filename, hfilename, contentType, hcontentType, ⟨⟩⟩ := hbody
      exact ⟨htitle, length_of_checkOptional hfilename, length_of_checkOptional hcontentType⟩
  | documentUpdate documentId raw =>
      obtain ⟨body, hbody, rfl⟩ := Option.map_eq_some_iff.mp h
      obtain ⟨title, htitle, ⟨⟩⟩ := Option.bind_eq_some_iff.mp hbody
      exact length_of_checkOptional htitle
  | conversationCreate raw =>
      obtain ⟨body, hbody, rfl⟩ := Option.map_eq_some_iff.mp h
      obtain ⟨title, htitle, ⟨⟩⟩ := Option.bind_eq_some_iff.mp hbody
      exact length_of_checkOptional htitle
  | apiKeyCreate raw =>
      obtain ⟨body, hbody, rfl⟩ := Option.map_eq_some_iff.mp h
      simp only [ApiKeyCreate.validate, Option.bind_eq_bind, Option.bind_eq_some_iff,
        checkLength_eq_some] at hbody
      obtain ⟨_, ⟨⟨_, hname⟩, rfl⟩, hbody⟩ := hbody
      split at hbody
      · cases hbody
        exact hname
      · cases hbody

/-! ### Insertions -/

variable {settings : Settings} {crypto : Crypto} {draws : HandlerDraws} {now began : Time}
  {principal : Principal} {db : Database}

/-- A handler that inserts one row, and does nothing else that could fail for a value,
stores it when it fits. -/
theorem Submission.storable_iff_rowFits {submission : Submission} {conn : Conn} {table : Table}
    {row : Row table}
    (hwrites : submission.writes settings crypto draws now conn = [.insert table row])
    (havoids : rowFits table row = true →
      (submission.run settings crypto draws now).Avoids conn (.database .dataError))
    (hbudget : ∀ stored, submission.KeepsBudget stored) :
    submission.Storable settings crypto draws now conn ↔ rowFits table row = true := by
  have hfits : (∀ write ∈ submission.writes settings crypto draws now conn,
      write.Fits conn.policy conn.db) ↔ rowFits table row = true := by
    rw [hwrites]
    exact List.forall_mem_singleton
  constructor
  · intro h
    exact hfits.mp h.fits
  · intro h
    exact ⟨hfits.mpr h, havoids h, fun conn' _ => hbudget conn'.db⟩

theorem emailConflict_eq_dataError {cause : Fault}
    (h : emailConflict cause = .database .dataError) : cause = .database .dataError := by
  unfold emailConflict at h
  split at h
  · cases h
  · cases h
  · exact h

theorem fitsText_eventTypes (eventTypes : List WebhookEvent) :
    (eventTypes.map WebhookEvent.value).all fitsText = true := by
  rw [List.all_map, List.all_eq_true]
  intro event _
  cases event <;> decide

/-- A text of a documented length without a NUL fits a column of `varchar(255)`. -/
theorem fitsVarchar_of_length {length : ℕ} {text : Str} (h : text.length = length ∧ '\x00' ∉ text)
    (hlength : length ≤ 255) : fitsVarchar 255 text = true :=
  fitsVarchar_iff.mpr ⟨h.1.trans_le hlength, fitsText_iff.mpr h.2⟩

theorem fitsVarchar_mono {m n : ℕ} (hmn : m ≤ n) {text : Str} (h : fitsVarchar m text = true) :
    fitsVarchar n text = true := by
  obtain ⟨hlength, htext⟩ := fitsVarchar_iff.mp h
  exact fitsVarchar_iff.mpr ⟨hlength.trans hmn, htext⟩

/-- A new user fits when the full name does. -/
theorem rowFits_user_iff {id orgId : Uuid} {email hashedPassword : Str} {fullName : Option Str}
    {role : UserRole} {createdAt : Time} (hemail : fitsVarchar 254 email = true)
    (hpassword : hashedPassword.length = 97 ∧ '\x00' ∉ hashedPassword)
    (hfullName : ∀ name ∈ fullName, name.length ≤ 255) :
    rowFits .users ⟨id, orgId, email, some hashedPassword, fullName, role, true, createdAt⟩ = true ↔
      fullName.all fitsText = true := by
  have hhash : fitsNullable 255 (some hashedPassword) = true :=
    fitsVarchar_of_length hpassword (by decide)
  show (fitsVarchar 320 email && fitsNullable 255 (some hashedPassword) &&
    fitsNullable 255 fullName) = true ↔ _
  rw [fitsVarchar_mono (by decide) hemail, hhash, Bool.true_and, Bool.true_and]
  exact fitsNullable_iff_fitsText hfullName

/-! ### Budgets -/

theorem storeBudget_eq_ok_or (budget : Option ℚ) :
    storeBudget budget = .error .dataError ∨ ∃ stored, storeBudget budget = .ok stored := by
  unfold storeBudget
  split
  · exact .inr ⟨_, rfl⟩
  · split
    · exact .inl rfl
    · exact .inr ⟨_, rfl⟩

/-- The budgets that are stored without change. -/
theorem storeBudget_exact_iff {budget : Option ℚ}
    (hnonneg : ∀ given, budget = some given → 0 ≤ given) :
    (∃ stored, storeBudget budget = .ok stored ∧ stored.map Numeric.toRat = budget) ↔
      ∀ given, budget = some given → IsStorableBudget given := by
  cases budget with
  | none => exact iff_of_true ⟨none, rfl, rfl⟩ nofun
  | some given =>
      have hgiven := hnonneg given rfl
      have hexact := @Numeric.ofRat?_exact_iff 12 2 given
      have hstored : (∃ stored, storeBudget (some given) = .ok stored ∧
          stored.map Numeric.toRat = some given) ↔
            ∃ n, Numeric.ofRat? 12 2 given = some n ∧ n.toRat = given := by
        cases hround : Numeric.ofRat? 12 2 given <;> simp [storeBudget, hround]
      have hcents : ∀ cents : ℤ, given * 10 ^ 2 = cents →
          (cents.natAbs < 10 ^ 12 ↔ given < 10 ^ 10) := by
        intro cents h
        have hpos : 0 ≤ cents := by
          exact_mod_cast h ▸ (by positivity : (0 : ℚ) ≤ given * 10 ^ 2)
        have habs : (cents.natAbs : ℤ) = cents := Int.natAbs_of_nonneg hpos
        calc cents.natAbs < 10 ^ 12 ↔ cents < 10 ^ 12 := by omega
          _ ↔ (cents : ℚ) < 10 ^ 12 := by exact_mod_cast Iff.rfl
          _ ↔ given * 10 ^ 2 < 10 ^ 12 := by rw [h]
          _ ↔ given < 10 ^ 10 := by constructor <;> intro hlt <;> linarith
      rw [hstored, hexact]
      constructor
      · rintro ⟨cents, h, hbound⟩ _ ⟨⟩
        refine ⟨⟨cents, ?_⟩, (hcents cents h).mp hbound⟩
        rw [← h]
        norm_num
      · intro h
        obtain ⟨⟨cents, heq⟩, hbound⟩ := h given rfl
        have hscaled : given * 10 ^ 2 = cents := by
          rw [heq]
          norm_num
        exact ⟨cents, hscaled, (hcents cents hscaled).mpr hbound⟩

/-! ### Updates -/

section Updates

variable {conn : Conn} {orgId : Uuid}

theorem visible_iff (hrole : conn.role = .appUser) (horg : conn.currentOrg = some orgId)
    {table : Table} {row : Row table} :
    conn.policy.visible table row = true ↔ rowOrg table row = some orgId := by
  simp [Conn.policy, Core.policy, hrole, horg, orgIsolation]

/-- A bound session finds its organization. -/
theorem runs_getById_of_member (hrole : conn.role = .appUser)
    (horg : conn.currentOrg = some orgId)
    (hmember : ∃ org ∈ conn.db .organizations, org.id = orgId) :
    ∃ org ∈ conn.db .organizations, org.id = orgId ∧
      (getById .organizations orgId).Runs conn (some org) conn := by
  obtain ⟨member, hrow, hid⟩ := hmember
  have hgrant : conn.policy.grants .select .organizations = true := by
    simp [Conn.policy, Core.policy, hrole, grants]
  have hscalar := @runs_scalar conn .organizations hgrant
    fun row => rowId .organizations row == orgId
  cases hfind : (conn.db .organizations).find? fun row =>
      conn.policy.visible .organizations row && rowId .organizations row == orgId with
  | none =>
      have hnone := List.find?_eq_none.mp hfind member hrow
      have hseen : conn.policy.visible .organizations member = true :=
        (visible_iff hrole horg).mpr (congrArg some hid)
      simp [hseen, rowId, hid] at hnone
  | some org =>
      rw [hfind] at hscalar
      have hselected := List.find?_some hfind
      simp only [Bool.and_eq_true, beq_iff_eq] at hselected
      exact ⟨org, List.mem_of_find?_eq_some hfind, hselected.2, hscalar⟩

/-- The budget of the organization after the update. -/
theorem mem_of_assignBudget (hrole : conn.role = .appUser) (horg : conn.currentOrg = some orgId)
    {stored : Option (Numeric 12 2)} {conn' : Conn}
    (h : conn.Wrote [.update .organizations (withId .organizations orgId) (assignBudget stored)]
      conn') : ∀ org ∈ conn'.db .organizations, org.id = orgId → org.monthlyBudgetUsd = stored := by
  intro org hmem hid
  rw [h.update.2, Database.update_self] at hmem
  obtain ⟨row, _, rfl⟩ := List.mem_map.mp hmem
  have hrowId : row.id = orgId := by
    split at hid <;> exact hid
  have hselected : (conn.policy.visible .organizations row &&
      withId .organizations orgId row) = true := by
    rw [Bool.and_eq_true_iff]
    exact ⟨(visible_iff hrole horg).mpr (congrArg some hrowId), beq_iff_eq.mpr hrowId⟩
  rw [if_pos hselected]
  rfl

/-- A budget is stored without change when it is one the column holds. -/
theorem storable_organizationUpdate_iff {body : OrganizationUpdate}
    (hnonneg : ∀ budget, body.monthlyBudgetUsd = some budget → 0 ≤ budget)
    (hrole : conn.role = .appUser) (horg : conn.currentOrg = some principal.orgId)
    (hfitting : schema.Fitting conn.db)
    (hmember : ∃ org ∈ conn.db .organizations, org.id = principal.orgId) :
    (Submission.served principal (.organizationUpdate body)).Storable settings crypto draws now
        conn ↔ ∀ budget, body.monthlyBudgetUsd = some budget → IsStorableBudget budget := by
  obtain ⟨org, horgRow, hid, hget⟩ := runs_getById_of_member hrole horg hmember
  rw [← storeBudget_exact_iff hnonneg]
  have hfits : ∀ stored, ∀ row ∈ conn.db .organizations,
      rowFits .organizations ((assignBudget stored).set row) = true :=
    fun stored row hrow => hfitting .organizations row hrow
  constructor
  · intro h
    have havoids := h.noDataError
    simp only [Submission.run, ServedBody.request, handle, updateMyOrganization,
      Program.avoids_map, Program.avoids_bind, Program.runs_orRaise, avoids_ofStatement]
      at havoids
    have hstore := (havoids.2 _ _ hget).2 org conn ⟨rfl, rfl⟩
    obtain ⟨stored, hstored⟩ := (storeBudget_eq_ok_or _).resolve_left hstore.1
    refine ⟨stored, hstored, ?_⟩
    have hgrant : conn.policy.grants .update .organizations = true := by
      simp [Conn.policy, Core.policy, hrole, grants]
    obtain ⟨db', hupdate⟩ := @Policy.updateRows_of_fits _ _ _ _ schema conn.policy conn.db
      .organizations (withId .organizations org.id) (assignBudget stored) hgrant
      fun row hrow hselected => ⟨hfits stored row hrow, by
        refine (visible_iff hrole horg).mpr (congrArg some ?_)
        exact (beq_iff_eq.mp hselected).trans hid⟩
    have hwrote : conn.Wrote [.update .organizations (withId .organizations org.id)
        (assignBudget stored)] { conn with db := db' } := ⟨rfl, rfl, rfl, db', hupdate, rfl⟩
    have hrun : ((Submission.served principal (.organizationUpdate body)).run settings crypto draws
        now).Runs conn () { conn with db := db' } := by
      simp only [Submission.run, ServedBody.request, handle, updateMyOrganization,
        Program.runs_map, Program.runs_bind, Program.runs_orRaise, runs_ofStatement, runs_save,
        Program.runs_pure]
      exact ⟨_, ⟨_, ⟨some org, conn, hget, org, conn, ⟨rfl, rfl⟩, stored, conn, ⟨hstored, rfl⟩, (),
        _, hwrote, rfl, rfl⟩, rfl⟩, trivial⟩
    have hselected : (conn.policy.visible .organizations org &&
        withId .organizations org.id org) = true := by
      rw [Bool.and_eq_true_iff]
      exact ⟨(visible_iff hrole horg).mpr (congrArg some hid), beq_iff_eq.mpr rfl⟩
    have hmem : (assignBudget stored).set org ∈ db' .organizations := by
      have hdb := hwrote.update.2
      simp only at hdb
      rw [hdb, Database.update_self]
      exact List.mem_map.mpr ⟨org, horgRow, if_pos hselected⟩
    exact h.keepsBudget _ hrun _ hmem hid
  · rintro ⟨stored, hstored, heq⟩
    constructor
    · simp only [Submission.writes, ServedBody.request, Request.writes, hstored,
        List.forall_mem_singleton]
      exact fun row hrow _ _ => hfits stored row hrow
    · simp only [Submission.run, ServedBody.request, handle, updateMyOrganization,
        Program.avoids_map, Program.avoids_bind, Program.runs_orRaise, Program.avoids_orRaise,
        avoids_ofStatement, runs_ofStatement, runs_save, Program.avoids_pure, implies_true,
        and_true]
      refine ⟨avoids_getById, fun found _ hfound => ?_⟩
      obtain ⟨rfl, _⟩ := of_runs_getById hfound
      have hraised : Fault.raised [] ≠ .database .dataError := by
        intro h
        cases h
      have hnoError : storeBudget body.monthlyBudgetUsd ≠ .error .dataError := by
        rw [hstored]
        intro h
        cases h
      refine ⟨fun _ => hraised, ?_⟩
      rintro found _ ⟨_, rfl⟩
      refine ⟨hnoError, ?_⟩
      rintro stored' _ ⟨_, rfl⟩
      exact avoids_save.mpr fun _ row hrow _ _ => hfits stored' row hrow
    · intro conn' hrun
      obtain ⟨_, hresponse, _⟩ := Program.runs_map.mp hrun
      obtain ⟨out, hout, _⟩ := Program.runs_map.mp hresponse
      have hwrote := (@updateMyOrganization_eq_ok conn conn' principal _ out settings crypto now
        hout).2
      simp only [Request.writes, hstored] at hwrote
      intro org hmem hmemId
      rw [mem_of_assignBudget hrole horg hwrote org hmem hmemId]
      exact heq

theorem avoids_getOr404 {table : Table} {id : Uuid} {detail : Str} :
    (getOr404 table id detail).Avoids conn (.database .dataError) := by
  unfold getOr404
  refine Program.avoids_bind.mpr ⟨avoids_getById, fun found _ _ => ?_⟩
  exact Program.avoids_orRaise.mpr fun _ => nofun

/-- A document fits with another title when the title fits. -/
theorem rowFits_assignTitle {title : Option Str} (htitle : ∀ given ∈ title, given.length ≤ 512)
    {document : Document} (hdocument : rowFits .documents document = true) :
    rowFits .documents ((assignTitle title).set document) = true ↔ title.all fitsText = true := by
  cases title with
  | none => exact iff_of_true hdocument rfl
  | some given =>
      simp only [rowFits, Bool.and_eq_true] at hdocument
      obtain ⟨⟨⟨⟨_, hfilename⟩, hcontentType⟩, hstorageKey⟩, herror⟩ := hdocument
      show (fitsVarchar 512 given && fitsNullable 512 document.filename &&
        fitsNullable 255 document.contentType && fitsNullable 1024 document.storageKey &&
        fitsNullable 1024 document.error) = true ↔ fitsText given = true
      rw [hfilename, hcontentType, hstorageKey, herror, Bool.and_true, Bool.and_true, Bool.and_true,
        Bool.and_true]
      exact fitsVarchar_iff_fitsText (htitle given rfl)

/-- A title is stored when it fits, or the organization has no such document. -/
theorem storable_documentUpdate_iff {documentId : Uuid} {body : DocumentUpdate}
    (hbounded : ∀ title ∈ body.title, title.length ≤ 512) (hrole : conn.role = .appUser)
    (horg : conn.currentOrg = some principal.orgId) (hfitting : schema.Fitting conn.db) :
    (Submission.served principal (.documentUpdate documentId body)).Storable settings crypto draws
        now conn ↔
      ((∃ document ∈ conn.db .documents,
        document.id = documentId ∧ document.orgId = principal.orgId) →
          body.title.all fitsText = true) := by
  have hfits : ∀ document ∈ conn.db .documents,
      rowFits .documents ((assignTitle body.title).set document) = true ↔
        body.title.all fitsText = true :=
    fun document hrow => rowFits_assignTitle hbounded (hfitting .documents document hrow)
  constructor
  · rintro h ⟨document, hrow, hid, hdocumentOrg⟩
    have hupdate := h.fits (.update .documents (withId .documents documentId)
      (assignTitle body.title)) List.mem_cons_self
    refine (hfits document hrow).mp (hupdate document hrow ?_ (beq_iff_eq.mpr hid))
    exact (visible_iff hrole horg).mpr (congrArg some hdocumentOrg)
  · intro h
    have hupdate : ∀ document ∈ conn.db .documents,
        conn.policy.visible .documents document = true → document.id = documentId →
          rowFits .documents ((assignTitle body.title).set document) = true := by
      intro document hrow hvisible hid
      have hdocumentOrg := Option.some.inj
        ((@visible_iff conn principal.orgId hrole horg .documents document).mp hvisible)
      exact (hfits document hrow).mpr (h ⟨document, hrow, hid, hdocumentOrg⟩)
    constructor
    · intro write hwrite
      cases List.mem_singleton.mp hwrite
      exact fun document hrow hvisible hid =>
        hupdate document hrow hvisible (beq_iff_eq.mp hid)
    · simp only [Submission.run, ServedBody.request, handle, rowOf, updateDocument,
        getOwnedDocument, Program.avoids_map, Program.avoids_bind, Program.avoids_pure,
        implies_true, and_true]
      refine ⟨avoids_getOr404, fun found _ hfound => avoids_save.mpr fun _ => ?_⟩
      obtain ⟨rfl, _, hfoundId, _⟩ := of_runs_getOr404 hfound
      intro document hrow hvisible hid
      exact hupdate document hrow hvisible ((beq_iff_eq.mp hid).trans hfoundId)
    · exact fun _ _ => trivial

end Updates

/-- The bodies that insert one row are stored when the row fits. -/
theorem ServedBody.storable_iff {body : ServedBody} (hbounded : body.Bounded)
    (hdraws : draws.Documented crypto) (hfitting : schema.Fitting db)
    (hmember : ∃ org ∈ db .organizations, org.id = principal.orgId) :
    (Submission.served principal body).Storable settings crypto draws now
      ((Submission.served principal body).session began db) ↔ body.FitsColumns principal db := by
  cases body with
  | organizationUpdate body =>
      exact storable_organizationUpdate_iff hbounded rfl rfl hfitting hmember
  | webhookCreate body =>
      refine (Submission.storable_iff_rowFits rfl (fun h => ?_) ?_).trans ?_
      · simp [Submission.run, ServedBody.request, handle, rowOf, createWebhook, h]
      · exact fun _ => trivial
      · show (fitsVarchar 2048 body.url && fitsVarchar 255 draws.webhookSecret &&
          (body.eventTypes.map WebhookEvent.value).all fitsText) = true ↔ body.url.length ≤ 2048
        rw [fitsText_eventTypes, fitsVarchar_of_length hdraws.webhookSecret (by decide),
          Bool.and_true, Bool.and_true, fitsVarchar_iff]
        exact and_iff_left hbounded
  | userCreate body =>
      refine (Submission.storable_iff_rowFits rfl (fun h => ?_) ?_).trans ?_
      · simp only [Submission.run, ServedBody.request, handle, rowOf, createUser,
          Program.avoids_map, Program.avoids_bind, avoids_transactionTime, runs_transactionTime,
          Program.avoids_mapFault, Program.avoids_pure, implies_true, and_true, true_and]
        rintro _ _ ⟨rfl, rfl⟩ cause hcause
        rw [emailConflict_eq_dataError hcause]
        exact avoids_add.mpr fun _ => h
      · exact fun _ => trivial
      · exact rowFits_user_iff hbounded.1 hdraws.hashedPassword hbounded.2
  | documentCreate body =>
      refine (Submission.storable_iff_rowFits rfl (fun h => ?_) ?_).trans ?_
      · simp [Submission.run, ServedBody.request, handle, rowOf, createDocument, h]
      · exact fun _ => trivial
      · obtain ⟨htitle, hfilename, hcontentType⟩ := hbounded
        show (fitsVarchar 512 body.title && fitsNullable 512 body.filename &&
          fitsNullable 255 body.contentType && true && true) = true ↔ _
        rw [Bool.and_true, Bool.and_true, Bool.and_eq_true, Bool.and_eq_true,
          fitsVarchar_iff_fitsText htitle, fitsNullable_iff_fitsText hfilename,
          fitsNullable_iff_fitsText hcontentType, and_assoc]
        rfl
  | documentUpdate documentId body => exact storable_documentUpdate_iff hbounded rfl rfl hfitting
  | conversationCreate body =>
      refine (Submission.storable_iff_rowFits rfl (fun h => ?_) ?_).trans ?_
      · simp [Submission.run, ServedBody.request, handle, rowOf, createConversation, h]
      · exact fun _ => trivial
      · exact fitsNullable_iff_fitsText hbounded
  | apiKeyCreate body =>
      refine (Submission.storable_iff_rowFits rfl (fun h => ?_) ?_).trans ?_
      · simp [Submission.run, ServedBody.request, handle, createApiKey, h]
      · exact fun _ => trivial
      · have hhandle : IsHex 8 draws.apiKey.handle := hdraws.handle
        show (fitsVarchar 255 body.name && fitsVarchar 16 draws.apiKey.handle &&
          fitsVarchar 255 (hashSecret crypto draws.apiKey.secret)) = true ↔
            fitsText body.name = true
        rw [hhandle.fitsVarchar (by decide), hdraws.hashedKey.fitsVarchar (by decide),
          Bool.and_true, Bool.and_true]
        exact fitsVarchar_iff_fitsText hbounded

/-! ### Sign-ups -/

section Signup

variable {conn conn' : Conn} {body : SignupRequest}

/-- What the auth role finds shows whether there is such a row. -/
theorem isSome_of_runs_scalar (hrole : conn.role = .appAuth) {table : Table}
    {selected : Row table → Bool} {found : Option (Row table)}
    (h : (scalar table selected).Runs conn found conn') :
    conn = conn' ∧ found.isSome = (conn.db table).any selected := by
  obtain ⟨rfl, rfl⟩ := of_runs_scalar_of_appAuth hrole h
  refine ⟨rfl, ?_⟩
  rw [Bool.eq_iff_iff, List.find?_isSome, List.any_eq_true]

/-- What a sign-up that is answered has written. -/
theorem signup_wrote (hrole : conn.role = .appAuth) {tokens : TokenResponse}
    (h : (signup settings crypto body draws.hashedPassword draws.provisioned draws.token now).Runs
      conn tokens conn') :
    (¬∃ user ∈ conn.db .users, user.email = body.email) ∧
      conn.Wrote (signupWrites settings crypto draws now body conn) conn' := by
  simp only [signup, provision, Program.runs_bind, Program.runs_raiseIf, runs_transactionTime,
    runs_add, Program.runs_pure] at h
  obtain ⟨_, _, hexisting, _, _, ⟨hfree, rfl⟩, user, _, ⟨_, _, ⟨rfl, rfl⟩, _, _, hslug, _, _,
    horg, _, _, huser, rfl, rfl⟩, hissue⟩ := h
  obtain ⟨rfl, hexistingAny⟩ := isSome_of_runs_scalar hrole hexisting
  obtain ⟨rfl, hslugAny⟩ := isSome_of_runs_scalar hrole hslug
  obtain ⟨_, htoken⟩ := issueTokens_eq_ok hissue
  have hnone : ¬(conn.db .users).any (fun user => user.email == body.email) = true :=
    hexistingAny ▸ hfree
  constructor
  · rintro ⟨user, hrow, hemail⟩
    exact hnone (List.any_eq_true.mpr ⟨user, hrow, beq_iff_eq.mpr hemail⟩)
  · unfold signupWrites storedSlug
    rw [if_neg hnone, ← hslugAny]
    -- each insertion is stamped with the beginning of the transaction
    rw [huser.now, horg.now] at htoken
    exact horg.append (huser.append htoken)

theorem avoids_provision (hrole : conn.role = .appAuth)
    (horg : ∀ createdAt, rowFits .organizations
      ⟨draws.provisioned.orgId, body.orgName,
        storedSlug body.orgName draws.provisioned.suffix conn.db, none, createdAt⟩ = true)
    (huser : ∀ createdAt, rowFits .users
      ⟨draws.provisioned.userId, draws.provisioned.orgId, body.email, some draws.hashedPassword,
        body.fullName, .admin, true, createdAt⟩ = true) :
    (provision body.orgName (slugify body.orgName) body.email (some draws.hashedPassword)
      body.fullName draws.provisioned).Avoids conn (.database .dataError) := by
  simp only [provision, Program.avoids_bind, avoids_transactionTime, runs_transactionTime,
    Program.avoids_pure, implies_true, and_true, true_and]
  rintro _ _ ⟨rfl, rfl⟩
  refine ⟨avoids_scalar, fun found _ hfound => ?_⟩
  obtain ⟨rfl, hany⟩ := isSome_of_runs_scalar hrole hfound
  refine ⟨avoids_add.mpr fun _ => ?_, fun _ _ _ => avoids_add.mpr fun _ => huser _⟩
  rw [hany]
  exact horg _

theorem avoids_issueTokens {user : User} (htoken : ∀ createdAt, rowFits .refreshTokens
      (newRefreshToken settings crypto user.id draws.token now createdAt) = true) :
    (issueTokens settings crypto user draws.token now).Avoids conn (.database .dataError) := by
  simp only [issueTokens, Program.avoids_bind, avoids_transactionTime, Program.avoids_pure,
    implies_true, and_true, true_and]
  exact fun createdAt _ _ => avoids_add.mpr fun _ => htoken createdAt

/-- A sign-up is stored when its address is registered, or its texts and its slug fit. -/
theorem SignupRequest.storable_iff (hbounded : body.Bounded) (hdraws : draws.Documented crypto)
    (hrole : conn.role = .appAuth) :
    (Submission.signup body).Storable settings crypto draws now conn ↔
      body.FitsColumns conn.db := by
  have htaken : ((conn.db .users).any (fun user => user.email == body.email) = true) ↔
      ∃ user ∈ conn.db .users, user.email = body.email := by
    simp only [List.any_eq_true, beq_iff_eq]
  -- the rows fit when the texts of the body and the slug do
  have horgFits : ∀ id createdAt, rowFits .organizations
      { id, name := body.orgName,
        slug := storedSlug body.orgName draws.provisioned.suffix conn.db,
        monthlyBudgetUsd := none, createdAt } = true ↔
      fitsText body.orgName = true ∧ slugLength body.orgName ≤ 255 ∧
        ((∃ org ∈ conn.db .organizations, org.slug = slugify body.orgName) →
          slugLength body.orgName ≤ 248) := by
    intro id createdAt
    rw [← fitsVarchar_storedSlug hdraws.suffix, ← fitsVarchar_iff_fitsText hbounded.orgName]
    exact Bool.and_eq_true_iff
  have huserFits : ∀ id orgId createdAt, rowFits .users
      ⟨id, orgId, body.email, some draws.hashedPassword, body.fullName, .admin, true, createdAt⟩ =
        true ↔ body.fullName.all fitsText = true := fun _ _ _ =>
    rowFits_user_iff hbounded.email hdraws.hashedPassword hbounded.fullName
  have htokenFits : ∀ userId createdAt, rowFits .refreshTokens
      (newRefreshToken settings crypto userId draws.token now createdAt) = true :=
    fun userId createdAt => hdraws.tokenHash.fitsVarchar (by decide)
  constructor
  · intro h
    by_cases hfound : (conn.db .users).any (fun user => user.email == body.email) = true
    · exact .inl (htaken.mp hfound)
    · have hfits := h.fits
      simp only [Submission.writes, signupWrites, if_neg hfound, List.forall_mem_cons] at hfits
      obtain ⟨horg, huser, _⟩ := hfits
      obtain ⟨hname, hslug, hsuffix⟩ := (horgFits _ _).mp horg
      exact .inr ⟨hname, (huserFits _ _ _).mp huser, hslug, hsuffix⟩
  · intro h
    have hrows : ¬(conn.db .users).any (fun user => user.email == body.email) = true →
        (fitsText body.orgName = true ∧ slugLength body.orgName ≤ 255 ∧
          ((∃ org ∈ conn.db .organizations, org.slug = slugify body.orgName) →
            slugLength body.orgName ≤ 248)) ∧ body.fullName.all fitsText = true := by
      intro hfound
      obtain ⟨hname, hfullName, hslug⟩ :=
        h.resolve_left fun htakenBy => hfound (htaken.mpr htakenBy)
      exact ⟨⟨hname, hslug⟩, hfullName⟩
    constructor
    · intro write hwrite
      change write ∈ signupWrites settings crypto draws now body conn at hwrite
      unfold signupWrites at hwrite
      split at hwrite
      · cases hwrite
      · next hfound =>
          obtain ⟨horg, huser⟩ := hrows hfound
          simp only [List.mem_cons, List.not_mem_nil, or_false] at hwrite
          rcases hwrite with rfl | rfl | rfl
          · exact (horgFits _ _).mpr horg
          · exact (huserFits _ _ _).mpr huser
          · exact htokenFits _ _
    · simp only [Submission.run, signup, Program.avoids_map, Program.avoids_bind,
        Program.avoids_raiseIf, Program.runs_raiseIf]
      have hconflict : Fault.http 409 "Email already registered".toList ≠
          .database .dataError := by
        intro h
        cases h
      refine ⟨avoids_scalar, fun existing _ hexisting => ⟨fun _ => hconflict, ?_⟩⟩
      obtain ⟨rfl, hany⟩ := isSome_of_runs_scalar hrole hexisting
      rintro _ _ ⟨hfree, rfl⟩
      obtain ⟨horg, huser⟩ := hrows (hany ▸ hfree)
      exact ⟨avoids_provision hrole (fun _ => (horgFits _ _).mpr horg)
        fun _ => (huserFits _ _ _).mpr huser,
        fun user _ _ => avoids_issueTokens (htokenFits user.id)⟩
    · exact fun _ _ => trivial


end Signup

end Spec

end Api
