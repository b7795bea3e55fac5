import KnowledgePlatform.Foundations.SqlLexer
import KnowledgePlatform.Python.Text

/-!
# The role bootstrap

`scripts/prepare_db.py` creates the database roles with passwords from the
environment.  A password is spliced into the text of a statement, as a literal in
a body between dollar quotes.  `quotedPassword` escapes the literal; the body is
not looked at.

`bootstraps_iff_no_pair` says for which of the accepted passwords the statement is
the one that is meant.
-/

open Foundations Foundations.Sql Python

namespace Scripts

/-! ## The statements -/

/-- The password as a literal, unless it cannot be quoted. -/
def quotedPassword (password : Str) : Except Str Str :=
  if password.contains '\\' || password.contains (Char.ofNat 0) then
    .error "password contains characters that cannot be safely quoted".toList
  else .ok (quote :: escape password ++ [quote])

/-- A block of the body up to the first password. -/
def blockHead (role : String) : Str :=
  ("            IF NOT EXISTS (SELECT FROM pg_roles WHERE rolname = '" ++ role ++ "') THEN\n" ++
    "                CREATE ROLE " ++ role ++ " LOGIN PASSWORD ").toList

/-- The block between its two passwords. -/
def blockMiddle (role bypass : String) : Str :=
  ("\n                    NOSUPERUSER " ++ bypass ++ " NOCREATEDB NOCREATEROLE;\n" ++
    "            ELSE\n                ALTER ROLE " ++ role ++ " PASSWORD ").toList

/-- The end of a block. -/
def blockTail : Str := ";\n            END IF;\n".toList

/-- The block of a role. -/
def roleBlock (role bypass : String) (quoted : Str) : Str :=
  blockHead role ++ quoted ++ blockMiddle role bypass ++ quoted ++ blockTail

def bodyHead : Str := "\n        BEGIN\n".toList

def bodyTail : Str := "        END\n        ".toList

/-- The body of the first statement. -/
def roleBody (quotedUser quotedAuth : Str) : Str :=
  bodyHead ++ roleBlock "app_user" "NOBYPASSRLS" quotedUser ++
    roleBlock "app_auth" "BYPASSRLS" quotedAuth ++ bodyTail

def statementHead : Str := "\n        DO $$".toList

def statementTail : Str := "$$;\n        ".toList

/-- The first statement. -/
def roleStatement (quotedUser quotedAuth : Str) : Str :=
  statementHead ++ roleBody quotedUser quotedAuth ++ statementTail

def databaseName : String := "knowledge_platform"

/-- The statements of `_bootstrap_roles_with_passwords`. -/
def bootstrapStatements (appUserPassword appAuthPassword : Str) : Except Str (List Str) := do
  let quotedUser ← quotedPassword appUserPassword
  let quotedAuth ← quotedPassword appAuthPassword
  .ok [roleStatement quotedUser quotedAuth,
    ("GRANT CONNECT ON DATABASE " ++ databaseName ++ " TO app_user, app_auth;").toList,
    "GRANT USAGE ON SCHEMA public TO app_user, app_auth;".toList]

/-! ## What is meant -/

def words (names : List String) : List Token := names.map fun name => .word name.toList

/-- `CREATE ROLE … LOGIN PASSWORD …` -/
def createRole (role bypass : String) (password : Str) : List Token :=
  words ["CREATE", "ROLE", role, "LOGIN", "PASSWORD"] ++ .literal password ::
    words ["NOSUPERUSER", bypass, "NOCREATEDB", "NOCREATEROLE"] ++ [.symbol ';']

/-- `ALTER ROLE … PASSWORD …` -/
def alterRole (role : String) (password : Str) : List Token :=
  words ["ALTER", "ROLE", role, "PASSWORD"] ++ [.literal password, .symbol ';']

/-- Whether the role is still missing. -/
def roleIsMissing (role : String) : List Token :=
  words ["NOT", "EXISTS"] ++ .symbol '(' ::
    words ["SELECT", "FROM", "pg_roles", "WHERE", "rolname"] ++
      [.symbol '=', .literal role.toList, .symbol ')']

/-- Create the role with its password, or set the password. -/
def ensureRole (role bypass : String) (password : Str) : List Token :=
  words ["IF"] ++ roleIsMissing role ++ words ["THEN"] ++ createRole role bypass password ++
    words ["ELSE"] ++ alterRole role password ++ words ["END", "IF"] ++ [.symbol ';']

/-- The body with its four commands. -/
def ensureRoles (appUserPassword appAuthPassword : Str) : List Token :=
  words ["BEGIN"] ++ ensureRole "app_user" "NOBYPASSRLS" appUserPassword ++
    ensureRole "app_auth" "BYPASSRLS" appAuthPassword ++ words ["END"]

/-- The text is one `DO` statement whose body has the four commands, with the
passwords for literals. -/
def Bootstraps (appUserPassword appAuthPassword statement : Str) : Prop := ∃ body,
  lexer.lex statement = some [.word "DO".toList, .dollarString body, .symbol ';'] ∧
    lexer.lex body = some (ensureRoles appUserPassword appAuthPassword)

/-! ## Reading a block -/

/-- The tokens of a block up to the first password, and between the two. -/
def headTokens (role : String) : List Token :=
  words ["IF"] ++ roleIsMissing role ++
    words ["THEN", "CREATE", "ROLE", role, "LOGIN", "PASSWORD"]

def middleTokens (role bypass : String) : List Token :=
  words ["NOSUPERUSER", bypass, "NOCREATEDB", "NOCREATEROLE"] ++
    .symbol ';' :: words ["ELSE", "ALTER", "ROLE", role, "PASSWORD"]

def tailTokens : List Token := .symbol ';' :: words ["END", "IF"] ++ [.symbol ';']

/-- The text of a block without its passwords reads as it is meant, and has no
dollar signs. -/
structure Block (role bypass : String) : Prop where
  head : lexer.Reads .between (blockHead role) .between (headTokens role)
  middle : lexer.Reads .between (blockMiddle role bypass) .between (middleTokens role bypass)
  middleStarts : (blockMiddle role bypass).head? = some '\n'
  headPlain : Plain (blockHead role)
  middlePlain : Plain (blockMiddle role bypass)

/-- The blocks of the two roles and the texts around them read as they are meant, and have
no pair of dollar signs. -/
structure Frame : Prop where
  appUser : Block "app_user" "NOBYPASSRLS"
  appAuth : Block "app_auth" "BYPASSRLS"
  blockTail : lexer.Reads .between blockTail .between tailTokens
  blockTailStarts : Scripts.blockTail.head? = some ';'
  blockTailPlain : Plain Scripts.blockTail
  bodyHead : lexer.Reads .between bodyHead .between (words ["BEGIN"])
  bodyHeadPlain : Plain Scripts.bodyHead
  bodyTail : lexer.Reads .between bodyTail .between (words ["END"])
  bodyTailPlain : Plain Scripts.bodyTail
  statementHead : lexer.Reads lexer.start statementHead (.inDollar false []) [.word "DO".toList]
  statementTail : statementTail = ['$', '$'] ++ ";\n        ".toList
  statementEnd : lexer.Reads .between ";\n        ".toList .between [.symbol ';']

/-- The texts of a block in parts, which are faster to evaluate than one long text. -/
theorem blockHead_eq (role : String) : blockHead role =
    "            IF NOT EXISTS (SELECT FROM pg_roles WHERE rolname = '".toList ++ role.toList ++
      "') THEN\n".toList ++ "                CREATE ROLE ".toList ++ role.toList ++
      " LOGIN PASSWORD ".toList := by
  simp only [blockHead, String.toList_append, List.append_assoc]

theorem blockMiddle_eq (role bypass : String) : blockMiddle role bypass =
    "\n                    NOSUPERUSER ".toList ++ bypass.toList ++
      " NOCREATEDB NOCREATEROLE;\n".toList ++
      "            ELSE\n                ALTER ROLE ".toList ++ role.toList ++
      " PASSWORD ".toList := by
  simp only [blockMiddle, String.toList_append, List.append_assoc]

theorem frame : Frame where
  appUser := by
    constructor
    · unfold Lexer.Reads
      rw [blockHead_eq]
      decide +kernel
    · unfold Lexer.Reads
      rw [blockMiddle_eq]
      decide +kernel
    · rw [blockMiddle_eq]
      decide +kernel
    · rw [blockHead_eq]
      decide +kernel
    · rw [blockMiddle_eq]
      decide +kernel
  appAuth := by
    constructor
    · unfold Lexer.Reads
      rw [blockHead_eq]
      decide +kernel
    · unfold Lexer.Reads
      rw [blockMiddle_eq]
      decide +kernel
    · rw [blockMiddle_eq]
      decide +kernel
    · rw [blockHead_eq]
      decide +kernel
    · rw [blockMiddle_eq]
      decide +kernel
  blockTail := by
    unfold Lexer.Reads
    decide +kernel
  blockTailStarts := by decide +kernel
  blockTailPlain := by decide +kernel
  bodyHead := by
    unfold Lexer.Reads
    decide +kernel
  bodyHeadPlain := by decide +kernel
  bodyTail := by
    unfold Lexer.Reads
    decide +kernel
  bodyTailPlain := by decide +kernel
  statementHead := by
    unfold Lexer.Reads
    decide +kernel
  statementTail := by decide +kernel
  statementEnd := by
    unfold Lexer.Reads
    decide +kernel

/-- A password as a literal. -/
def quoted (password : Str) : Str := quote :: escape password ++ [quote]

theorem quoted_noPair (password : Str) :
    (NoPair false (quoted password) ↔ NoPair false password) ∧
      endsDollar false (quoted password) = false := by
  obtain ⟨hpair, _⟩ := noPair_escape false password
  have hopen : NoPair false [quote] ∧ endsDollar false [quote] = false := by decide
  have hclose : ∀ dollar, NoPair dollar [quote] := by decide
  unfold quoted
  rw [← List.singleton_append, List.append_assoc, noPair_append, endsDollar_append, hopen.2,
    noPair_append, endsDollar_append, hpair]
  exact ⟨by simp [hopen.1, hclose], rfl⟩

section Block

variable {role bypass : String}

/-- A block reads as it is meant, whatever the password is. -/
theorem Block.reads (h : Block role bypass) (password : Str) :
    lexer.Reads .between (roleBlock role bypass (quoted password)) .between
      (ensureRole role bypass password) := by
  have hsecond : lexer.Reads .between (blockMiddle role bypass ++ (quoted password ++ blockTail))
      .between (middleTokens role bypass ++ .literal password :: tailTokens) :=
    h.middle.append (reads_quoted password frame.blockTailStarts (by decide) frame.blockTail)
  have hmiddle : (blockMiddle role bypass ++ (quoted password ++ blockTail)).head? = some '\n' := by
    rw [List.head?_append, h.middleStarts]
    rfl
  have hblock := h.head.append (reads_quoted password hmiddle (by decide) hsecond)
  have htext : roleBlock role bypass (quoted password) = blockHead role ++ (quoted password ++
      (blockMiddle role bypass ++ (quoted password ++ blockTail))) := by
    simp only [roleBlock, List.append_assoc]
  have htokens : ensureRole role bypass password = headTokens role ++ .literal password ::
      (middleTokens role bypass ++ .literal password :: tailTokens) := by
    simp [ensureRole, createRole, alterRole, headTokens, middleTokens, tailTokens, words]
  rw [htext, htokens]
  exact hblock

/-- A block has a pair of dollar signs exactly when the password has. -/
theorem Block.noPair_iff (h : Block role bypass) (password : Str) :
    (NoPair false (roleBlock role bypass (quoted password)) ↔ NoPair false password) ∧
      endsDollar false (roleBlock role bypass (quoted password)) = false := by
  obtain ⟨htail, htailEnds⟩ := frame.blockTailPlain
  obtain ⟨hhead, hheadEnds⟩ := h.headPlain
  obtain ⟨hmiddle, hmiddleEnds⟩ := h.middlePlain
  obtain ⟨hpair, hends⟩ := quoted_noPair password
  simp only [roleBlock, noPair_append, endsDollar_append, hhead, hheadEnds, hmiddle, hmiddleEnds,
    htail, htailEnds, hpair, hends, true_and, and_true, and_self]

theorem Block.plain (h : Block role bypass) {password : Str} (hpassword : NoPair false password) :
    Plain (roleBlock role bypass (quoted password)) :=
  ⟨(h.noPair_iff password).1.mpr hpassword, (h.noPair_iff password).2⟩

end Block

/-! ## The statement -/

/-- What is in front of the first pair of dollar signs of a password. -/
theorem exists_front_of_pair {password : Str} (h : ¬NoPair false password) : ∃ before after,
    quoted password = quote :: escape before ++ ['$', '$'] ++ after ∧
      Plain (quote :: escape before) := by
  rcases exists_pair h with ⟨hfalse, _⟩ | ⟨before, after, rfl, hbefore, hends⟩
  · cases hfalse
  · have hdollar : ∀ rest, escape ('$' :: '$' :: rest) = '$' :: '$' :: escape rest := by
      intro rest
      rfl
    refine ⟨before, escape after ++ [quote], ?_, Plain.openLiteral ⟨hbefore, hends⟩⟩
    rw [quoted, escape, List.flatMap_append, ← escape, ← escape, hdollar]
    simp

/-- If a password ends the body early, the statement is not the one that is meant. -/
theorem noPair_of_bootstraps {statement front password rest : Str} {tokens : List Token}
    {appUserPassword appAuthPassword : Str}
    (hsplit : statement = statementHead ++ (front ++ quoted password ++ rest))
    (hreads : lexer.Reads .between front .between tokens)
    (hfront : Plain front)
    (h : Bootstraps appUserPassword appAuthPassword statement) : NoPair false password := by
  by_contra hpair
  obtain ⟨body, hstatement, hbody⟩ := h
  obtain ⟨before, after, hquoted, hbefore⟩ := exists_front_of_pair hpair
  -- the lexer takes what is in front of the pair for the body
  have hstart := frame.statementHead.append (reads_dollarString (hfront.append hbefore))
  have htext : statement =
      statementHead ++ ((front ++ quote :: escape before) ++ ['$', '$']) ++ (after ++ rest) := by
    rw [hsplit, hquoted]
    simp
  rw [htext] at hstatement
  obtain ⟨later, hlater⟩ := Lexer.lex_of_reads hstart hstatement
  have hcut : front ++ quote :: escape before = body := by
    simp only [List.cons_append, List.nil_append, List.cons.injEq,
      Token.dollarString.injEq] at hlater
    exact hlater.2.1
  -- and that ends within a literal
  have hopen : lexer.Reads lexer.start (front ++ quote :: escape before)
      (.inLiteral (before.reverse ++ [])) (tokens ++ []) :=
    hreads.append (.cons rfl (reads_escape before []))
  rw [← hcut, Lexer.lex_eq_none hopen rfl] at hbody
  cases hbody

/-- Without backslashes and NULs a password can be quoted. -/
theorem quotedPassword_of_notMem {password : Str} (hslash : '\\' ∉ password)
    (hnul : Char.ofNat 0 ∉ password) : quotedPassword password = .ok (quoted password) := by
  unfold quotedPassword
  rw [if_neg]
  · rfl
  · simp [hslash, hnul]

theorem quotedPassword_eq_ok {password text : Str} (h : quotedPassword password = .ok text) :
    text = quoted password := by
  unfold quotedPassword at h
  split at h
  · cases h
  · cases h
    rfl

theorem bootstrapStatements_eq_ok {appUserPassword appAuthPassword : Str} {statements : List Str}
    (h : bootstrapStatements appUserPassword appAuthPassword = .ok statements) :
    ∃ grants, statements = roleStatement (quoted appUserPassword) (quoted appAuthPassword) ::
      grants := by
  unfold bootstrapStatements at h
  cases huser : quotedPassword appUserPassword with
  | error message =>
      rw [huser] at h
      cases h
  | ok quotedUser =>
      cases hauth : quotedPassword appAuthPassword with
      | error message =>
          rw [huser, hauth] at h
          cases h
      | ok quotedAuth =>
          rw [huser, hauth] at h
          cases h
          rw [quotedPassword_eq_ok huser, quotedPassword_eq_ok hauth]
          exact ⟨_, rfl⟩

theorem bootstrapStatements_of_accepted {appUserPassword appAuthPassword : Str}
    (huser : quotedPassword appUserPassword = .ok (quoted appUserPassword))
    (hauth : quotedPassword appAuthPassword = .ok (quoted appAuthPassword)) :
    ∃ grants, bootstrapStatements appUserPassword appAuthPassword =
      .ok (roleStatement (quoted appUserPassword) (quoted appAuthPassword) :: grants) := by
  unfold bootstrapStatements
  rw [huser, hauth]
  exact ⟨_, rfl⟩

/-- The body reads as it is meant. -/
theorem lex_roleBody (appUserPassword appAuthPassword : Str) :
    lexer.lex (roleBody (quoted appUserPassword) (quoted appAuthPassword)) =
      some (ensureRoles appUserPassword appAuthPassword) := by
  have hbody := ((frame.bodyHead.append (frame.appUser.reads appUserPassword)).append
    (frame.appAuth.reads appAuthPassword)).append frame.bodyTail
  exact Lexer.lex_eq_some.mpr ⟨.between, _, [], hbody, rfl, (List.append_nil _).symm⟩

/-- The body has a pair of dollar signs exactly when one of the passwords has. -/
theorem noPair_roleBody (appUserPassword appAuthPassword : Str) :
    (NoPair false (roleBody (quoted appUserPassword) (quoted appAuthPassword)) ↔
      NoPair false appUserPassword ∧ NoPair false appAuthPassword) ∧
      endsDollar false (roleBody (quoted appUserPassword) (quoted appAuthPassword)) = false := by
  obtain ⟨htail, htailEnds⟩ := frame.bodyTailPlain
  obtain ⟨hhead, hheadEnds⟩ := frame.bodyHeadPlain
  obtain ⟨huser, huserEnds⟩ := frame.appUser.noPair_iff appUserPassword
  obtain ⟨hauth, hauthEnds⟩ := frame.appAuth.noPair_iff appAuthPassword
  simp only [roleBody, noPair_append, endsDollar_append, hhead, hheadEnds, htail, htailEnds, huser,
    huserEnds, hauth, hauthEnds, true_and, and_true, and_self]

/-- Without a pair of dollar signs in a password the statement is the one that is
meant. -/
theorem bootstraps_of_noPair {appUserPassword appAuthPassword : Str}
    (huser : NoPair false appUserPassword) (hauth : NoPair false appAuthPassword) :
    Bootstraps appUserPassword appAuthPassword
      (roleStatement (quoted appUserPassword) (quoted appAuthPassword)) := by
  obtain ⟨hpair, hends⟩ := noPair_roleBody appUserPassword appAuthPassword
  refine ⟨_, ?_, lex_roleBody appUserPassword appAuthPassword⟩
  have hstatement := (frame.statementHead.append
    (reads_dollarString ⟨hpair.mpr ⟨huser, hauth⟩, hends⟩)).append frame.statementEnd
  rw [roleStatement, frame.statementTail, ← List.append_assoc, List.append_assoc statementHead]
  exact Lexer.lex_eq_some.mpr ⟨.between, _, [], hstatement, rfl, rfl⟩

/-- The statement up to the first password of a block, and from there on. -/
theorem roleStatement_split (quotedUser quotedAuth : Str) : ∃ afterUser afterAuth,
    roleStatement quotedUser quotedAuth =
      statementHead ++ ((bodyHead ++ blockHead "app_user") ++ quotedUser ++ afterUser) ∧
    roleStatement quotedUser quotedAuth =
      statementHead ++ ((bodyHead ++ roleBlock "app_user" "NOBYPASSRLS" quotedUser ++
        blockHead "app_auth") ++ quotedAuth ++ afterAuth) := by
  refine ⟨blockMiddle "app_user" "NOBYPASSRLS" ++ quotedUser ++ blockTail ++
    roleBlock "app_auth" "BYPASSRLS" quotedAuth ++ bodyTail ++ statementTail,
    blockMiddle "app_auth" "BYPASSRLS" ++ quotedAuth ++ blockTail ++ bodyTail ++ statementTail,
    ?_, ?_⟩
  · simp only [roleStatement, roleBody, roleBlock, List.append_assoc]
  · simp only [roleStatement, roleBody, roleBlock, List.append_assoc]

/-- A pair of dollar signs in a password ends the body. -/
theorem noPair_of_roleStatement {appUserPassword appAuthPassword : Str}
    (h : Bootstraps appUserPassword appAuthPassword
      (roleStatement (quoted appUserPassword) (quoted appAuthPassword))) :
    NoPair false appUserPassword ∧ NoPair false appAuthPassword := by
  obtain ⟨afterUser, afterAuth, hsplitUser, hsplitAuth⟩ :=
    roleStatement_split (quoted appUserPassword) (quoted appAuthPassword)
  have huser : NoPair false appUserPassword := by
    have hreads := frame.bodyHead.append frame.appUser.head
    have hfront := frame.bodyHeadPlain.append frame.appUser.headPlain
    exact noPair_of_bootstraps hsplitUser hreads hfront h
  have hreads := (frame.bodyHead.append (frame.appUser.reads appUserPassword)).append
    frame.appAuth.head
  have hfront :=
    (frame.bodyHeadPlain.append (frame.appUser.plain huser)).append frame.appAuth.headPlain
  exact ⟨huser, noPair_of_bootstraps hsplitAuth hreads hfront h⟩

/-- The first statement is the `DO` statement that is meant, with the passwords for
literals, if and only if neither password has two dollar signs in a row. -/
theorem bootstraps_iff_no_pair {appUserPassword appAuthPassword : Str} {statements : List Str}
    (h : bootstrapStatements appUserPassword appAuthPassword = .ok statements) :
    ∃ statement grants, statements = statement :: grants ∧
      (Bootstraps appUserPassword appAuthPassword statement ↔
        ¬['$', '$'] <:+: appUserPassword ∧ ¬['$', '$'] <:+: appAuthPassword) := by
  obtain ⟨grants, rfl⟩ := bootstrapStatements_eq_ok h
  refine ⟨_, grants, rfl, ?_⟩
  rw [← noPair_iff, ← noPair_iff]
  constructor
  · exact noPair_of_roleStatement
  · rintro ⟨huser, hauth⟩
    exact bootstraps_of_noPair huser hauth

theorem bootstraps_iff_no_pair_weird : ∃ statement grants,
    bootstrapStatements "weird'pass".toList "simplepass123".toList = .ok (statement :: grants) ∧
    (Bootstraps "weird'pass".toList "simplepass123".toList statement ↔
      ¬['$', '$'] <:+: "weird'pass".toList ∧ ¬['$', '$'] <:+: "simplepass123".toList) := by
  obtain ⟨grants, hok⟩ := @bootstrapStatements_of_accepted "weird'pass".toList
    "simplepass123".toList (quotedPassword_of_notMem (by simp) (by simp))
    (quotedPassword_of_notMem (by simp) (by simp))
  obtain ⟨_, _, hsame, hiff⟩ := bootstraps_iff_no_pair hok
  cases hsame
  exact ⟨_, grants, hok, hiff⟩

/-- A password with two dollar signs is accepted and ends the body. -/
theorem dollarPassword_ends_body : ∃ statement grants,
    bootstrapStatements "pa$$word".toList "simplepass123".toList = .ok (statement :: grants) ∧
    ¬Bootstraps "pa$$word".toList "simplepass123".toList statement := by
  obtain ⟨grants, hok⟩ := @bootstrapStatements_of_accepted "pa$$word".toList
    "simplepass123".toList (quotedPassword_of_notMem (by simp) (by simp))
    (quotedPassword_of_notMem (by simp) (by simp))
  refine ⟨_, grants, hok, fun hbootstraps => ?_⟩
  have hpair : ¬NoPair false "pa$$word".toList := by
    rw [noPair_iff, not_not]
    exact ⟨"pa".toList, "word".toList, by simp⟩
  exact hpair (noPair_of_roleStatement hbootstraps).1

end Scripts
