import VetHealth.Auth.Runs

/-!
# VetHealth.Auth.Blocked

**Blocked users.** An administrator can set a user's status to Blocked, but the login looks
only for Pending, a refresh looks at no status at all, and a confirmation sets the status to
Active whatever it was. `sparesBlocked` names the requests that make the difference: in a run
without them no token is issued to a blocked user and nobody but an administrator unblocks one,
and every one of them does what it should not.
-/

namespace VetHealth

open Js Store Resumption Transition

/-- The user that the tokens of a response are issued to. A response without tokens has none. -/
def tokensIssuedTo : Except Failure Response → Option Uuid
  | .ok (.loggedIn response) => some response.token.id
  | .ok (.refreshed tokens) => some tokens.token.id
  | _ => none

def statusOf (users : UsersTable) (k : Uuid) : Option UserStatusEnum :=
  (users.get k).bind UserEntity.status

namespace Request

/-- `PATCH /users`. -/
def isUpdate : Request → Bool
  | .updateUser _ _ => true
  | _ => false

/-- `PATCH /users` by an administrator. -/
def isAdminUpdate : Request → Bool
  | .updateUser caller _ => isAdminRole caller.role
  | _ => false

end Request

section

variable [Scrypt]

/-- The request is no login with the right password, no refresh with the current token, and no
confirmation with a valid token, of a user who is blocked. A login or a refresh for which no
token can be signed, or no session opened, does no harm. -/
def sparesBlocked (db : Database) (a : Ambient) : Request → Prop
  | .login dto => a.signed = true → db.sessions.get a.rowId = none →
      ∀ user, db.userByEmail dto.email = some user →
        comparePassword dto.password user.password = .ok true → user.status ≠ some .blocked
  | .refresh data => a.signed = true →
      ∀ session user, db.session data.sessionId = some (session, some user) →
        session.hash = data.hash → user.status ≠ some .blocked
  | .confirm dto =>
      ∀ confirm user, db.confirm dto.hash = some (confirm, some user) →
        a.now ≤ confirm.expiresIn → user.status ≠ some .blocked
  | _ => True

omit [Scrypt] in
theorem getTokensData_eq {a : Ambient} {id : Uuid} {role : Option RoleEnum} {sessionId : Uuid}
    {hash : String} :
    AuthService.getTokensData a id role sessionId hash =
      if a.signed then .ok ⟨⟨id, role, sessionId⟩, ⟨sessionId, hash⟩, a.now + a.lifetime⟩
      else .error (.internal .signingFailed) := rfl

variable {db : Database} {a : Ambient} {k : Uuid}

/-- **Whom a login issues tokens to**: the user found by the address, if the password is right
and the status is not Pending. -/
theorem login_issues {dto : AuthLoginDto} :
    tokensIssuedTo (((AuthService.validateLogin a dto).run db).1.map .loggedIn) = some k ↔
      a.signed = true ∧ db.sessions.get a.rowId = none ∧
        ∃ user, AuthService.checkLogin dto (db.userByEmail dto.email) = .ok user ∧ user.id = k := by
  rw [AuthService.run_validateLogin]
  cases hcheck : AuthService.checkLogin dto (db.userByEmail dto.email) with
  | error e =>
      constructor
      · intro h
        cases h
      · intro ⟨_, _, _, h, _⟩
        cases h
  | ok user =>
      dsimp only
      cases hins : db.insertSession ⟨a.rowId, user.id, a.hash, false⟩ with
      | error e =>
          -- the insert fails only on an id that is taken
          constructor
          · intro h
            cases h
          · intro ⟨_, hfree, _⟩
            have hopen : ∃ db', db.insertSession ⟨a.rowId, user.id, a.hash, false⟩ = .ok db' :=
              Database.exists_insertSession.2 hfree
            obtain ⟨db', hins'⟩ := hopen
            rw [hins] at hins'
            cases hins'
      | ok db' =>
          have hfree := Database.exists_insertSession.1 ⟨db', hins⟩
          rw [getTokensData_eq]
          cases hsigned : a.signed with
          | false =>
              constructor
              · intro h
                cases h
              · intro ⟨h, _⟩
                cases h
          | true =>
              constructor
              · intro h
                exact ⟨rfl, hfree, user, rfl, Option.some.inj h⟩
              · intro ⟨_, _, user', huser, hid⟩
                obtain rfl := Except.ok.inj huser
                exact congrArg some hid

omit [Scrypt] in
/-- **Whom a refresh issues tokens to**: the owner of the live session that has the presented
hash. -/
theorem refresh_issues [Typeorm] {data : JwtRefreshPayload} :
    tokensIssuedTo (((AuthService.refreshTokens a data).run db).1.map .refreshed) = some k ↔
      a.signed = true ∧ ∃ session user, db.session data.sessionId = some (session, some user) ∧
        session.hash = data.hash ∧ user.id = k := by
  rw [AuthService.run_refreshTokens]
  rcases db.session data.sessionId with _ | ⟨session, user⟩
  · constructor
    · intro h
      cases h
    · intro ⟨_, _, _, h, _⟩
      cases h
  · dsimp only
    -- The presented hash is compared first; whoever owns the session is loaded with it, and may be
    -- gone.
    by_cases hhash : session.hash ≠ data.hash
    · rw [if_pos hhash]
      constructor
      · intro h
        cases h
      · intro ⟨_, _, _, heq, hsame, _⟩
        rw [← (Prod.mk.inj (Option.some.inj heq)).1] at hsame
        exact absurd hsame hhash
    · rw [if_neg hhash]
      cases user with
      | none =>
          constructor
          · intro h
            cases h
          · intro ⟨_, _, _, heq, _⟩
            cases heq
      | some user =>
          dsimp only
          rw [getTokensData_eq]
          cases hsigned : a.signed with
          | false =>
              constructor
              · intro h
                cases h
              · intro ⟨h, _⟩
                cases h
          | true =>
              constructor
              · intro h
                exact ⟨rfl, session, user, rfl, not_not.1 hhash, Option.some.inj h⟩
              · intro ⟨_, _, user', heq, _, hid⟩
                cases heq
                exact congrArg some hid

/-! ### The status of a user over a step -/

/-- A valid confirmation activates its user, whatever the status was: it is how a blocked user comes
back. -/
theorem confirm_activates [Typeorm] {dto : AuthConfirmDto} {confirm : ConfirmEntity} {user : UserEntity}
    (hconfirm : db.confirm dto.hash = some (confirm, some user))
    (hvalid : a.now ≤ confirm.expiresIn) :
    statusOf ((AuthService.confirm a dto).run db).2.users user.id = some .active := by
  have hget := Database.get_of_confirm hconfirm
  let patch := AuthService.confirmPatch a dto.password
  -- the payload sets no e-mail address, so no other row can stand in its way
  obtain ⟨users, hsave⟩ : ∃ users, UsersRepository.save db.users user.id patch = .ok users :=
    UsersRepository.exists_save.2 ⟨⟨user, hget⟩, rfl, rfl⟩
  have hupdate : (db.softDeleteSessions none (some user.id) none).updateUser user.id patch =
      .ok { db.softDeleteSessions none (some user.id) none with users } := by
    have hsaved : UsersRepository.save (db.softDeleteSessions none (some user.id) none).users
        user.id patch = .ok users := hsave
    simp only [Database.updateUser, hsaved]
  rw [AuthService.run_confirm, hconfirm]
  dsimp only
  rw [if_neg (Int.not_lt.2 hvalid), hupdate]
  show statusOf users user.id = some .active
  rw [statusOf, UsersRepository.get_save hsave, hget]
  rfl

variable [Mysql] [EmailSyntax]

/-- The step issues no token to a blocked user, and unblocks a user only if it is an
administrator's update. -/
def respectsBlocked [Typeorm] (e : Entry Database (Ambient × Request) (Except Failure Response)) : Prop :=
  ∀ k, statusOf e.before.users k = some .blocked →
    tokensIssuedTo e.response ≠ some k ∧
      (statusOf (server.after e).users k = some .blocked ∨ e.request.2.isAdminUpdate = true)

/-- **The step lemma** for the status: a blocked user stays blocked, since the requests that write a
status are excluded by the condition or made by an administrator. -/
theorem blocked_of_step {request : Request} {users : UsersTable}
    (hstep : UsersStep db a request users) (hspares : sparesBlocked db a request)
    (hadmin : request.isUpdate = true → request.isAdminUpdate = true)
    (hk : statusOf db.users k = some .blocked) :
    statusOf users k = some .blocked ∨ request.isAdminUpdate = true := by
  cases hstep with
  | same => exact Or.inl hk
  | registered _ _ _ hinsert => exact Or.inl (UsersRepository.bind_get_insert hinsert hk)
  | updated => exact Or.inr (hadmin rfl)
  | deleted => exact Or.inl ((UsersRepository.bind_get_softDelete fun _ => rfl).trans hk)
  | @confirmed dto confirm user users hconfirm hvalid hsave =>
      refine Or.inl ?_
      by_cases heq : k = user.id
      · have hget := Database.get_of_confirm hconfirm
        rw [statusOf, heq, hget] at hk
        exact absurd hk (hspares confirm user hconfirm hvalid)
      · rwa [statusOf, UsersRepository.get_save_ne hsave heq]
  | changed hsave =>
      exact Or.inl ((UsersRepository.bind_get_save (fun _ => rfl) hsave).trans hk)

/-- **The step lemma** for the tokens: the two requests that issue any are a login and a refresh. -/
theorem not_issues_to_blocked [Typeorm] {request : Request} (hspares : sparesBlocked db a request)
    (hk : statusOf db.users k = some .blocked) :
    tokensIssuedTo ((handle a request).run db).1 ≠ some k := by
  intro hissued
  -- The requests that are answered without tokens are all alike.
  have hnone : ∀ {α : Type} {f : α → Response} (p : Action α),
      (∀ x, tokensIssuedTo (.ok (f x)) = none) →
        tokensIssuedTo ((f <$> p).run db).1 ≠ some k := by
    intro α f p hf
    rw [Prog.run_map]
    cases (p.run db).1 with
    | error e => simp [Except.map, tokensIssuedTo]
    | ok x => simp [Except.map, hf]
  cases request with
  | login dto =>
      rw [handle, Prog.run_map] at hissued
      obtain ⟨hsigned, hfree, user, hcheck, rfl⟩ := login_issues.1 hissued
      obtain ⟨hfound, hcompare, -⟩ := checkLogin_eq_ok.1 hcheck
      rw [statusOf, Database.get_of_userByEmail hfound] at hk
      exact hspares hsigned hfree user hfound hcompare hk
  | refresh data =>
      rw [handle, Prog.run_map] at hissued
      obtain ⟨hsigned, session, user, hsession, hhash, rfl⟩ := refresh_issues.1 hissued
      obtain ⟨-, -, -, hload⟩ := Database.session_eq_some.1 hsession
      obtain ⟨hget, hid⟩ := Database.get_of_loadUser hload
      rw [statusOf, hid, hget] at hk
      exact hspares hsigned session user hsession hhash hk
  | _ => exact hnone _ (fun _ => rfl) hissued

/-- A request that does not spare the blocked users issues a token to one or unblocks one. So the
condition leaves out nothing but what breaks the rule. -/
theorem sparesBlocked_of_respects [Typeorm] {request : Request}
    (h : respectsBlocked (server.entry db (a, request))) : sparesBlocked db a request := by
  cases request with
  | login dto =>
      -- A blocked user with the right password gets past the check, as only a pending one is
      -- refused.
      intro hsigned hfree user hfound hcompare hblocked
      have hk : statusOf db.users user.id = some .blocked := by
        rw [statusOf, Database.get_of_userByEmail hfound]
        exact hblocked
      refine (h user.id hk).1 ?_
      rw [Machine.entry_response]
      show tokensIssuedTo ((handle a (.login dto)).run db).1 = some user.id
      rw [handle, Prog.run_map]
      refine login_issues.2 ⟨hsigned, hfree, user, checkLogin_eq_ok.2 ?_, rfl⟩
      exact ⟨hfound, hcompare, .blocked, hblocked, by decide⟩
  | refresh data =>
      intro hsigned session user hsession hhash hblocked
      obtain ⟨-, -, -, hload⟩ := Database.session_eq_some.1 hsession
      obtain ⟨hget, hid⟩ := Database.get_of_loadUser hload
      have hk : statusOf db.users user.id = some .blocked := by
        rw [statusOf, hid, hget]
        exact hblocked
      refine (h user.id hk).1 ?_
      show tokensIssuedTo ((handle a (.refresh data)).run db).1 = some user.id
      rw [handle, Prog.run_map]
      exact refresh_issues.2 ⟨hsigned, session, user, hsession, hhash, rfl⟩
  | confirm dto =>
      intro confirm user hconfirm hvalid hblocked
      have hget := Database.get_of_confirm hconfirm
      have hk : statusOf db.users user.id = some .blocked := by
        rw [statusOf, hget]
        exact hblocked
      -- A confirmation writes `Active`, and is no administrator's update: it unblocks the user.
      have hactive : statusOf ((handle a (.confirm dto)).run db).2.users user.id = some .active := by
        rw [handle, Prog.run_map]
        exact confirm_activates hconfirm hvalid
      rcases (h user.id hk).2 with hstays | hadmin
      · have hcontra := hstays.symm.trans hactive
        cases hcontra
      · cases hadmin
  | _ => trivial

variable {db₀ : Database} {past : List (Entry Database (Ambient × Request) (Except Failure Response))}

/-- **Blocked users get no tokens and stay blocked** in a run whose updates are administrators'
if, and only if, every request of the run spares them. -/
theorem blocked_get_no_tokens [Typeorm] (h : server.Reach db₀ past db)
    (hadmin : ∀ e ∈ past, e.request.2.isUpdate = true → e.request.2.isAdminUpdate = true) :
    (∀ e ∈ past, respectsBlocked e) ↔
      ∀ e ∈ past, sparesBlocked e.before e.request.1 e.request.2 := by
  constructor
  · intro hrespects e he
    have hown := hrespects e he
    rw [h.eq_entry he] at hown
    exact sparesBlocked_of_respects hown
  · intro hspares e he k hk
    constructor
    · rw [h.eq_entry he]
      exact not_issues_to_blocked (hspares e he) hk
    · have hstep := users_step e.request.1 e.before e.request.2
      exact blocked_of_step hstep (hspares e he) (hadmin e he) hk

end

section

attribute [local instance] spelledKey Mysql.strict atSign Typeorm.comparing

/-- `PATCH /users`: the owner blocks the author. -/
def blocking : Ambient × Request :=
  (drawing "one" one_nonempty,
    .updateUser owner.signedIn { id := some (.str "author"), status := some (.obj [("id", .str "3")]) })

/-- The author signs in. -/
def signingIn : Ambient × Request :=
  (drawing "two" two_nonempty, .login ⟨author.email, "Secret-1"⟩)

/-- The author uses the link of a password reset. -/
def resetting : Ambient × Request :=
  (drawing "three" three_nonempty, .confirm ⟨"c1", "Secret-2"⟩)

/-- The owner blocks the author, who signs in with the right password and gets tokens, and whom
a password reset then unblocks. -/
theorem blocked_author_signs_in :
    let blocked := server.next desk blocking
    let signedIn := server.next blocked signingIn
    statusOf blocked.users author.id = some .blocked ∧
      tokensIssuedTo (server.entry blocked signingIn).response = some author.id ∧
      statusOf signedIn.users author.id = some .blocked ∧
      statusOf (server.next signedIn resetting).users author.id = some .active := by
  decide +kernel

/-- Somebody guesses at the author's password. -/
def guessing : Ambient × Request :=
  (drawing "two" two_nonempty, .login ⟨author.email, "Secret-9"⟩)

/-- Somebody presents a token of the author's phone that was exchanged long ago. -/
def replaying : Ambient × Request :=
  (drawing "three" three_nonempty, .refresh ⟨⟨"phone", phone_nonempty⟩, "h0"⟩)

/-- The owner blocks the author, and neither a wrong password nor an old token gets tokens for the
author or unblocks the author. -/
theorem blocked_author_stays_out :
    let blocked := server.next desk blocking
    statusOf blocked.users author.id = some .blocked ∧
      respectsBlocked (server.entry blocked guessing) ∧
      respectsBlocked (server.entry (server.next blocked guessing) replaying) := by
  intro blocked
  have hentries : (server.run desk [blocking, guessing, replaying]).1 =
      [server.entry (server.next blocked guessing) replaying, server.entry blocked guessing,
        server.entry desk blocking] := rfl
  have hrespects := (blocked_get_no_tokens
    (server.reach_run desk [blocking, guessing, replaying]) ?hadmin).2 ?hspares
  · rw [hentries] at hrespects
    exact ⟨by decide +kernel, hrespects _ (by simp), hrespects _ List.mem_cons_self⟩
  case hadmin =>
    decide +kernel
  case hspares =>
    rw [hentries]
    intro e he
    simp only [List.mem_cons, List.not_mem_nil, or_false] at he
    rcases he with rfl | rfl | rfl
    · -- the session of the phone has another hash than the token
      intro _ session user hsession hhash
      have hstored : ((server.next blocked guessing).session ⟨"phone", phone_nonempty⟩).map
          (fun found => found.1.hash) = some "h1" := by
        decide +kernel
      have hfound : (server.next blocked guessing).session ⟨"phone", phone_nonempty⟩ =
          some (session, some user) := hsession
      rw [hfound, Option.map_some, hhash] at hstored
      exact absurd hstored (by decide)
    · -- the password of the author is another one
      intro _ _ user huser hcompare
      have hstored : (blocked.userByEmail author.email).map
          (fun found => comparePassword "Secret-9" found.password) = some (.ok false) := by
        decide +kernel
      have hfound : blocked.userByEmail author.email = some user := huser
      have hguess : comparePassword "Secret-9" user.password = .ok true := hcompare
      rw [hfound, Option.map_some, hguess] at hstored
      exact absurd hstored (by decide)
    · trivial

end

end VetHealth
