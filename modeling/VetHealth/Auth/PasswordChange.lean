import VetHealth.Auth.Calls

/-!
# VetHealth.Auth.PasswordChange

**What a password change leaves of the sessions.** There are two ways in which a session of the old
password survives.

A login verifies the password in one call and opens the session in another; `changePassword` writes
the password and then revokes sessions, and `confirm` revokes them before it writes. A session that a
login opens after the revocation, with a password verified before the write, survives.

`confirm` asks for the deletion of the sessions of a user with an `undefined` id among the criteria.
The ORM of the lock file compares the id with `NULL`, so the deletion reaches no row, and every
session that was live before the reset is live after it.

`old_password_shut_out` says that nothing else does: if every login that opens a session after a
request has revoked the user's sessions has verified the password after that request wrote it, and no
confirmation comes to a user with live sessions unless the ORM ignores the undefined id, then all that
is left of a completed change are the spared session and sessions whose login verified the new
password.
-/

namespace VetHealth

open Js Store Resumption Transition

/-- The user whose password the request has changed, and the session that it spared. -/
def Place.completed : Place → Option (Uuid × Option Uuid)
  | .confirmed _ user => some (user.id, none)
  | .passwordChanged caller _ => some (caller.id, some caller.sessionId)
  | _ => none

theorem Place.hasRevoked_of_completed {place : Place} {u : Uuid} {kept : Option Uuid}
    (h : place.completed = some (u, kept)) : place.hasRevoked = some (u, kept) := by
  cases place with
  | confirmed | passwordChanged => exact h
  | _ => cases h

variable {ι : Type}

section

variable [Scrypt] [Typeorm]

omit [Typeorm] in
/-- The call is the lookup with which the login `j` verified the password of `user`. The session is
opened later, with what the lookup has found. -/
def verifies (e : TaskEntry ι) (j : ι) (authDto : AuthLoginDto) (user : UserEntity) : Prop :=
  e.request = j ∧ e.before.place j = .ready (.login authDto) ∧
    AuthService.checkLogin authDto (e.before.shared.userByEmail authDto.email) = .ok user

/-- The login verified the password after the request `i` had written it. What it compared with was
then the new password, or a later one. -/
def sawWrite (past : List (TaskEntry ι)) (j i : ι) (authDto : AuthLoginDto) (user : UserEntity) :
    Prop :=
  ∃ e ∈ past, verifies e j authDto user ∧
    ∃ password, (e.before.place i).hasWritten = some (user.id, password)

/-- A login opens a session only if it has seen what every request has written that has revoked
the sessions of the user. -/
def opensInTime (past : List (TaskEntry ι)) (e : TaskEntry ι) : Prop :=
  ∀ authDto user, e.before.place e.request = .loginVerified authDto user →
    e.before.shared.sessions.get (e.before.at_ e.request).1.rowId = none →
      ∀ i kept, (e.before.place i).hasRevoked = some (user.id, kept) →
        sawWrite past e.request i authDto user

/-- **The condition on a step.** A login opens its session in time, and a confirmation that revokes
sessions misses none. The first part is about the order of the calls, the second about what the
revocation reaches. -/
def leavesNone (past : List (TaskEntry ι)) (e : TaskEntry ι) : Prop :=
  opensInTime past e ∧ (e.before.place e.request).revokesAll e.before.shared

/-- The request `k` has written the user's password when `i` had already written it. The order of
the two writes is what counts, not that of the requests. -/
def wroteAfter (past : List (TaskEntry ι)) (k i : ι) (u : Uuid) : Prop :=
  ∃ e ∈ past, e.request = k ∧ (e.before.place k).hasWritten = none ∧
    ∃ password, (e.before.place i).hasWritten = some (u, password)

/-- The login verified a password that `i`, or a request that wrote after `i`, had stored. -/
def VerifiedNew (calls : ι → Ambient × Request) (past : List (TaskEntry ι)) (j i : ι)
    (authDto : AuthLoginDto) (user : UserEntity) : Prop :=
  ∃ e ∈ past, verifies e j authDto user ∧
    ∃ k password, (e.before.place k).hasWritten = some (user.id, password) ∧
      user.password = some (storedPassword (calls k).1 password) ∧
      (k = i ∨ wroteAfter past k i user.id)

/-- **The old password is shut out**: when a request has completed a change of a user's password,
every live session of the user but the spared one was opened by a login that verified the new
password. -/
def ShutsOut (calls : ι → Ambient × Request) (past : List (TaskEntry ι)) (N : Tasks ι) : Prop :=
  ∀ i u kept, (N.place i).completed = some (u, kept) →
    ∀ session, N.shared.live session → session.userId = u → kept ≠ some session.id →
      ∃ j authDto user r, N.place j = .loginOpened authDto user r ∧
        (calls j).1.rowId = session.id ∧ user.id = u ∧ VerifiedNew calls past j i authDto user

end

section

variable [DecidableEq ι] [Scrypt] [Mysql] [EmailSyntax] [Typeorm] {db₀ : Database}
  {calls : ι → Ambient × Request} {past : List (TaskEntry ι)} {N : Tasks ι} {m : ι}

/-! ### Sessions -/

/-- **The invariant.** Once a request has revoked a user's sessions, the live ones were opened by
logins that have seen its write. It says more than `ShutsOut` asks for, which is about completed
changes only: `confirm` revokes before it writes, and what is opened in between must be kept track
of. -/
def Revoked (calls : ι → Ambient × Request) (past : List (TaskEntry ι)) (N : Tasks ι) : Prop :=
  ∀ i u kept, (N.place i).hasRevoked = some (u, kept) →
    ∀ session, N.shared.live session → session.userId = u → kept ≠ some session.id →
      ∃ j authDto user r, N.place j = .loginOpened authDto user r ∧
        (calls j).1.rowId = session.id ∧ user.id = u ∧ sawWrite past j i authDto user

omit [DecidableEq ι] [Mysql] [EmailSyntax] [Typeorm] in
theorem sawWrite.mono {past past' : List (TaskEntry ι)} {j i : ι} {authDto : AuthLoginDto}
    {user : UserEntity} (hsub : ∀ e ∈ past, e ∈ past') (h : sawWrite past j i authDto user) :
    sawWrite past' j i authDto user := by
  obtain ⟨e, he, hverifies, hwritten⟩ := h
  exact ⟨e, hsub e he, hverifies, hwritten⟩

/-- **The step lemma** for the sessions: the condition is asked of the one call that opens a
session, and of the one that deletes by criteria. -/
theorem revoked_next (h : Revoked calls past N) (hambient : (N.at_ m).1 = (calls m).1)
    (htime : leavesNone past (interleaving.entry N m)) :
    Revoked calls (interleaving.entry N m :: past) (interleaving.next N m) := by
  intro i u kept hi session hlive huser hspared
  have hcall := sessionsCall_step (N.at_ m).1 N.shared (N.place m)
  have hself := place_next_self N m
  -- a request that gets to have revoked the sessions in this call leaves none alive
  have hbefore : (N.place i).hasRevoked = some (u, kept) := by
    by_cases him : i = m
    · subst him
      rw [hself] at hi
      rcases live_of_hasRevoked htime.2 hi with hbefore | hnone
      · exact hbefore
      · exact absurd (hnone session hlive huser) hspared
    · rwa [place_next_ne N him] at hi
  rcases hcall.live hlive with ⟨old, hold, hid, howner⟩ | hopened
  · obtain ⟨j, authDto, user, r, hj, hrow, hu, hsaw⟩ := h i u kept hbefore old hold
      (howner.trans huser) (by rw [hid]; exact hspared)
    refine ⟨j, authDto, user, r, ?_, hrow.trans hid, hu,
      hsaw.mono fun e he => List.mem_cons_of_mem _ he⟩
    by_cases hjm : j = m
    · subst hjm
      rw [hself, hj]
      rfl
    · rw [place_next_ne N hjm, hj]
  · obtain ⟨authDto, user, r, hplace, hplace', hfree, hid, howner⟩ := hopened
    have hu : user.id = u := howner.symm.trans huser
    refine ⟨m, authDto, user, r, by rw [hself, hplace'], by rw [hid, hambient], hu, ?_⟩
    exact (htime.1 authDto user hplace hfree i kept (by rw [hu]; exact hbefore)).mono
      fun e he => List.mem_cons_of_mem _ he

/-! ### Passwords -/

/-- **The invariant.** When a request has written a user's password, the stored one was written
by it or by a request that wrote after it. -/
def Rewritten (calls : ι → Ambient × Request) (past : List (TaskEntry ι)) (N : Tasks ι) : Prop :=
  ∀ i u password, (N.place i).hasWritten = some (u, password) →
    ∃ k latest, (N.place k).hasWritten = some (u, latest) ∧
      passwordOf N.shared.users u = some (storedPassword (calls k).1 latest) ∧
      (k = i ∨ wroteAfter past k i u)

omit [DecidableEq ι] [Scrypt] [Mysql] [EmailSyntax] [Typeorm] in
theorem wroteAfter.mono {past past' : List (TaskEntry ι)} {k i : ι} {u : Uuid}
    (hsub : ∀ e ∈ past, e ∈ past') (h : wroteAfter past k i u) : wroteAfter past' k i u := by
  obtain ⟨e, he, hwrites⟩ := h
  exact ⟨e, hsub e he, hwrites⟩

/-- **The step lemma** for the passwords: a write makes its request the last writer, and the former
ones wrote before it. -/
theorem rewritten_next (h : Rewritten calls past N) (hambient : (N.at_ m).1 = (calls m).1) :
    Rewritten calls (interleaving.entry N m :: past) (interleaving.next N m) := by
  have hcall := passwordsCall_step (N.at_ m).1 N.shared (N.place m)
  have hothers : ∀ j, j ≠ m → (interleaving.next N m).place j = N.place j :=
    fun j hj => place_next_ne N hj
  have hshared : (interleaving.next N m).shared = ((N.place m).step (N.at_ m).1 N.shared).2 := rfl
  rw [← place_next_self, ← hshared, hambient] at hcall
  have holder : ∀ {k i u}, wroteAfter past k i u →
      wroteAfter (interleaving.entry N m :: past) k i u :=
    fun hwrote => hwrote.mono fun e he => List.mem_cons_of_mem _ he
  intro i u password hi
  cases hcall with
  | @written u' latest hbefore hafter hstored hrows =>
      -- the call writes the password of `u'`: it is now the latest write for that user
      by_cases hu : u = u'
      · subst hu
        refine ⟨m, latest, hafter, hstored, ?_⟩
        by_cases him : i = m
        · exact Or.inl him.symm
        · rw [hothers i him] at hi
          exact Or.inr ⟨_, List.mem_cons_self, rfl, hbefore, password, hi⟩
      · have him : i ≠ m := by
          intro him
          rw [him, hafter] at hi
          exact hu (Prod.mk.inj (Option.some.inj hi)).1.symm
        rw [hothers i him] at hi
        obtain ⟨k, latest', hk, hpassword, hlatest⟩ := h i u password hi
        have hkm : k ≠ m := by
          intro hkm
          rw [hkm, hbefore] at hk
          cases hk
        refine ⟨k, latest', by rw [hothers k hkm, hk], ?_, hlatest.imp_right holder⟩
        rw [passwordOf, hrows u hu]
        exact hpassword
  | kept hpasswords hwritten =>
      have hsame : ∀ j, ((interleaving.next N m).place j).hasWritten = (N.place j).hasWritten := by
        intro j
        by_cases hjm : j = m
        · rw [hjm, hwritten]
        · rw [hothers j hjm]
      rw [hsame i] at hi
      obtain ⟨k, latest, hk, hpassword, hlatest⟩ := h i u password hi
      exact ⟨k, latest, (hsame k).trans hk, hpasswords u _ hpassword, hlatest.imp_right holder⟩

/-! ### Runs -/

theorem revoked_of_reach (h : interleaving.Reach (launch db₀ calls) past N)
    (htime : Machine.Along leavesNone past) : Revoked calls past N := by
  refine h.invariant (P := Revoked calls) ?_ ?_ htime
  · intro i u kept hi
    cases hi
  · intro past N m hreach hrevoked htime
    exact revoked_next hrevoked (ambient_of_reach hreach m) htime

theorem rewritten_of_reach (h : interleaving.Reach (launch db₀ calls) past N) :
    Rewritten calls past N := by
  refine h.invariant (P := Rewritten calls) (C := fun _ _ => True) ?_ ?_
    (Machine.along_of_forall fun _ _ => trivial)
  · intro i u password hi
    cases hi
  · intro past N m hreach hrewritten _
    exact rewritten_next hrewritten (ambient_of_reach hreach m)

/-- What a login sees of a write is the new password, or that of a request which has written since.
-/
theorem verifiedNew_of_sawWrite (h : interleaving.Reach (launch db₀ calls) past N) {j i : ι}
    {authDto : AuthLoginDto} {user : UserEntity} (hsaw : sawWrite past j i authDto user) :
    VerifiedNew calls past j i authDto user := by
  obtain ⟨e, he, hverifies, password, hwritten⟩ := hsaw
  obtain ⟨earlier, hreach, hsub⟩ := h.before he
  obtain ⟨k, latest, hk, hpassword, hlatest⟩ :=
    rewritten_of_reach hreach i user.id password hwritten
  have hfound := (checkLogin_eq_ok.1 hverifies.2.2).1
  rw [passwordOf, Database.get_of_userByEmail hfound, Option.bind_some] at hpassword
  exact ⟨e, he, hverifies, k, latest, hk, hpassword, hlatest.imp_right fun h => h.mono hsub⟩

/-- **A password change shuts out the old password**, in every interleaving in which a login
opens a session only after it has seen what the requests wrote that have revoked the user's
sessions, and in which no confirmation comes to revoke live sessions that the ORM does not reach. -/
theorem old_password_shut_out (h : interleaving.Reach (launch db₀ calls) past N)
    (htime : Machine.Along leavesNone past) : ShutsOut calls past N := by
  intro i u kept hi session hlive huser hspared
  obtain ⟨j, authDto, user, r, hj, hrow, hu, hsaw⟩ :=
    revoked_of_reach h htime i u kept (Place.hasRevoked_of_completed hi) session hlive huser hspared
  exact ⟨j, authDto, user, r, hj, hrow, hu, verifiedNew_of_sawWrite h hsaw⟩

end

/-! ### The author changes the password -/

/-- The request has made a call. What it has read is then settled. -/
def Place.started : Place → Bool
  | .ready _ => false
  | _ => true

/-- The session that the request is about to open. -/
def Place.opensNext : Place → Option (AuthLoginDto × UserEntity)
  | .loginVerified authDto user => some (authDto, user)
  | _ => none

/-- A login whose lookup precedes every write has verified no new password. The counterexamples are
of this kind. -/
theorem not_verifiedNew [Scrypt] {calls : ι → Ambient × Request} {past : List (TaskEntry ι)}
    (h : ∀ e ∈ past, (e.before.place e.request).started = true ∨
      ∀ k, (e.before.place k).hasWritten = none) {j i : ι} {authDto : AuthLoginDto}
    {user : UserEntity} : ¬ VerifiedNew calls past j i authDto user := by
  intro ⟨e, he, ⟨hrequest, hplace, _⟩, k, password, hwritten, _⟩
  rcases h e he with hstarted | hnone
  · rw [hrequest, hplace] at hstarted
    cases hstarted
  · rw [hnone k] at hwritten
    cases hwritten

/-- Calls that open no session, while there is none, leave none. -/
theorem along_of_no_sessions [Scrypt] [Typeorm] {past : List (TaskEntry ι)}
    (h : ∀ e ∈ past, (e.before.place e.request).opensNext = none ∧
      e.before.shared.sessions.rows = []) :
    Machine.Along leavesNone past := by
  induction past with
  | nil => trivial
  | cons e past ih =>
      obtain ⟨hopens, hrows⟩ := h e List.mem_cons_self
      refine ⟨⟨fun authDto user hplace => ?_, ?_⟩, ih fun e' he' => h e' (List.mem_cons_of_mem _ he')⟩
      · rw [hplace] at hopens
        cases hopens
      · cases e.before.place e.request with
        | confirmAccepted =>
            refine Or.inr fun session hlive => ?_
            rw [Database.live, Table.mem_def, hrows] at hlive
            cases hlive.1
        | _ => trivial

section

attribute [local instance] spelledKey Mysql.strict atSign Typeorm.comparing

/-- Logins with the old and with the new password, a reset, and a change from the phone. -/
def changing : Fin 4 → Ambient × Request
  | 0 => (drawing "old" (by decide), .login ⟨author.email, "Secret-1"⟩)
  | 1 => (drawing "new" new_nonempty, .login ⟨author.email, "Secret-2"⟩)
  | 2 => (drawing "reset" reset_nonempty, .confirm ⟨"c1", "Secret-2"⟩)
  | 3 => (drawing "change" change_nonempty,
      .changePassword ⟨author.id, author.role, ⟨"phone", phone_nonempty⟩⟩ ⟨"Secret-2", "Secret-1"⟩)

/-- The session that the login with the old password opens. -/
def oldSession : SessionEntity := ⟨⟨"old", by decide⟩, author.id, "old", false⟩

/-- A reset leaves the sessions that it finds. The old password opens a session while a reset is
about to write the new one, and after a change whose revocation the login has missed. -/
theorem old_password_opens :
    let alone := interleaving.run (launch desk changing) [2, 2, 2, 2]
    let reset := interleaving.run (launch desk changing) [2, 2, 0, 0, 2, 2]
    let changed := interleaving.run (launch desk changing) [0, 3, 3, 3, 0]
    ¬ ShutsOut changing alone.1 alone.2 ∧ ¬ ShutsOut changing reset.1 reset.2 ∧
      ¬ ShutsOut changing changed.1 changed.2 := by
  intro alone reset changed
  -- All lookups come before the writes, which is what makes the three runs counterexamples.
  have halone : ∀ e ∈ alone.1, (e.before.place e.request).started = true ∨
      ∀ k, (e.before.place k).hasWritten = none := by
    decide +kernel
  have hreset : ∀ e ∈ reset.1, (e.before.place e.request).started = true ∨
      ∀ k, (e.before.place k).hasWritten = none := by
    decide +kernel
  have hchanged : ∀ e ∈ changed.1, (e.before.place e.request).started = true ∨
      ∀ k, (e.before.place k).hasWritten = none := by
    decide +kernel
  refine ⟨fun h => ?_, fun h => ?_, fun h => ?_⟩
  -- The phone's session is from before the run.
  · have hlive : alone.2.shared.live ⟨⟨"phone", phone_nonempty⟩, author.id, "h1", false⟩ :=
      ⟨Table.mem_def.2 (by decide +kernel), rfl⟩
    obtain ⟨j, authDto, user, r, -, -, -, hnew⟩ := h 2 author.id none rfl _ hlive rfl (by decide)
    exact not_verifiedNew halone hnew
  · have hlive : reset.2.shared.live oldSession := ⟨Table.mem_def.2 (by decide +kernel), rfl⟩
    obtain ⟨j, authDto, user, r, -, -, -, hnew⟩ :=
      h 2 author.id none rfl oldSession hlive rfl (by decide)
    exact not_verifiedNew hreset hnew
  · have hlive : changed.2.shared.live oldSession := ⟨Table.mem_def.2 (by decide +kernel), rfl⟩
    obtain ⟨j, authDto, user, r, -, -, -, hnew⟩ :=
      h 3 author.id (some ⟨"phone", phone_nonempty⟩) rfl oldSession hlive rfl (by decide)
    exact not_verifiedNew hchanged hnew

/-- `desk`, with nobody logged in. -/
def quietDesk : Database := { desk with sessions := .empty }

/-- The author's row after the reset. -/
def reauthored : UserEntity :=
  { author with password := some (hashPassword "Secret-2" noSalt) }

/-- A login after the reset has seen the new password. -/
theorem new_password_opens :
    let reset := interleaving.run (launch quietDesk changing) [2, 2, 2, 2]
    let verified := interleaving.next reset.2 1
    ShutsOut changing (interleaving.entry verified 1 :: interleaving.entry reset.2 1 :: reset.1)
      (interleaving.next verified 1) := by
  intro reset verified
  -- The run up to the lookup is evaluated: the row that is found, what is compared, and where the
  -- login is then.
  have hfound : reset.2.shared.userByEmail author.email = some reauthored := by
    decide +kernel
  have hcompare : comparePassword "Secret-2" reauthored.password = .ok true := by
    rw [reauthored, comparePassword_hashPassword, decide_eq_true rfl]
  have hverifies : verifies (interleaving.entry reset.2 1) 1 ⟨author.email, "Secret-2"⟩
      reauthored :=
    ⟨rfl, rfl, checkLogin_eq_ok.2 ⟨hfound, hcompare, .active, rfl, by decide⟩⟩
  have hsaw : sawWrite (interleaving.entry reset.2 1 :: reset.1) 1 2 ⟨author.email, "Secret-2"⟩
      reauthored :=
    ⟨_, List.mem_cons_self, hverifies, "Secret-2", rfl⟩
  have hopens : (verified.place 1).opensNext =
      some (⟨author.email, "Secret-2"⟩, reauthored) := by
    decide +kernel
  have hplace : verified.place 1 = .loginVerified ⟨author.email, "Secret-2"⟩ reauthored := by
    cases hverified : verified.place 1 with
    | loginVerified authDto user =>
        rw [hverified] at hopens
        obtain ⟨rfl, rfl⟩ := Prod.mk.inj (Option.some.inj hopens)
        rfl
    | _ =>
        rw [hverified] at hopens
        cases hopens
  -- Nobody but the reset has revoked anything, so that the condition asks about its write alone.
  have hwriter : ∀ i, (verified.place i).hasRevoked.isSome = true → i = 2 := by
    decide +kernel
  have htime : leavesNone (interleaving.entry reset.2 1 :: reset.1)
      (interleaving.entry verified 1) := by
    constructor
    · intro authDto user hlogin _ i kept hi
      obtain ⟨rfl, rfl⟩ := Place.loginVerified.inj (hplace.symm.trans hlogin)
      have hi' : (verified.place i).hasRevoked = some (reauthored.id, kept) := hi
      obtain rfl := hwriter i (by rw [hi']; rfl)
      exact hsaw
    · show (verified.place 1).revokesAll _
      rw [hplace]
      trivial
  exact old_password_shut_out (.step 1 (.step 1 (Machine.reach_run _ _ _)))
    ⟨htime, along_of_no_sessions
      (List.forall_mem_cons.2 ⟨by decide +kernel, by decide +kernel⟩)⟩

end

end VetHealth
