import VetHealth.Auth.Outsiders

/-!
# VetHealth.Auth.Provenance

**Where passwords, sessions and tokens come from.** A request reads in its first call and writes in
later ones, when other requests may have changed what was read. What it remembers was read all the
same (`lookedUp_of_reach`), so everything that is written traces back to a read that justified it: a
password to the old one or to a confirmation of the user, a confirmation to a mail or an
administrator, a session to a verified password, and tokens to a session of their user.
-/

namespace VetHealth

open Js Store Resumption Transition

/-! ### What a request remembers -/

namespace Place

variable [Scrypt] [Mysql] [EmailSyntax] [Typeorm]

omit [Mysql] [EmailSyntax] in
/-- What the place says about the state that the first call of its request found. -/
def lookedUp (a : Ambient) (db : Database) : Place → Prop
  | .loginVerified authDto user | .loginOpened authDto user _ =>
      AuthService.checkLogin authDto (db.userByEmail authDto.email) = .ok user
  | .confirmAccepted confirmDto confirm user | .confirmRevoked confirmDto confirm user
  | .confirmWritten confirmDto confirm user =>
      db.confirm confirmDto.hash = some (confirm, some user) ∧ a.now ≤ confirm.expiresIn
  | .confirmed confirmDto user => ∃ confirm,
      db.confirm confirmDto.hash = some (confirm, some user) ∧ a.now ≤ confirm.expiresIn
  | .changeVerified caller dto | .changeWritten caller dto | .passwordChanged caller dto =>
      ∃ user, AuthService.checkChange dto (db.loadUser caller.id) = .ok user
  | .forgotFound email user => db.userByEmail email = some user
  | .registerAccepted caller _ => isAdminRole caller.role = true
  | .registerCreated caller _ user => isAdminRole caller.role = true ∧ user.id = a.userId
  | .tokenIssued (.forgotPassword email) confirm _ => ∃ user,
      db.userByEmail email = some user ∧ confirm = issued a user
  | .tokenIssued (.register caller _) confirm _ => ∃ user,
      isAdminRole caller.role = true ∧ user.id = a.userId ∧ confirm = issued a user
  | .tokenIssued _ _ _ => False
  | _ => True

theorem lookedUp_start (a : Ambient) (db : Database) (request : Request) :
    (start a db request).1.lookedUp a db := by
  cases request with
  | login authDto =>
      rw [start]
      split
      · next hcheck => exact hcheck
      · trivial
  | refresh data =>
      rw [start]
      split
      · trivial
      · split <;> trivial
  | confirm confirmDto =>
      rw [start]
      rcases hconfirm : db.confirm confirmDto.hash with _ | ⟨confirm, user⟩
      · trivial
      · dsimp only
        by_cases hexpired : confirm.expiresIn < a.now
        · rw [if_pos hexpired]
          trivial
        · rw [if_neg hexpired]
          cases user with
          | none => trivial
          | some user => exact ⟨hconfirm, Int.not_lt.1 hexpired⟩
  | changePassword caller dto =>
      rw [start]
      split
      · next user hcheck => exact ⟨user, hcheck⟩
      · trivial
  | forgotPassword email =>
      rw [start]
      split
      · trivial
      · next hfound => exact hfound
  | register caller dto =>
      rw [start]
      cases hguard : rolesGuardAdmin caller with
      | false => trivial
      | true =>
          rw [Bool.not_true, if_neg Bool.false_ne_true]
          split
          · exact (rolesGuardAdmin_eq caller).symm.trans hguard
          · trivial
  | logout | getPendingUser | currentUser | updateUser | deleteUser => trivial

/-- What was read in the first call is remembered, whatever the later calls find. -/
theorem lookedUp_step {a : Ambient} {read db : Database} {place : Place}
    (hstarted : ∀ request, place ≠ .ready request) (h : place.lookedUp a read) :
    (place.step a db).1.lookedUp a read := by
  cases place with
  | ready request => exact absurd rfl (hstarted request)
  | loginVerified authDto user =>
      rw [step]
      split
      · exact h
      · trivial
  | confirmRevoked confirmDto confirm user =>
      rw [step]
      split
      · exact h
      · trivial
  | changeVerified caller dto =>
      rw [step]
      split
      · exact h
      · trivial
  | forgotFound email user =>
      rw [step]
      split
      · exact ⟨user, h, rfl⟩
      · trivial
  | registerAccepted caller dto =>
      rw [step]
      split
      · trivial
      · next hentity =>
          split
          · exact ⟨h, (AuthRegisterDto.toEntity_eq_some hentity).1⟩
          · trivial
  | registerCreated caller dto user =>
      rw [step]
      split
      · exact ⟨user, h.1, h.2, rfl⟩
      · trivial
  | confirmWritten confirmDto confirm user => exact ⟨confirm, h⟩
  | confirmAccepted | changeWritten => exact h
  | refreshMismatched | refreshMatched | confirmExpired => trivial
  | loginOpened | refreshRotated | confirmed | passwordChanged | tokenIssued | finished => exact h

/-- After a call the request has started, and no call takes it back. -/
theorem step_ne_ready {a : Ambient} {db : Database} {place : Place} (request : Request) :
    (place.step a db).1 ≠ .ready request := by
  intro hready
  by_cases hplace : ∃ first, place = .ready first
  · obtain ⟨first, rfl⟩ := hplace
    have hstart := starts a db first
    rw [step] at hready
    generalize start a db first = out at hstart hready
    cases hstart <;> cases hready
  · have hstep := Place.steps a db place
    generalize place.step a db = out at hstep hready
    cases hstep with
    | started hstart => exact hplace ⟨_, rfl⟩
    | answered => exact hplace ⟨request, hready⟩
    | _ => cases hready

end Place

section

variable {ι : Type} [DecidableEq ι] [Scrypt] [Mysql] [EmailSyntax] [Typeorm] {db₀ : Database}
  {calls : ι → Ambient × Request} {past : List (TaskEntry ι)} {N : Tasks ι}

omit [DecidableEq ι] [Scrypt] [Mysql] [EmailSyntax] [Typeorm] in
/-- The call is the first one of the request `i`, which has made none before it. It is the call that
reads. What the later calls of the request find, or what it finds when it is called again after it
was answered, justifies nothing; so every statement below of what a request has read is about this
call. -/
def FirstCall (calls : ι → Ambient × Request) (e : TaskEntry ι) (i : ι) : Prop :=
  e.request = i ∧ e.before.place i = .ready (calls i).2

omit [DecidableEq ι] [Mysql] [EmailSyntax] in
/-- The first call of the request `i` found a state in which what it remembers was so. -/
def Read (calls : ι → Ambient × Request) (past : List (TaskEntry ι)) (i : ι) (place : Place) :
    Prop :=
  ∃ e ∈ past, FirstCall calls e i ∧ place.lookedUp (calls i).1 e.before.shared

/-- **What a request remembers was read.** -/
theorem lookedUp_of_reach (h : interleaving.Reach (launch db₀ calls) past N) (i : ι) :
    N.place i = .ready (calls i).2 ∨
      (∀ request, N.place i ≠ .ready request) ∧ Read calls past i (N.place i) := by
  induction h with
  | init => exact Or.inl rfl
  | @step past N m hreach ih =>
      by_cases him : i = m
      · subst him
        have hambient := ambient_of_reach hreach i
        rw [place_next_self, hambient]
        refine Or.inr ⟨fun request => Place.step_ne_ready request, ?_⟩
        rcases ih with hready | ⟨hstarted, e, he, hfirst, hlooked⟩
        · refine ⟨interleaving.entry N i, List.mem_cons_self, ⟨rfl, hready⟩, ?_⟩
          rw [hready]
          exact Place.lookedUp_start _ _ _
        · exact ⟨e, List.mem_cons_of_mem _ he, hfirst, Place.lookedUp_step hstarted hlooked⟩
      · rw [place_next_ne N him]
        exact ih.imp_right fun ⟨hstarted, e, he, hread⟩ =>
          ⟨hstarted, e, List.mem_cons_of_mem _ he, hread⟩

/-- The same for a place that no request starts at. -/
theorem read_of_reach (h : interleaving.Reach (launch db₀ calls) past N) {i : ι} {place : Place}
    (hplace : N.place i = place) (hstarted : ∀ request, place ≠ .ready request) :
    Read calls past i place := by
  subst hplace
  rcases lookedUp_of_reach h i with hready | ⟨-, hread⟩
  · exact absurd hready (hstarted _)
  · exact hread

/-! ### Confirmations -/

omit [DecidableEq ι] [Scrypt] [Mysql] [EmailSyntax] [Typeorm] in
/-- The confirmation was stored at the start, or was issued for the user: to the address under which
the first call of the request found the user, or with the registration by an administrator. -/
def IssuedTo (db₀ : Database) (calls : ι → Ambient × Request) (past : List (TaskEntry ι))
    (confirm : ConfirmEntity) : Prop :=
  confirm ∈ db₀.confirms ∨ ∃ j, confirm.hash = (calls j).1.hash ∧
    confirm.expiresIn = (calls j).1.now + 86400000 ∧
    ((∃ email, (calls j).2 = .forgotPassword email ∧ ∃ e ∈ past, FirstCall calls e j ∧
        ∃ user, e.before.shared.userByEmail email = some user ∧ user.id = confirm.userId) ∨
      ∃ caller dto, (calls j).2 = .register caller dto ∧ isAdminRole caller.role = true ∧
        confirm.userId = (calls j).1.userId)

omit [DecidableEq ι] [Scrypt] [Mysql] [EmailSyntax] [Typeorm] in
theorem IssuedTo.mono {past past' : List (TaskEntry ι)} (hsub : ∀ e ∈ past, e ∈ past')
    {confirm : ConfirmEntity} (h : IssuedTo db₀ calls past confirm) :
    IssuedTo db₀ calls past' confirm := by
  refine h.imp_right fun ⟨j, hhash, hexpires, hfor⟩ => ⟨j, hhash, hexpires, ?_⟩
  exact hfor.imp_left fun ⟨email, hcall, e, he, hfound⟩ => ⟨email, hcall, e, hsub e he, hfound⟩

omit [DecidableEq ι] [Mysql] [EmailSyntax] in
/-- The first call of the request found a confirmation that had been issued for the user and was not
expired, or it was the user's own and gave the password that was stored. A change of the password
whose old password is the new one would meet the second part in any later call, since by then it is
stored; in the first call only the true old password does. -/
def EntitledTo (db₀ : Database) (calls : ι → Ambient × Request) (past : List (TaskEntry ι)) (i : ι)
    (k : Uuid) : Prop :=
  ∃ e ∈ past, FirstCall calls e i ∧
    ((∃ dto, (calls i).2 = .confirm dto ∧ ∃ confirm ∈ e.before.shared.confirms,
        confirm.hash = dto.hash ∧ confirm.userId = k ∧ (calls i).1.now ≤ confirm.expiresIn ∧
          IssuedTo db₀ calls past confirm) ∨
      ∃ caller dto, (calls i).2 = .changePassword caller dto ∧ caller.id = k ∧
        ∃ user, e.before.shared.loadUser k = some user ∧
          comparePassword dto.oldPassword user.password = .ok true)

omit [DecidableEq ι] [Mysql] [EmailSyntax] [Typeorm] in
theorem EntitledTo.mono {past past' : List (TaskEntry ι)} (hsub : ∀ e ∈ past, e ∈ past') {i : ι}
    {k : Uuid} (h : EntitledTo db₀ calls past i k) : EntitledTo db₀ calls past' i k := by
  obtain ⟨e, he, hfirst, hfor⟩ := h
  refine ⟨e, hsub e he, hfirst, hfor.imp_left ?_⟩
  rintro ⟨dto, hcall, confirm, hstored, hhash, huser, hvalid, hissued⟩
  exact ⟨dto, hcall, confirm, hstored, hhash, huser, hvalid, hissued.mono hsub⟩

omit [DecidableEq ι] [Mysql] [EmailSyntax] in
/-- The session was stored at the start, or a login has opened it whose first call verified the
password of its user. -/
def OpenedFor (db₀ : Database) (calls : ι → Ambient × Request) (past : List (TaskEntry ι))
    (row : SessionEntity) : Prop :=
  (∃ first, db₀.sessions.get row.id = some first ∧ first.userId = row.userId) ∨
    ∃ j authDto, (calls j).2 = .login authDto ∧ (calls j).1.rowId = row.id ∧
      ∃ e ∈ past, FirstCall calls e j ∧ ∃ user,
        e.before.shared.userByEmail authDto.email = some user ∧ user.id = row.userId ∧ comparePassword authDto.password user.password = .ok true ∧
          ∃ status, user.status = some status ∧ status ≠ .pending

/-- **Where sessions come from.** The induction is on the run; a rotated session is the one that was
opened, under another hash. -/
theorem openedFor_of_reach (h : interleaving.Reach (launch db₀ calls) past N) {row : SessionEntity}
    (hrow : N.shared.sessions.get row.id = some row) : OpenedFor db₀ calls past row := by
  induction h generalizing row with
  | init => exact Or.inl ⟨row, hrow, rfl⟩
  | @step past N m hreach ih =>
      -- A row with the same owner and id before the call is all that most calls need.
      have hbefore : ∀ {old : SessionEntity}, N.shared.sessions.get row.id = some old →
          old.userId = row.userId → OpenedFor db₀ calls (interleaving.entry N m :: past) row := by
        intro old hold howner
        have hid : old.id = row.id := (Table.get_eq_some.1 hold).2
        rcases ih (hid ▸ hold) with ⟨first, hfirst, hsame⟩ |
          ⟨j, dto, hcall, hdrawn, e, he, hi, user, hfound, huser, hvalid⟩
        · exact Or.inl ⟨first, hid ▸ hfirst, hsame.trans howner⟩
        · exact Or.inr ⟨j, dto, hcall, hdrawn.trans hid, e, List.mem_cons_of_mem _ he, hi, user,
            hfound, huser.trans howner, hvalid⟩
      have hcall := sessionsCall_step (N.at_ m).1 N.shared (N.place m)
      have hshared : (interleaving.next N m).shared = ((N.place m).step (N.at_ m).1 N.shared).2 := rfl
      rw [← hshared, ambient_of_reach hreach m] at hcall
      generalize (Place.step (calls m).1 N.shared (N.place m)).1 = place' at hcall
      generalize hplace : N.place m = place at hcall
      cases hcall with
      -- The drawn row: the place of the login remembers whose password it has verified.
      | @opened authDto user r hins =>
          have hget := (Database.insertSession_eq_ok hins).2.2.2 row.id
          rw [hrow] at hget
          split at hget
          · next hdrawn =>
              obtain rfl := Option.some.inj hget
              obtain ⟨e, he, hi, hcheck⟩ := read_of_reach hreach hplace fun _ hnone => by cases hnone
              obtain ⟨hfound, hcompare, hstatus⟩ := checkLogin_eq_ok.1 hcheck
              have hrequest := request_of_reach hreach m
              rw [hplace] at hrequest
              exact Or.inr ⟨m, authDto, hrequest.symm, hdrawn, e, List.mem_cons_of_mem _ he, hi, user,
                hfound, rfl, hcompare, hstatus⟩
          · exact hbefore hget.symm rfl
      | matched _ hsame => exact hbefore (hsame ▸ hrow) rfl
      | rotated hupdate =>
          rw [hupdate, Database.get_updateSession, Option.map_eq_some_iff] at hrow
          obtain ⟨old, hold, hedit⟩ := hrow
          refine hbefore hold ?_
          rw [← hedit]
          split <;> rfl
      | revoked hrevokes =>
          obtain ⟨⟨p, hget⟩, -⟩ := hrevokes
          rw [hget, Option.map_eq_some_iff] at hrow
          obtain ⟨old, hold, hedit⟩ := hrow
          refine hbefore hold ?_
          rw [← hedit]
          split <;> rfl

omit [DecidableEq ι] [Scrypt] [Mysql] [EmailSyntax] [Typeorm] in
/-- The session is stored, and belongs to the user. Nothing ends that. -/
def Owns (db : Database) (sessionId userId : Uuid) : Prop :=
  ∃ row, db.sessions.get sessionId = some row ∧ row.userId = userId

omit [DecidableEq ι] [Scrypt] [Mysql] [EmailSyntax] [Typeorm] in
theorem Owns.mono {db db' : Database} (h : KeepsOwners db db') {sessionId userId : Uuid}
    (howns : Owns db sessionId userId) : Owns db' sessionId userId := by
  obtain ⟨row, hrow, huser⟩ := howns
  obtain ⟨row', hrow', hsame⟩ := h sessionId row hrow
  exact ⟨row', hrow', hsame.trans huser⟩

omit [DecidableEq ι] [Scrypt] [Mysql] [EmailSyntax] [Typeorm] in
/-- **The invariant.** Tokens and the refreshes that are under way are for the owner of their
session. -/
structure TokensOwned (N : Tasks ι) : Prop where
  received : ∀ i tokens, (N.place i).received = some tokens →
    Owns N.shared tokens.token.sessionId tokens.token.id ∧
      tokens.refreshToken.sessionId = tokens.token.sessionId
  matched : ∀ i data session user, N.place i = .refreshMatched data session (some user) →
    Owns N.shared session.id user.id ∧ session.id = data.sessionId
  answered : ∀ i data tokens, (N.place i).request = .refresh data →
    (N.place i).received = some tokens → tokens.token.sessionId = data.sessionId

/-- **The step lemma.** Owners stay owners; tokens that are new are signed for the user that a place
carries. -/
theorem tokensOwned_next (h : TokensOwned N) (m : ι) : TokensOwned (interleaving.next N m) := by
  have howners : KeepsOwners N.shared (interleaving.next N m).shared :=
    fun k row hrow => Place.owner_step hrow
  have hself := place_next_self N m
  have hshared : (interleaving.next N m).shared = ((N.place m).step (N.at_ m).1 N.shared).2 := rfl
  have hrequest : ((interleaving.next N m).place m).request = (N.place m).request := by
    rw [hself, Place.request_step]
  refine ⟨fun i tokens hreceived => ?_, fun i data session user hplace => ?_,
    fun i data tokens hrefresh hreceived => ?_⟩
  · by_cases him : i = m
    · subst him
      rw [hself] at hreceived
      rcases Place.received_step hreceived with hbefore | ⟨dto, user, hplace, hsigned, hins⟩ |
        ⟨data, session, user, hplace, hsigned⟩
      · obtain ⟨howns, hsame⟩ := h.received i tokens hbefore
        exact ⟨howns.mono howners, hsame⟩
      -- A login signs for the session that it has opened with this call.
      · obtain ⟨huser, hsession, hrefresh⟩ := hsigned
        have hrow := (Database.insertSession_eq_ok hins).2.2.2 (N.at_ i).1.rowId
        rw [if_pos rfl] at hrow
        rw [huser, hsession, hrefresh]
        exact ⟨⟨_, hrow, rfl⟩, rfl⟩
      -- A refresh signs for the session that it has matched, whose owner it has loaded.
      · obtain ⟨huser, hsession, hrefresh⟩ := hsigned
        rw [huser, hsession, hrefresh]
        exact ⟨(h.matched i data session user hplace).1.mono howners, rfl⟩
    · rw [place_next_ne N him] at hreceived
      obtain ⟨howns, hsame⟩ := h.received i tokens hreceived
      exact ⟨howns.mono howners, hsame⟩
  · by_cases him : i = m
    · subst him
      have hcall := sessionsCall_step (N.at_ i).1 N.shared (N.place i)
      rw [← hself, hplace, ← hshared] at hcall
      generalize hold : N.place i = old at hcall
      cases hcall with
      | matched hsession hsame =>
          obtain ⟨hget, hid, -, hload⟩ := Database.session_eq_some.1 hsession
          rw [hsame]
          exact ⟨⟨session, hid ▸ hget, (Database.get_of_loadUser hload).2.symm⟩, hid⟩
      | revoked _ hstays =>
          rcases hstays with hstays | hstays
          · obtain ⟨howns, hid⟩ := h.matched i data session user (hold.trans hstays.symm)
            exact ⟨howns.mono howners, hid⟩
          · cases hstays
    · rw [place_next_ne N him] at hplace
      obtain ⟨howns, hid⟩ := h.matched i data session user hplace
      exact ⟨howns.mono howners, hid⟩
  · by_cases him : i = m
    · subst him
      rw [hrequest] at hrefresh
      rw [hself] at hreceived
      rcases Place.received_step hreceived with hbefore | ⟨dto, user, hplace, -, -⟩ |
        ⟨data', session, user, hplace, hsigned⟩
      · exact h.answered i data tokens hrefresh hbefore
      · rw [hplace] at hrefresh
        cases hrefresh
      · rw [hplace] at hrefresh
        obtain rfl := Request.refresh.inj hrefresh
        exact hsigned.2.1.trans (h.matched i data' session user hplace).2
    · rw [place_next_ne N him] at hrefresh hreceived
      exact h.answered i data tokens hrefresh hreceived

theorem tokensOwned_of_reach (h : interleaving.Reach (launch db₀ calls) past N) : TokensOwned N := by
  induction h with
  | init =>
      refine ⟨fun i tokens hreceived => ?_, fun i data session user hplace => ?_,
        fun i data tokens _ hreceived => ?_⟩
      · cases hreceived
      · cases hplace
      · cases hreceived
  | @step past N m _ ih => exact tokensOwned_next ih m

/-- **Every token is traced to a password**, in every interleaving: tokens that a request is answered
with are for the owner of the session that they name, and this session was stored at the start or
was opened by a login whose first call verified the password of that user. A refresh answers with tokens of the
session that it presents. -/
theorem tokens_traced (h : interleaving.Reach (launch db₀ calls) past N) {i : ι} {tokens : Tokens}
    (hreceived : (N.place i).received = some tokens) :
    (∃ row, N.shared.sessions.get tokens.token.sessionId = some row ∧
      row.userId = tokens.token.id ∧ OpenedFor db₀ calls past row) ∧
    tokens.refreshToken.sessionId = tokens.token.sessionId ∧
    ∀ data, (calls i).2 = .refresh data → tokens.token.sessionId = data.sessionId := by
  have howned := tokensOwned_of_reach h
  obtain ⟨⟨row, hrow, huser⟩, hsame⟩ := howned.received i tokens hreceived
  have hid := (Table.get_eq_some.1 hrow).2
  refine ⟨⟨row, hrow, huser, openedFor_of_reach h (hid ▸ hrow)⟩, hsame, fun data hcall => ?_⟩
  exact howned.answered i data tokens ((request_of_reach h i).trans hcall) hreceived

end

section

attribute [local instance] spelledKey Mysql.strict atSign Typeorm.comparing

/-- The tokens of the author's refresh are for the session that the author's login opened. -/
theorem author_refreshes_own_session :
    let refreshed := interleaving.run (launch desk authorsRequests) [0, 0, 1, 1]
    ∃ tokens row, (refreshed.2.place 1).received = some tokens ∧
      tokens.token.sessionId = ⟨"one", one_nonempty⟩ ∧ row.userId = tokens.token.id ∧
      OpenedFor desk authorsRequests refreshed.1 row := by
  intro refreshed
  let tokens : Tokens :=
    ⟨⟨author.id, author.role, ⟨"one", one_nonempty⟩⟩, ⟨⟨"one", one_nonempty⟩, "two"⟩, 900⟩
  have hreceived : (refreshed.2.place 1).received = some tokens := rfl
  obtain ⟨⟨row, -, howner, hopened⟩, -, hsession⟩ :=
    tokens_traced (Machine.reach_run _ _ [0, 0, 1, 1]) hreceived
  exact ⟨tokens, row, hreceived, hsession _ rfl, howner, hopened⟩

end

end VetHealth
