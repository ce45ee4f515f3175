import VetHealth.Auth.Calls

/-!
# VetHealth.Auth.SingleUse

**A refresh token under concurrency.** `refreshTokens` compares the stored hash with the
presented one in one call and writes the new hash in another, so two requests with one token
can both pass the comparison before either writes. `single_use` says that this is the only way:
if every write finds the hash that was compared still stored, at most one request with a given
token is answered with new ones, in every interleaving.

The invariant is `Spent`: a token that was used once does not carry the stored hash any more.
-/

namespace VetHealth

open Js Store Resumption Transition

namespace Place

/-- What the request is answered with, once it is. -/
def answer : Place → Option (Except Failure Response)
  | .loginOpened _ _ r => some (r.map .loggedIn)
  | .refreshRotated _ r => some (r.map .refreshed)
  | .confirmed _ _ => some (.ok (.confirmed "Email confirmed successfully"))
  | .passwordChanged _ _ => some (.ok .passwordChanged)
  | .tokenIssued _ _ r | .finished _ r => some r
  | _ => none

end Place

variable {ι : Type}

/-- The write of a refresh finds the compared hash still stored. The code does not check it; it is
the condition under which the rest holds. -/
def checksHold (e : TaskEntry ι) : Bool :=
  match e.before.place e.request with
  | .refreshMatched data _ _ =>
      (e.before.shared.sessions.get data.sessionId).map SessionEntity.hash = some data.hash
  | _ => true

/-- Two requests that present the same token and are both answered with new ones are one. -/
def UsedOnce (calls : ι → Ambient × Request) (N : Tasks ι) : Prop :=
  ∀ i j data tokens tokens', (calls i).2 = .refresh data → (calls j).2 = .refresh data →
    (N.place i).answer = some (.ok (.refreshed tokens)) →
    (N.place j).answer = some (.ok (.refreshed tokens')) → i = j

section

variable {db₀ : Database} {calls : ι → Ambient × Request} {N : Tasks ι}

/-- No two requests draw the same hash, and none draws a hash that is already stored. -/
structure FreshHashes (db₀ : Database) (calls : ι → Ambient × Request) : Prop where
  injective : ∀ i j, (calls i).1.hash = (calls j).1.hash → i = j
  unused : ∀ i, ∀ session ∈ db₀.sessions, session.hash ≠ (calls i).1.hash

/-- The hash was stored at the start, or a request has stored it. Hashes stay known when they are
replaced. -/
def Known (db₀ : Database) (calls : ι → Ambient × Request) (N : Tasks ι) (hash : String) : Prop :=
  (∃ session ∈ db₀.sessions, session.hash = hash) ∨
    ∃ i, (N.place i).stamped = true ∧ (calls i).1.hash = hash

/-- **The invariant.** Stored hashes are known, and the hash of a used token is known and no
longer stored, so nobody uses the token again. -/
structure Spent (db₀ : Database) (calls : ι → Ambient × Request) (N : Tasks ι) : Prop where
  stored : ∀ k row, N.shared.sessions.get k = some row → Known db₀ calls N row.hash
  matched : ∀ i data session user, N.place i = .refreshMatched data session user →
    session.id = data.sessionId
  presented : ∀ i data r, N.place i = .refreshRotated data r → Known db₀ calls N data.hash
  moved : ∀ i data r, N.place i = .refreshRotated data r → ∀ row,
    N.shared.sessions.get data.sessionId = some row → row.hash ≠ data.hash
  once : ∀ i j data r r', N.place i = .refreshRotated data r →
    N.place j = .refreshRotated data r' → i = j

/-! ### One call -/

/-- A request that has not stored its hash draws one that is not known: the draws are distinct, and
new. -/
theorem not_known_of_fresh (hfresh : FreshHashes db₀ calls) {m : ι}
    (hm : (N.place m).stamped = false) : ¬ Known db₀ calls N (calls m).1.hash := by
  intro hknown
  rcases hknown with ⟨session, hsession, heq⟩ | ⟨i, hi, heq⟩
  · exact hfresh.unused m session hsession heq
  · rw [hfresh.injective i m heq, hm] at hi
    cases hi

/-- Only the request `m` has moved, and it has not forgotten a stored hash. -/
structure Moved (N N' : Tasks ι) (m : ι) : Prop where
  others : ∀ j, j ≠ m → N'.place j = N.place j
  stamped : (N.place m).stamped = true → N'.place m = N.place m

variable {N' : Tasks ι} {m : ι}

theorem Moved.known (h : Moved N N' m) {hash : String} (hknown : Known db₀ calls N hash) :
    Known db₀ calls N' hash := by
  rcases hknown with hstart | ⟨i, hi, heq⟩
  · exact Or.inl hstart
  · refine Or.inr ⟨i, ?_, heq⟩
    by_cases him : i = m
    · subst him
      rwa [h.stamped hi]
    · rwa [h.others i him]

namespace Spent

/-- A new session takes an unknown hash, so that no used token becomes usable again. -/
theorem opened (h : Spent db₀ calls N) (hmoved : Moved N N' m) (hfresh : FreshHashes db₀ calls)
    {authDto : AuthLoginDto} {user : UserEntity} {r : Except Failure LoginResponse} {rowId : Uuid}
    (hplace : N.place m = .loginVerified authDto user)
    (hplace' : N'.place m = .loginOpened authDto user r)
    (hins : N.shared.insertSession ⟨rowId, user.id, (calls m).1.hash, false⟩ = .ok N'.shared) :
    Spent db₀ calls N' := by
  obtain ⟨-, -, -, hget⟩ := Database.insertSession_eq_ok hins
  have hunknown : ¬ Known db₀ calls N (calls m).1.hash :=
    not_known_of_fresh hfresh (by rw [hplace]; rfl)
  -- a request that is rotating or has rotated is not the login
  have hold : ∀ i, (∀ r', N'.place i ≠ .loginOpened authDto user r') → N'.place i = N.place i :=
    fun i hi => hmoved.others i fun him => hi r (him ▸ hplace')
  have hrotated : ∀ {i data r}, N'.place i = .refreshRotated data r →
      N.place i = .refreshRotated data r := by
    intro i data r hi
    rw [← hold i fun r' heq => by rw [hi] at heq; cases heq]
    exact hi
  constructor
  · intro k row hrow
    rw [hget] at hrow
    split at hrow
    · rw [← Option.some.inj hrow]
      exact Or.inr ⟨m, by rw [hplace']; rfl, rfl⟩
    · exact hmoved.known (h.stored k row hrow)
  · intro i data session user' hi
    rw [hold i fun r' heq => by rw [hi] at heq; cases heq] at hi
    exact h.matched i data session user' hi
  · exact fun i data r hi => hmoved.known (h.presented i data r (hrotated hi))
  · intro i data r hi row hrow
    rw [hget] at hrow
    split at hrow
    · rw [← Option.some.inj hrow]
      intro heq
      dsimp only at heq
      rw [heq] at hunknown
      exact hunknown (h.presented i data r (hrotated hi))
    · exact h.moved i data r (hrotated hi) row hrow
  · exact fun i j data r r' hi hj => h.once i j data r r' (hrotated hi) (hrotated hj)

/-- A rotation that finds the compared hash still stored replaces it by an unknown one, and no
other request has used the token. -/
theorem rotated (h : Spent db₀ calls N) (hmoved : Moved N N' m) (hfresh : FreshHashes db₀ calls)
    {data : JwtRefreshPayload} {session : SessionEntity} {user : Option UserEntity}
    {r : Except Failure Tokens} (hplace : N.place m = .refreshMatched data session user)
    (hplace' : N'.place m = .refreshRotated data r)
    (hshared : N'.shared = N.shared.updateSession session.id (calls m).1.hash)
    (hcheck : (N.shared.sessions.get data.sessionId).map SessionEntity.hash = some data.hash) :
    Spent db₀ calls N' := by
  have hid := h.matched m data session user hplace
  have hunknown : ¬ Known db₀ calls N (calls m).1.hash :=
    not_known_of_fresh hfresh (by rw [hplace]; rfl)
  obtain ⟨stored, hstored, hhash⟩ := Option.map_eq_some_iff.1 hcheck
  have hpresented : Known db₀ calls N data.hash := hhash ▸ h.stored _ stored hstored
  -- nobody has used the token: its hash would not be stored any more
  have hunused : ∀ i r', N.place i ≠ .refreshRotated data r' :=
    fun i r' hi => h.moved i data r' hi stored hstored hhash
  have hrow : ∀ k row, N'.shared.sessions.get k = some row →
      row.hash = (calls m).1.hash ∨ ∃ old, N.shared.sessions.get k = some old ∧
        old.hash = row.hash ∧ k ≠ session.id := by
    intro k row hk
    rw [hshared, Database.get_updateSession, Option.map_eq_some_iff] at hk
    obtain ⟨old, hold, rfl⟩ := hk
    by_cases hsame : old.id = session.id
    · rw [if_pos hsame]
      exact Or.inl rfl
    · rw [if_neg hsame]
      exact Or.inr ⟨old, hold, rfl, fun heq => hsame ((Table.get_eq_some.1 hold).2.trans heq)⟩
  have hother : ∀ i data' r', N'.place i = .refreshRotated data' r' → i ≠ m →
      N.place i = .refreshRotated data' r' :=
    fun i data' r' hi him => hmoved.others i him ▸ hi
  have hmine : ∀ data' r', N'.place m = .refreshRotated data' r' → data' = data := by
    intro data' r' hm
    rw [hplace'] at hm
    cases hm
    rfl
  constructor
  · intro k row hk
    rcases hrow k row hk with hnew | ⟨old, hold, hsame, -⟩
    · rw [hnew]
      exact Or.inr ⟨m, by rw [hplace']; rfl, rfl⟩
    · rw [← hsame]
      exact hmoved.known (h.stored k old hold)
  · intro i data' session' user' hi
    by_cases him : i = m
    · rw [him, hplace'] at hi
      cases hi
    · rw [hmoved.others i him] at hi
      exact h.matched i data' session' user' hi
  · intro i data' r' hi
    by_cases him : i = m
    · subst him
      rw [hmine data' r' hi]
      exact hmoved.known hpresented
    · exact hmoved.known (h.presented i data' r' (hother i data' r' hi him))
  · intro i data' r' hi row hk
    by_cases him : i = m
    · subst him
      obtain rfl := hmine data' r' hi
      rcases hrow _ row hk with hnew | ⟨-, -, -, hne⟩
      · rw [hnew]
        exact fun heq => hunknown (heq ▸ hpresented)
      · exact absurd hid.symm hne
    · have hi := hother i data' r' hi him
      rcases hrow _ row hk with hnew | ⟨old, hold, hsame, -⟩
      · rw [hnew]
        exact fun heq => hunknown (heq ▸ h.presented i data' r' hi)
      · rw [← hsame]
        exact h.moved i data' r' hi old hold
  · intro i j data' r' r'' hi hj
    by_cases him : i = m
    · by_cases hjm : j = m
      · exact him.trans hjm.symm
      · subst him
        obtain rfl := hmine data' r' hi
        exact absurd (hother j data' r'' hj hjm) (hunused j r'')
    · by_cases hjm : j = m
      · subst hjm
        obtain rfl := hmine data' r'' hj
        exact absurd (hother i data' r' hi him) (hunused i r')
      · exact h.once i j data' r' r'' (hother i data' r' hi him) (hother j data' r'' hj hjm)

/-- Neither a comparison nor a deletion changes a hash: what is stored afterwards was stored before.
-/
theorem kept (h : Spent db₀ calls N) (hmoved : Moved N N' m)
    (hplace' : N'.place m = N.place m ∨ (N'.place m).stamped = false)
    (hmatched : ∀ data session user, N'.place m = .refreshMatched data session user →
      session.id = data.sessionId)
    (hrevokes : N.shared.revokes N'.shared none) : Spent db₀ calls N' := by
  obtain ⟨⟨p, hget⟩, -⟩ := hrevokes
  have hrow : ∀ k row, N'.shared.sessions.get k = some row →
      ∃ old, N.shared.sessions.get k = some old ∧ old.hash = row.hash := by
    intro k row hk
    rw [hget, Option.map_eq_some_iff] at hk
    obtain ⟨old, hold, rfl⟩ := hk
    refine ⟨old, hold, ?_⟩
    split <;> rfl
  have hrotated : ∀ {i data r}, N'.place i = .refreshRotated data r →
      N.place i = .refreshRotated data r := by
    intro i data r hi
    by_cases him : i = m
    · subst him
      rcases hplace' with heq | hstamped
      · exact heq ▸ hi
      · rw [hi] at hstamped
        cases hstamped
    · exact hmoved.others i him ▸ hi
  constructor
  · intro k row hk
    obtain ⟨old, hold, hsame⟩ := hrow k row hk
    exact hsame ▸ hmoved.known (h.stored k old hold)
  · intro i data session user hi
    by_cases him : i = m
    · subst him
      exact hmatched data session user hi
    · exact h.matched i data session user (hmoved.others i him ▸ hi)
  · exact fun i data r hi => hmoved.known (h.presented i data r (hrotated hi))
  · intro i data r hi row hk
    obtain ⟨old, hold, hsame⟩ := hrow _ row hk
    exact hsame ▸ h.moved i data r (hrotated hi) old hold
  · exact fun i j data r r' hi hj => h.once i j data r r' (hrotated hi) (hrotated hj)

end Spent

/-! ### Runs -/

variable [DecidableEq ι] [Scrypt] [Mysql] [EmailSyntax] [Typeorm]

omit [DecidableEq ι] [Scrypt] [Mysql] [EmailSyntax] [Typeorm] in
theorem spent_launch (db₀ : Database) (calls : ι → Ambient × Request) :
    Spent db₀ calls (launch db₀ calls) := by
  have hnone : ∀ {i place}, (launch db₀ calls).place i = place → place = .ready (calls i).2 :=
    fun h => h.symm
  constructor
  · intro k row hrow
    exact Or.inl ⟨row, (Table.get_eq_some.1 hrow).1, rfl⟩
  · intro i data session user hi
    cases hnone hi
  · intro i data r hi
    cases hnone hi
  · intro i data r hi
    cases hnone hi
  · intro i j data r r' hi
    cases hnone hi

/-- **The step lemma.** The cases are those of a call to the sessions; the condition on the step is
needed for the write of a refresh only. -/
theorem spent_next (hfresh : FreshHashes db₀ calls) (h : Spent db₀ calls N)
    (hambient : (N.at_ m).1 = (calls m).1)
    (hcheck : checksHold (interleaving.entry N m) = true) :
    Spent db₀ calls (interleaving.next N m) := by
  have hself := place_next_self N m
  have hcall := sessionsCall_step (N.at_ m).1 N.shared (N.place m)
  have hmoved : Moved N (interleaving.next N m) m :=
    ⟨fun j hj => place_next_ne N hj, fun hstamped => by rw [hself, step_of_stamped hstamped]⟩
  have hshared : (interleaving.next N m).shared = ((N.place m).step (N.at_ m).1 N.shared).2 := rfl
  rw [← hself, ← hshared, hambient] at hcall
  generalize interleaving.next N m = N' at hmoved hcall
  generalize hplace : N.place m = place at hcall
  generalize hplace' : N'.place m = place' at hcall
  -- One of the four: a session is opened, a hash compared, a hash written, or sessions are deleted
  -- at most.
  cases hcall with
  | opened hins => exact h.opened hmoved hfresh hplace hplace' hins
  | @matched data session user hsession hsame =>
      refine h.kept hmoved (Or.inr (by rw [hplace']; rfl)) ?_
        (Database.revokes_of_sessions_eq (by rw [hsame]))
      intro data' session' user' hm
      rw [hplace'] at hm
      cases hm
      exact (Database.session_eq_some.1 hsession).2.1
  | rotated hupdate =>
      exact h.rotated hmoved hfresh hplace hplace' hupdate (by simpa [checksHold, hplace] using hcheck)
  | revoked hrevokes huses =>
      refine h.kept hmoved ?_ ?_ hrevokes
      · rw [hplace, hplace']
        refine huses.imp_right fun hfalse => ?_
        cases hstamped : place'.stamped with
        | false => rfl
        | true =>
            rw [Place.usesSession_of_stamped hstamped] at hfalse
            cases hfalse
      · intro data session user hm
        rcases huses with heq | hfalse
        · exact h.matched m data session user (by rw [hplace, ← heq, ← hplace', hm])
        · rw [hplace'] at hm
          rw [hm] at hfalse
          cases hfalse

variable {past : List (TaskEntry ι)}

theorem spent_of_reach (hfresh : FreshHashes db₀ calls)
    (h : interleaving.Reach (launch db₀ calls) past N) (hchecks : ∀ e ∈ past, checksHold e = true) :
    Spent db₀ calls N := by
  refine h.invariant (P := fun _ N => Spent db₀ calls N) (spent_launch db₀ calls) ?_
    (Machine.along_of_forall hchecks)
  intro past N m hreach hspent hcheck
  exact spent_next hfresh hspent (ambient_of_reach hreach m) hcheck

omit [DecidableEq ι] [Scrypt] [Mysql] [EmailSyntax] [Typeorm] in
/-- A place of a refresh that is answered with a success is the one after the write. So two
successes are two writes. -/
def AnsweredByWrite (place : Place) : Prop :=
  ∀ data response, place.request = .refresh data → place.answer = some (.ok response) →
    ∃ r, place = .refreshRotated data r

omit [DecidableEq ι] in
theorem answeredByWrite_step (a : Ambient) (db : Database) (place : Place)
    (h : AnsweredByWrite place) : AnsweredByWrite (place.step a db).1 := by
  intro data response hrequest hanswer
  rw [Place.request_step] at hrequest
  cases place with
  | ready request =>
      obtain rfl : request = .refresh data := hrequest
      rw [Place.step, Place.start] at hanswer
      split at hanswer
      · cases hanswer
      · split at hanswer
        · cases hanswer
        · cases hanswer
  | refreshMismatched data' session => cases hanswer
  | refreshMatched data' session user =>
      cases hrequest
      exact ⟨_, rfl⟩
  | refreshRotated | tokenIssued | finished => exact h data response hrequest hanswer
  | _ => cases hrequest

/-- **A refresh token is single-use under concurrency**, in every interleaving in which the
write of a refresh finds the compared hash still stored. -/
theorem single_use (hfresh : FreshHashes db₀ calls)
    (h : interleaving.Reach (launch db₀ calls) past N)
    (hchecks : ∀ e ∈ past, checksHold e = true) : UsedOnce calls N := by
  intro i j data tokens tokens' hi hj hanswer hanswer'
  have hwrite : ∀ k, AnsweredByWrite (N.place k) := fun k =>
    Points.at_of_step (P := fun p => AnsweredByWrite p.2)
      (fun p db hp => answeredByWrite_step p.1 db p.2 hp) h (fun _ _ _ hnone => by cases hnone)
  obtain ⟨r, hri⟩ := hwrite i data _ ((request_of_reach h i).trans hi) hanswer
  obtain ⟨r', hrj⟩ := hwrite j data _ ((request_of_reach h j).trans hj) hanswer'
  exact (spent_of_reach hfresh h hchecks).once i j data r r' hri hrj

end

section

attribute [local instance] spelledKey Mysql.strict atSign Typeorm.comparing

/-- Two requests with the token of the author's phone. -/
def refreshingTwice (first : Bool) : Ambient × Request :=
  (if first then drawing "one" one_nonempty else drawing "two" two_nonempty,
    .refresh ⟨⟨"phone", phone_nonempty⟩, "h1"⟩)

theorem refreshingTwice_fresh : FreshHashes desk refreshingTwice := by
  constructor
  · decide
  · intro i session hsession
    have hall : ∀ session ∈ desk.sessions.rows, ∀ i, session.hash ≠ (refreshingTwice i).1.hash := by
      decide
    exact hall session hsession i

/-- Both requests compare the hash before either writes, and both are answered with tokens. -/
theorem phone_refreshes_twice :
    FreshHashes desk refreshingTwice ∧
      ¬ UsedOnce refreshingTwice
        (interleaving.run (launch desk refreshingTwice) [true, false, true, false]).2 :=
  ⟨refreshingTwice_fresh,
    fun h => absurd (h true false _ _ _ rfl rfl rfl rfl) (by decide)⟩

/-- One after the other, only the first is. -/
theorem phone_refreshes_once :
    UsedOnce refreshingTwice
      (interleaving.run (launch desk refreshingTwice) [true, true, false, false]).2 :=
  single_use refreshingTwice_fresh (Machine.reach_run _ _ _) (by decide +kernel)

end

end VetHealth
