import VetHealth.Common.Collation
import VetHealth.Common.Validation

/-!
# VetHealth.Auth.Throttling

**How many logins get through.** Before a request reaches its handler, the throttler guard counts
the requests of its tracker: `AppThrottlerGuard` tracks a request by the digest of its
`Authorization` header where that is a bearer header, and by its address otherwise. A throttler is
configured under a name, and a handler's `@Throttle` replaces the numbers of the throttlers whose
names it mentions. The module configures the throttler `api`, and the login mentions `default`, so
for the login the numbers of `api` stand.

The guard that counts is a package. `ThrottlerGuard` says of it what its documentation says of a limit:
a request is refused only after its tracker has sent more than the limit within the time to live. How
long the tracker is kept out then is left open, so the results hold for a guard that lets it in again
with every request that grows old, and for one that blocks it for a while and then counts from zero
(`ThrottlerGuard.blocking`).

A sequence of requests is a list with the newest first.
-/

namespace VetHealth

open Js Collation

/-- `createHash('sha256').update(text).digest('hex')`. -/
class Sha256 where
  hex : String → String

/-! ### Throttlers -/

/-- The numbers of a throttler: at most `limit` requests of a tracker within `ttl` milliseconds. -/
structure ThrottlerOptions where
  name : String
  ttl : Nat
  limit : Nat
  deriving DecidableEq, Repr

/-- `minutes(n)` in milliseconds. -/
def minutes (n : Nat) : Nat := n * 60 * 1000

/-- `ThrottlerModule.forRoot`: one throttler, and it has a name of its own. -/
def ThrottlerModule.throttlers : List ThrottlerOptions := [⟨"api", minutes 1, 500⟩]

/-- The numbers that stand for a handler: those that it gives under the throttler's own name. What
it gives under another name is not looked at. -/
def ThrottlerOptions.resolve (given : List ThrottlerOptions) (configured : ThrottlerOptions) :
    ThrottlerOptions :=
  (given.find? fun options => options.name = configured.name).getD configured

/-- The `@Throttle` of `AuthController.login`. -/
def AuthController.loginThrottle : List ThrottlerOptions := [⟨"default", minutes 60, 10⟩]

def AuthController.loginThrottlers : List ThrottlerOptions :=
  ThrottlerModule.throttlers.map (ThrottlerOptions.resolve AuthController.loginThrottle)

/-- What the login asks for stands nowhere: it is given under the name `default`, and no throttler
has that name. -/
theorem AuthController.loginThrottlers_eq :
    AuthController.loginThrottlers = [⟨"api", minutes 1, 500⟩] := by
  decide

/-! ### Requests -/

/-- `POST /auth/login`, sent at a time in milliseconds. `ip` is the address of the sender, and `ips`
what a trusted proxy tells of it. -/
structure LoginRequest where
  time : Nat
  authorization : Option String
  ips : List String
  ip : String
  body : List (String × Json)

namespace LoginRequest

/-- `AppThrottlerGuard.getTracker`. -/
def getTracker [Sha256] (req : LoginRequest) : String :=
  match req.authorization with
  | some header =>
      if "Bearer ".toList.isPrefixOf header.toList then Sha256.hex header
      else req.ips.head?.getD req.ip
  | none => req.ips.head?.getD req.ip

/-- `lowerCaseTransformer`. A value that is neither a text nor nullish has no lower case, and the
request fails. -/
def lowerCaseTransformer [Collation] [LowerCase] : Option Json → Option Json
  | some (.str s) => some (.str (String.ofList (trim (LowerCase.toLowerCase s).toList)))
  | _ => none

/-- The body passes the pipe: `AuthLoginDto` has its two properties and no other. -/
def accepted [Collation] [LowerCase] [EmailSyntax] (req : LoginRequest) : Bool :=
  let password := Json.get "password" (.obj req.body)
  req.body.all (fun field => field.1 = "email" || field.1 = "password") &&
    isEmail (lowerCaseTransformer (Json.get "email" (.obj req.body))) &&
      isNotEmpty password && isString password

/-- The request comes from an address within the sixty minutes from `t` on. -/
def sentWithin (ip : String) (t : Nat) (req : LoginRequest) : Bool :=
  req.ip = ip && t ≤ req.time && req.time < t + minutes 60

end LoginRequest

/-- The requests come one after the other. -/
def Chronological (past : List LoginRequest) : Prop :=
  past.Pairwise fun later earlier => earlier.time ≤ later.time

/-- At most ten of the requests come from one address within sixty minutes, wherever the sixty
minutes begin. -/
def Bounded (past : List LoginRequest) : Prop :=
  ∀ ip t, past.countP (LoginRequest.sentWithin ip t) ≤ 10

theorem Bounded.sublist {past kept : List LoginRequest} (h : Bounded past)
    (hsub : kept.Sublist past) : Bounded kept :=
  fun ip t => Nat.le_trans hsub.countP_le (h ip t)

/-! ### The guard -/

/-- What the guard sees of a request to a handler: when it comes, and who is taken for its sender.
-/
structure Hit where
  time : Nat
  tracker : String

/-- How many of the hits are of the tracker, and not longer ago than `ttl`. -/
def recentHits (ttl time : Nat) (tracker : String) (hits : List Hit) : Nat :=
  hits.countP fun hit => hit.tracker = tracker && time ≤ hit.time + ttl

/-- One of the hits was the one too many of the tracker: with it, there were more than `limit` within
`ttl`. Hits that were refused count like the others, and it does not matter how long ago it was; a
guard that goes on refusing a tracker does so after such a hit. -/
def Exceeded (options : ThrottlerOptions) (tracker : String) : List Hit → Prop
  | [] => False
  | hit :: earlier =>
      (hit.tracker = tracker ∧ options.limit ≤ recentHits options.ttl hit.time tracker earlier) ∨
        Exceeded options tracker earlier

instance Exceeded.decidable (options : ThrottlerOptions) (tracker : String) :
    DecidablePred (Exceeded options tracker)
  | [] => inferInstanceAs (Decidable False)
  | hit :: earlier =>
      have := Exceeded.decidable options tracker earlier
      inferInstanceAs (Decidable ((hit.tracker = tracker ∧
        options.limit ≤ recentHits options.ttl hit.time tracker earlier) ∨ _))

/-- `ThrottlerGuard`: whether it refuses a hit, by the throttlers that stand for the handler and by
the hits that came before. Its documentation says that `limit` requests are allowed within `ttl`
milliseconds. -/
class ThrottlerGuard where
  refuses : List ThrottlerOptions → List Hit → Hit → Bool
  refuses_only : ∀ throttlers earlier hit, refuses throttlers earlier hit = true →
    ∃ options ∈ throttlers, Exceeded options hit.tracker (hit :: earlier)

section

variable [Sha256]

/-- What the guard sees of a login. The address of the sender is not in it when there is an
`Authorization` header. -/
def LoginRequest.hit (req : LoginRequest) : Hit := ⟨req.time, req.getTracker⟩

/-- The tracker of the request has sent more than the throttler `api` allows, with the request or
before it. -/
def overrun (earlier : List LoginRequest) (req : LoginRequest) : Prop :=
  Exceeded ⟨"api", minutes 1, 500⟩ req.getTracker ((req :: earlier).map LoginRequest.hit)

instance (earlier : List LoginRequest) (req : LoginRequest) : Decidable (overrun earlier req) :=
  inferInstanceAs (Decidable (Exceeded _ _ _))

variable [ThrottlerGuard]

/-- `AppThrottlerGuard.canActivate` for the login, which is the package's own. -/
def AppThrottlerGuard.canActivate (earlier : List LoginRequest) (req : LoginRequest) : Bool :=
  !ThrottlerGuard.refuses AuthController.loginThrottlers (earlier.map LoginRequest.hit) req.hit

/-- The login's own limit is not among those that can refuse a request. What can is the limit of the
whole backend. -/
theorem AppThrottlerGuard.overrun_of_refused {earlier : List LoginRequest} {req : LoginRequest}
    (h : AppThrottlerGuard.canActivate earlier req = false) : overrun earlier req := by
  rw [AppThrottlerGuard.canActivate, Bool.not_eq_false'] at h
  obtain ⟨options, hmem, hexceeded⟩ := ThrottlerGuard.refuses_only _ _ _ h
  rw [AuthController.loginThrottlers_eq, List.mem_singleton] at hmem
  rw [hmem] at hexceeded
  exact hexceeded

variable [Collation] [LowerCase] [EmailSyntax]

/-- The requests that reach `AuthService.validateLogin`: the guard lets them through, and their body
is accepted. -/
def AuthController.reached : List LoginRequest → List LoginRequest
  | [] => []
  | req :: earlier =>
      -- the guard counts before the body is checked, refused requests too
      if AppThrottlerGuard.canActivate earlier req && req.accepted then
        req :: AuthController.reached earlier
      else AuthController.reached earlier

/-- The requests with an accepted body. -/
def wellFormed (past : List LoginRequest) : List LoginRequest := past.filter LoginRequest.accepted

omit [ThrottlerGuard] in
/-- The requests with an accepted body whose tracker has not sent too many up to then. -/
def unhindered : List LoginRequest → List LoginRequest
  | [] => []
  | req :: earlier =>
      if req.accepted ∧ ¬overrun earlier req then req :: unhindered earlier
      else unhindered earlier

/-- No tracker has ever sent too many. -/
def Calm (past : List LoginRequest) : Prop :=
  ∀ later req earlier, past = later ++ req :: earlier → ¬overrun earlier req

namespace AuthController

/-- What reaches the login is well formed: the pipe comes after the guard. -/
theorem reached_sublist_wellFormed (past : List LoginRequest) :
    (reached past).Sublist (wellFormed past) := by
  induction past with
  | nil => exact List.Sublist.refl _
  | cons req earlier ih =>
      rw [reached, wellFormed]
      cases haccepted : req.accepted with
      | false =>
          rw [Bool.and_false, if_neg Bool.false_ne_true, List.filter_cons_of_neg (by simp [haccepted])]
          exact ih
      | true =>
          rw [List.filter_cons_of_pos haccepted]
          split
          · exact ih.cons_cons req
          · exact ih.cons req

/-- What the guard has no reason to refuse reaches the login. Which guard it is does not matter
here. -/
theorem unhindered_sublist_reached (past : List LoginRequest) :
    (unhindered past).Sublist (reached past) := by
  induction past with
  | nil => exact List.Sublist.refl _
  | cons req earlier ih =>
      rw [unhindered, reached]
      by_cases h : req.accepted = true ∧ ¬overrun earlier req
      · have hpasses : AppThrottlerGuard.canActivate earlier req = true := by
          by_contra hrefused
          exact h.2 (AppThrottlerGuard.overrun_of_refused (Bool.eq_false_iff.2 hrefused))
        rw [if_pos h, hpasses, h.1]
        exact ih.cons_cons req
      · rw [if_neg h]
        split
        · exact ih.cons req
        · exact ih

omit [ThrottlerGuard] in
/-- As long as no tracker has sent too many, nothing well formed is hindered. -/
theorem unhindered_of_calm {past : List LoginRequest} (h : Calm past) :
    unhindered past = wellFormed past := by
  induction past with
  | nil => rfl
  | cons req earlier ih =>
      have hreq := h [] req earlier rfl
      have hearlier : Calm earlier := fun later r before hsplit =>
        h (req :: later) r before (by rw [hsplit, List.cons_append])
      rw [unhindered, wellFormed, ih hearlier]
      cases haccepted : req.accepted with
      | false =>
          rw [if_neg (by simp), List.filter_cons_of_neg (by simp [haccepted])]
          rfl
      | true =>
          rw [if_pos ⟨rfl, hreq⟩, List.filter_cons_of_pos haccepted]
          rfl

theorem reached_sublist_append (later earlier : List LoginRequest) :
    (reached earlier).Sublist (reached (later ++ earlier)) := by
  induction later with
  | nil => exact List.Sublist.refl _
  | cons req later ih =>
      rw [List.cons_append, reached]
      split
      · exact ih.cons req
      · exact ih

/-- Either all requests get through, or there is a first one that does not. Up to that one the bound
can be read off what was sent. -/
theorem exists_first_refused {past : List LoginRequest} (h : ∀ req ∈ past, req.accepted = true) :
    reached past = past ∨
      ∃ later req earlier, past = later ++ req :: earlier ∧ reached earlier = earlier ∧
        overrun earlier req := by
  induction past with
  | nil => exact Or.inl rfl
  | cons req earlier ih =>
      obtain hall | ⟨later, r, before, hpast, hbefore, hoverrun⟩ :=
        ih fun r hr => h r (List.mem_cons_of_mem _ hr)
      · cases hpasses : AppThrottlerGuard.canActivate earlier req with
        | true =>
            refine Or.inl ?_
            rw [reached, hpasses, h req List.mem_cons_self, hall]
            rfl
        | false =>
            exact Or.inr ⟨[], req, earlier, rfl, hall, AppThrottlerGuard.overrun_of_refused hpasses⟩
      · refine Or.inr ⟨req :: later, r, before, ?_, hbefore, hoverrun⟩
        rw [hpast, List.cons_append]

omit [ThrottlerGuard] [Collation] [LowerCase] [EmailSyntax] in
/-- A tracker that has sent too many has sent 500 within a minute before one of the requests. -/
theorem exists_busy_minute {tracker : String} {past : List LoginRequest}
    (h : Exceeded ⟨"api", minutes 1, 500⟩ tracker (past.map LoginRequest.hit)) :
    ∃ later req earlier, past = later ++ req :: earlier ∧
      500 ≤ earlier.countP fun e => req.time ≤ e.time + minutes 1 := by
  induction past with
  | nil => exact h.elim
  | cons req earlier ih =>
      rcases h with ⟨-, hmany⟩ | hearlier
      · refine ⟨[], req, earlier, rfl, Nat.le_trans hmany ?_⟩
        rw [recentHits, List.countP_map]
        exact List.countP_mono_left fun e _ he => (Bool.and_eq_true_iff.1 he).2
      · obtain ⟨later, r, before, hsplit, hmany⟩ := ih hearlier
        exact ⟨req :: later, r, before, by rw [hsplit, List.cons_append], hmany⟩

omit [Sha256] [ThrottlerGuard] [Collation] [LowerCase] [EmailSyntax] in
/-- The requests of a minute that come from one address are within the same sixty minutes. -/
theorem countP_minute_le {ip : String} {earlier : List LoginRequest} {req : LoginRequest}
    (hip : ∀ e ∈ earlier, e.ip = ip) (htime : ∀ e ∈ earlier, e.time ≤ req.time) :
    (earlier.countP fun e => req.time ≤ e.time + minutes 1) ≤
      earlier.countP (LoginRequest.sentWithin ip (req.time - minutes 1)) := by
  refine List.countP_mono_left fun e he hrecent => ?_
  have hbefore := htime e he
  have hwithin : req.time ≤ e.time + minutes 1 := of_decide_eq_true hrecent
  have hminute : minutes 1 = 60000 := rfl
  have hhour : minutes 60 = 3600000 := rfl
  simp only [LoginRequest.sentWithin, Bool.and_eq_true, decide_eq_true_eq]
  exact ⟨⟨hip e he, by omega⟩, by omega⟩

/-- When all requests are well formed and from one address, the guard refuses none before it has let
500 of them through within a minute; with the bound on what gets through it refuses none. -/
theorem reached_eq_self {past : List LoginRequest} (h : Chronological past) {ip : String}
    (hpast : ∀ req ∈ past, req.accepted = true ∧ req.ip = ip) (hbounded : Bounded (reached past)) :
    reached past = past := by
  refine (exists_first_refused fun req hreq => (hpast req hreq).1).resolve_right ?_
  rintro ⟨later, req, earlier, rfl, hearlier, hoverrun⟩
  obtain ⟨between, r, before, hsplit, hmany⟩ := exists_busy_minute hoverrun
  -- the requests of the busy minute came before the first refused one, so they reached the login
  have hsub : before.Sublist earlier := by
    rcases List.cons_eq_append_iff.1 hsplit with ⟨-, hsame⟩ | ⟨rest, -, hrest⟩
    · exact (List.cons.inj hsame).2 ▸ List.Sublist.refl _
    · rw [hrest]
      exact (List.sublist_cons_self r before).trans (List.sublist_append_right rest _)
  have hreached : earlier.Sublist (reached (later ++ req :: earlier)) := by
    have hsub := reached_sublist_append (later ++ [req]) earlier
    rwa [hearlier, List.append_assoc, List.singleton_append] at hsub
  have hfrom : ∀ e ∈ before, e.ip = ip := fun e he =>
    (hpast e (by simp [hsub.subset he])).2
  have htime : ∀ e ∈ before, e.time ≤ r.time := by
    have hordered := (List.pairwise_append.1 h).2.1
    rw [hsplit] at hordered
    exact (List.pairwise_cons.1 (List.pairwise_append.1 hordered).2.1).1
  have hcount := hbounded.sublist (hsub.trans hreached) ip (r.time - minutes 1)
  have hle := countP_minute_le hfrom htime
  omega

/-- **The bound on logins is the sender's own.** Whatever guard of the package counts the requests, at
most ten well-formed ones of an address within sixty minutes are enough for the bound, since no more
can reach the login. They are also necessary as far as the guard has no reason to refuse one: always
for the requests whose tracker has not sent more than 500 within a minute, hence for all of them when
no tracker has, and for all of them when they are all well formed and from one address. -/
theorem logins_bounded_iff {past : List LoginRequest} (h : Chronological past) :
    (Bounded (wellFormed past) → Bounded (reached past)) ∧
      (Bounded (reached past) → Bounded (unhindered past)) ∧
      (Calm past → (Bounded (reached past) ↔ Bounded (wellFormed past))) ∧
      ∀ ip, (∀ req ∈ past, req.accepted = true ∧ req.ip = ip) →
        (Bounded (reached past) ↔ Bounded past) := by
  have henough : Bounded (wellFormed past) → Bounded (reached past) :=
    fun hbounded => hbounded.sublist (reached_sublist_wellFormed past)
  have hnecessary : Bounded (reached past) → Bounded (unhindered past) :=
    fun hbounded => hbounded.sublist (unhindered_sublist_reached past)
  refine ⟨henough, hnecessary, fun hcalm => ⟨fun hbounded => ?_, henough⟩, fun ip hpast =>
    ⟨fun hbounded => ?_, fun hbounded => henough (hbounded.sublist List.filter_sublist)⟩⟩
  · rw [← unhindered_of_calm hcalm]
    exact hnecessary hbounded
  · rw [← reached_eq_self h hpast hbounded]
    exact hbounded

end AuthController

end

/-! ### A guard that blocks -/

/-- What a storage keeps of a tracker: the times of the hits that it counts, and until when the tracker
is blocked. -/
structure Throttled where
  hits : List Nat
  blockedUntil : Option Nat

namespace Throttled

variable (options : ThrottlerOptions) (tracker : String)

/-- A hit of the tracker, and whether it is refused. The hit that is too many blocks the tracker for
`ttl`; blocked hits are not counted, and the first one after that is counted as if it were the first
of all. -/
def next (time : Nat) (state : Throttled) : Throttled × Bool :=
  match state.blockedUntil with
  | some release => if release ≤ time then (⟨[time], none⟩, false) else (state, true)
  | none =>
      let hits := time :: state.hits.filter fun hit => time ≤ hit + options.ttl
      if options.limit < hits.length then (⟨hits, some (time + options.ttl)⟩, true)
      else (⟨hits, none⟩, false)

/-- What the storage keeps after the hits. They are listed with the last one first, like every run
here. -/
def after : List Hit → Throttled
  | [] => ⟨[], none⟩
  | hit :: earlier =>
      if hit.tracker = tracker then (next options hit.time (after earlier)).1 else after earlier

/-- **The invariant.** What is counted are hits of the tracker, and a tracker is only blocked after a
hit that was too many. -/
structure Accounts (state : Throttled) (hits : List Hit) : Prop where
  counted : state.hits.Sublist ((hits.filter fun hit => hit.tracker = tracker).map Hit.time)
  blocked : state.blockedUntil ≠ none → Exceeded options tracker hits

variable {options tracker} {state : Throttled} {hits : List Hit}

/-- The counted hits that are recent are recent hits: the storage may have forgotten some, and
counts none that was not sent. -/
theorem Accounts.length_le (h : Accounts options tracker state hits) (ttl time : Nat) :
    (state.hits.filter fun hit => time ≤ hit + ttl).length ≤ recentHits ttl time tracker hits := by
  have hsub := h.counted.countP_le (p := fun hit : Nat => time ≤ hit + ttl)
  rw [List.countP_map, List.countP_filter] at hsub
  rw [← List.countP_eq_length_filter]
  refine Nat.le_trans hsub (List.countP_mono_left fun hit _ hrecent => ?_)
  exact (Bool.and_comm _ _).trans hrecent

/-- A refused hit is too many, or comes after one that was. -/
theorem Accounts.exceeded (h : Accounts options tracker state hits) {hit : Hit}
    (hown : hit.tracker = tracker) (hrefused : (next options hit.time state).2 = true) :
    Exceeded options tracker (hit :: hits) := by
  cases hblocked : state.blockedUntil with
  | some release => exact Or.inr (h.blocked (by rw [hblocked]; exact Option.some_ne_none _))
  | none =>
      simp only [next, hblocked, List.length_cons] at hrefused
      split at hrefused
      · next hmany => exact Or.inl ⟨hown, Nat.le_trans (Nat.le_of_lt_succ hmany) (h.length_le _ _)⟩
      · cases hrefused

/-- **The step lemma.** A hit is counted, or it is refused; a block is only set by the hit that is
too many. -/
theorem Accounts.next (h : Accounts options tracker state hits) {hit : Hit}
    (hown : hit.tracker = tracker) :
    Accounts options tracker (Throttled.next options hit.time state).1 (hit :: hits) := by
  have hcons : ∀ {counted : List Nat}, counted.Sublist state.hits →
      (hit.time :: counted).Sublist
        (((hit :: hits).filter fun hit => hit.tracker = tracker).map Hit.time) := by
    intro counted hsub
    rw [List.filter_cons_of_pos (by simpa using hown), List.map_cons]
    exact (hsub.trans h.counted).cons_cons _
  cases hblocked : state.blockedUntil with
  | some release =>
      have hexceeded := h.blocked (by rw [hblocked]; exact Option.some_ne_none _)
      simp only [Throttled.next, hblocked]
      split
      · exact ⟨hcons (List.nil_sublist _), fun hsome => absurd rfl hsome⟩
      · refine ⟨?_, fun _ => Or.inr hexceeded⟩
        exact (List.sublist_cons_self _ _).trans (hcons (List.Sublist.refl _))
  | none =>
      have hrefused := h.exceeded hown
      simp only [Throttled.next, hblocked] at hrefused ⊢
      split
      · next hmany =>
          rw [if_pos hmany] at hrefused
          exact ⟨hcons List.filter_sublist, fun _ => hrefused rfl⟩
      · exact ⟨hcons List.filter_sublist, fun hsome => absurd rfl hsome⟩

theorem accounts_after (hits : List Hit) :
    Accounts options tracker (after options tracker hits) hits := by
  induction hits with
  | nil => exact ⟨List.Sublist.refl _, fun hsome => absurd rfl hsome⟩
  | cons hit earlier ih =>
      rw [after]
      split
      · next hown => exact ih.next hown
      · next hother =>
          refine ⟨?_, fun hsome => Or.inr (ih.blocked hsome)⟩
          rw [List.filter_cons_of_neg (by simpa using hother)]
          exact ih.counted

end Throttled

/-- A guard that blocks a tracker for the time to live and then counts from zero, as the version of
the lock file does. -/
@[reducible] def ThrottlerGuard.blocking : ThrottlerGuard where
  refuses throttlers earlier hit := throttlers.any fun options =>
    (Throttled.next options hit.time (Throttled.after options hit.tracker earlier)).2
  refuses_only throttlers earlier hit h := by
    obtain ⟨options, hmem, hrefused⟩ := List.any_eq_true.1 h
    exact ⟨options, hmem, (Throttled.accounts_after earlier).exceeded rfl hrefused⟩

/-! ### Eleven logins in a minute -/

section

/-- A digest to compute with. -/
@[reducible] def plainDigest : Sha256 := ⟨fun text => text⟩

attribute [local instance] plainDigest ThrottlerGuard.blocking Collation.ascii Collation.asciiLowerCase atSign

/-- A login without an `Authorization` header. -/
def anonymousLogin (time : Nat) : LoginRequest where
  time := time
  authorization := none
  ips := []
  ip := "10.0.0.1"
  body := [("email", .str "author@vethealth.test"), ("password", .str "Secret-1")]

/-- All of them reach the login. -/
theorem eleven_logins :
    ¬ Bounded (AuthController.reached ((List.range 11).reverse.map anonymousLogin)) := by
  intro h
  have hcount := h "10.0.0.1" 0
  revert hcount
  decide +kernel

/-- Three logins are within the bound. -/
theorem three_logins :
    Bounded (AuthController.reached ((List.range 3).reverse.map anonymousLogin)) := by
  have hordered : Chronological ((List.range 3).reverse.map anonymousLogin) := by
    unfold Chronological
    decide +kernel
  refine ((AuthController.logins_bounded_iff hordered).2.2.2 "10.0.0.1" ?_).2 ?_
  · decide +kernel
  · exact fun ip t => Nat.le_trans List.countP_le_length (by decide)

end

end VetHealth
