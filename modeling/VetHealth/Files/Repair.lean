import VetHealth.Files.ContentTypes
import VetHealth.Files.Listing

/-!
# VetHealth.Files.Repair

**A whole run of the script**, from the listing of the bucket to the report. What an object is counted
as depends on the object alone (`verdictOf`), unless a request for it fails (`inspect_spec`); a run
visits a key once, so the report is the tally of what the objects were when it began
(`main_report`).

An object that is rewritten is one whose type was found to be wrong, and is right afterwards
(`verdictOf_repaired`). So a run that fails nowhere leaves nothing to be rewritten, and whatever fails,
the counters add up and the bytes stay.
-/

namespace VetHealth

open Js Cursor

namespace FixR2ContentTypes

/-- The part of `main` that talks to the bucket: the listing, and the loop over the keys. `none`
when the listing has more pages than are read. -/
def script (execute : Bool) (send : ListObjectsV2Command → Except String ListObjectsV2Response)
    (keyPrefix : String) (limit : Limit) (pages : Nat) (fault : List Char → Option Fault)
    (bucket : Bucket) : Option (Except String Stats × Bucket) :=
  (listAllObjects send keyPrefix limit pages).map fun listed =>
    match listed with
    | .error message => (.error message, bucket)
    | .ok keys =>
        let (stats, bucket) := main execute (keys.map fun key => (key, fault key)) bucket
        (.ok stats, bucket)

/-- The listing of a bucket for a prefix: each object below it once, with its size, and nothing
else. -/
structure IsListing (bucket : Bucket) (keyPrefix : String) (objects : List ListedObject) : Prop where
  nodup : (objects.map ListedObject.key).Nodup
  mem_iff : ∀ object, object ∈ objects ↔ keyPrefix.toList <+: object.key ∧
    ∃ stored, bucket object.key = some stored ∧ object.size = stored.body.length

/-- The bytes decide what is listed. Rewriting a type leaves the listing as it is, so that a second
run sees the same keys. -/
theorem IsListing.congr {bucket bucket' : Bucket} {keyPrefix : String} {objects : List ListedObject}
    (h : IsListing bucket keyPrefix objects)
    (hbody : ∀ key, (bucket' key).map BucketObject.body = (bucket key).map BucketObject.body) :
    IsListing bucket' keyPrefix objects := by
  have hstored : ∀ (bucket : Bucket) (object : ListedObject),
      (∃ stored, bucket object.key = some stored ∧ object.size = stored.body.length) ↔
        ((bucket object.key).map BucketObject.body).map List.length = some object.size := by
    intro bucket object
    simp [eq_comm]
  refine ⟨h.nodup, fun object => ?_⟩
  rw [h.mem_iff object, hstored, hstored, hbody]

/-! ### One object -/

/-- What an object is counted as when no request for it fails. -/
def verdictOf (object : BucketObject) : Verdict :=
  match readHead object with
  | none => .failed
  | some bytes =>
      match sniffImageType bytes with
      | none => .unknown
      | some actualType =>
          if isEquivalent (object.contentType.getD "") actualType then .ok else .fixed

/-- The object with the type that its bytes have. -/
def repaired (object : BucketObject) : BucketObject :=
  { object with contentType := sniffImageType (object.body.take 1024) }

theorem readHead_eq_some {object : BucketObject} {bytes : List UInt8} :
    readHead object = some bytes ↔ object.body ≠ [] ∧ bytes = object.body.take 1024 := by
  rw [readHead]
  split
  · next h => simp [h]
  · next h => simp [h, eq_comm]

theorem readHead_of_ne_nil {object : BucketObject} (h : object.body ≠ []) :
    readHead object = some (object.body.take 1024) := if_neg h

theorem sniffImageType_nil : sniffImageType [] = none := rfl

theorem verdictOf_nil {object : BucketObject} (h : object.body = []) :
    verdictOf object = .failed := by
  simp [verdictOf, readHead, h]

theorem verdictOf_eq_failed {object : BucketObject} :
    verdictOf object = .failed ↔ object.body = [] := by
  refine ⟨fun hverdict => ?_, verdictOf_nil⟩
  by_contra hbody
  rw [verdictOf, readHead_of_ne_nil hbody] at hverdict
  dsimp only at hverdict
  cases hsniff : sniffImageType (object.body.take 1024) with
  | none => simp [hsniff] at hverdict
  | some actualType =>
      simp only [hsniff] at hverdict
      split at hverdict <;> cases hverdict

theorem verdictOf_eq_fixed {object : BucketObject} :
    verdictOf object = .fixed ↔ ∃ actualType,
      sniffImageType (object.body.take 1024) = some actualType ∧
        isEquivalent (object.contentType.getD "") actualType = false := by
  by_cases hbody : object.body = []
  · rw [verdictOf_nil hbody, hbody, List.take_nil, sniffImageType_nil]
    simp
  · rw [verdictOf, readHead_of_ne_nil hbody]
    cases hsniff : sniffImageType (object.body.take 1024) with
    | none => simp [hsniff]
    | some actualType => simp [hsniff]

/-- What is rewritten is right afterwards: the second run counts it as one with its own type. -/
theorem verdictOf_repaired {object : BucketObject} (h : verdictOf object = .fixed) :
    verdictOf (repaired object) ≠ .fixed := by
  obtain ⟨actualType, hactual, -⟩ := verdictOf_eq_fixed.1 h
  intro hagain
  obtain ⟨sametype, hsame, hdiffers⟩ := verdictOf_eq_fixed.1 hagain
  have htype : sniffImageType ((repaired object).body.take 1024) = some actualType := hactual
  obtain rfl := Option.some.inj (htype.symm.trans hsame)
  have hequivalent : isEquivalent ((repaired object).contentType.getD "") actualType = true := by
    rw [repaired, hactual, Option.getD_some]
    rw [sniffImageType_eq, Option.map_eq_some_iff] at hactual
    obtain ⟨image, -, rfl⟩ := hactual
    exact isEquivalent_self (mimeType_ne image)
  rw [hequivalent] at hdiffers
  cases hdiffers

/-- **What the loop does for a key**: a request fails and nothing happens, or the object is counted as
what it is, and rewritten if need be. -/
theorem inspect_spec (execute : Bool) (bucket : Bucket) (key : List Char) (fault : Option Fault) :
    ((fault = none → bucket key = none) ∧
        inspect execute bucket key fault = (.failed, bucket)) ∨
      ∃ object, bucket key = some object ∧ inspect execute bucket key fault =
        (verdictOf object, if execute = true ∧ verdictOf object = .fixed then
          bucket.put key (repaired object) else bucket) := by
  cases hobject : bucket key with
  | none => exact Or.inl ⟨fun _ => rfl, by simp [inspect, hobject]⟩
  | some object =>
      rw [inspect, hobject]
      dsimp only
      -- The faults come in the order of the requests; each ends the step with nothing done.
      by_cases hhead : fault = some .head
      · exact Or.inl ⟨fun hnone => by simp [hnone] at hhead, if_pos hhead⟩
      by_cases hget : fault = some .get
      · exact Or.inl ⟨fun hnone => by simp [hnone] at hget, by simp [hget]⟩
      rw [if_neg hhead, if_neg hget]
      cases hread : readHead object with
      | none => exact Or.inr ⟨object, rfl, by simp [verdictOf, hread]⟩
      | some bytes =>
          cases hsniff : sniffImageType bytes with
          | none => exact Or.inr ⟨object, rfl, by simp [verdictOf, hread, hsniff]⟩
          | some actualType =>
              have hverdict : verdictOf object =
                  if isEquivalent (object.contentType.getD "") actualType then .ok else .fixed := by
                simp only [verdictOf, hread, hsniff]
              have hrepaired : repaired object = { object with contentType := some actualType } := by
                obtain ⟨-, hbytes⟩ := readHead_eq_some.1 hread
                rw [repaired, ← hbytes, hsniff]
              -- An equivalent type is left as it is, also when it is spelled in another way.
              by_cases hequivalent : isEquivalent (object.contentType.getD "") actualType = true
              · exact Or.inr ⟨object, rfl, by simp [hverdict, hequivalent, hsniff]⟩
              · rw [if_neg hequivalent] at hverdict
                simp only [hsniff, if_neg hequivalent]
                -- The fault of the copy only strikes where there is a copy.
                by_cases hcopy : execute = true ∧ fault = some .copy
                · exact Or.inl ⟨fun hnone => by simp [hnone] at hcopy, by simp [hcopy]⟩
                · refine Or.inr ⟨object, rfl, ?_⟩
                  cases execute with
                  | true => simp [hverdict, hrepaired, by simpa using hcopy]
                  | false => simp [hverdict]

/-- A key that is inspected has no part in what the others hold. So the order of the keys does not
matter. -/
theorem inspect_other {execute : Bool} {bucket : Bucket} {key other : List Char}
    {fault : Option Fault} (h : other ≠ key) :
    (inspect execute bucket key fault).2 other = bucket other := by
  rcases inspect_spec execute bucket key fault with ⟨-, hsame⟩ | ⟨object, -, hinspected⟩
  · rw [hsame]
  · rw [hinspected]
    dsimp only
    split
    · exact if_neg h
    · rfl

/-- Only the object at the key matters for how it is counted and what becomes of it. Two runs over
buckets that agree there agree about the key. -/
theorem inspect_congr {execute : Bool} {bucket bucket' : Bucket} {key : List Char}
    {fault : Option Fault} (h : bucket key = bucket' key) :
    (inspect execute bucket key fault).1 = (inspect execute bucket' key fault).1 ∧
      (inspect execute bucket key fault).2 key = (inspect execute bucket' key fault).2 key := by
  simp only [inspect, h]
  cases hobject : bucket' key with
  | none => exact ⟨rfl, h⟩
  | some object =>
      dsimp only
      split
      · exact ⟨rfl, h⟩
      split
      · exact ⟨rfl, h⟩
      split
      · exact ⟨rfl, h⟩
      split
      · exact ⟨rfl, h⟩
      split
      · split
        · exact ⟨rfl, h⟩
        · exact ⟨rfl, (if_pos rfl).trans (if_pos rfl).symm⟩
      · exact ⟨rfl, h⟩

/-! ### The report -/

def Stats.counted (stats : Stats) : Verdict → Nat
  | .ok => stats.ok
  | .fixed => stats.fixed
  | .unknown => stats.unknown
  | .failed => stats.failed

/-- The report of a run that has come to these verdicts. It does not depend on their order. -/
def tally (verdicts : List Verdict) : Stats := verdicts.foldl Stats.count ⟨0, 0, 0, 0, 0⟩

theorem Stats.ext_counted {stats stats' : Stats} (htotal : stats.total = stats'.total)
    (h : ∀ verdict, stats.counted verdict = stats'.counted verdict) : stats = stats' := by
  obtain ⟨total, ok, fixed, unknown, failed⟩ := stats
  obtain ⟨total', ok', fixed', unknown', failed'⟩ := stats'
  exact Stats.mk.injEq .. ▸ ⟨htotal, h .ok, h .fixed, h .unknown, h .failed⟩

theorem counted_foldl (verdicts : List Verdict) (stats : Stats) (verdict : Verdict) :
    (verdicts.foldl Stats.count stats).counted verdict =
      stats.counted verdict + verdicts.count verdict := by
  induction verdicts generalizing stats with
  | nil => rfl
  | cons first verdicts ih =>
      have hfirst : (stats.count first).counted verdict =
          stats.counted verdict + if first == verdict then 1 else 0 := by
        cases first <;> cases verdict <;> rfl
      rw [List.foldl_cons, ih, hfirst, List.count_cons, Nat.add_assoc, Nat.add_comm (ite _ _ _)]

theorem total_foldl (verdicts : List Verdict) (stats : Stats) :
    (verdicts.foldl Stats.count stats).total = stats.total + verdicts.length := by
  induction verdicts generalizing stats with
  | nil => rfl
  | cons first verdicts ih =>
      have hfirst : (stats.count first).total = stats.total + 1 := by cases first <;> rfl
      rw [List.foldl_cons, ih, hfirst, List.length_cons, Nat.add_assoc, Nat.add_comm 1]

@[simp] theorem counted_tally (verdicts : List Verdict) (verdict : Verdict) :
    (tally verdicts).counted verdict = verdicts.count verdict := by
  rw [tally, counted_foldl]
  cases verdict <;> exact Nat.zero_add _

@[simp] theorem total_tally (verdicts : List Verdict) : (tally verdicts).total = verdicts.length := by
  rw [tally, total_foldl]
  exact Nat.zero_add _

theorem tally_perm {verdicts verdicts' : List Verdict} (h : verdicts.Perm verdicts') :
    tally verdicts = tally verdicts' :=
  Stats.ext_counted (by simp [h.length_eq]) fun verdict => by simp [h.count_eq]

/-- Every object is counted in one way. -/
theorem tally_balanced (verdicts : List Verdict) :
    (tally verdicts).total = (tally verdicts).ok + (tally verdicts).fixed +
      (tally verdicts).unknown + (tally verdicts).failed := by
  have hsum : verdicts.length = verdicts.count .ok + verdicts.count .fixed +
      verdicts.count .unknown + verdicts.count .failed := by
    induction verdicts with
    | nil => rfl
    | cons first verdicts ih =>
        cases first <;> simp [ih] <;> omega
  have hcounted := counted_tally verdicts
  rw [total_tally, hsum, ← hcounted .ok, ← hcounted .fixed, ← hcounted .unknown, ← hcounted .failed]
  rfl

/-! ### A run -/

/-- The step of the loop of `main`: one key, with what is counted so far and the bucket as it is by
now. -/
def visit (execute : Bool) (state : Stats × Bucket) (key : List Char × Option Fault) :
    Stats × Bucket :=
  (state.1.count (inspect execute state.2 key.1 key.2).1, (inspect execute state.2 key.1 key.2).2)

theorem foldl_visit_balanced (execute : Bool) (keys : List (List Char × Option Fault))
    (state : Stats × Bucket) :
    ∃ verdicts : List Verdict, (keys.foldl (visit execute) state).1 = verdicts.foldl Stats.count state.1 := by
  induction keys generalizing state with
  | nil => exact ⟨[], rfl⟩
  | cons key keys ih =>
      obtain ⟨verdicts, hverdicts⟩ := ih (visit execute state key)
      exact ⟨_ :: verdicts, hverdicts⟩

/-- What a key that is not among them holds: what it held before. -/
theorem foldl_visit_other {execute : Bool} {keys : List (List Char × Option Fault)}
    {other : List Char} (h : other ∉ keys.map Prod.fst) (state : Stats × Bucket) :
    (keys.foldl (visit execute) state).2 other = state.2 other := by
  induction keys generalizing state with
  | nil => rfl
  | cons key keys ih =>
      rw [List.map_cons, List.mem_cons, not_or] at h
      rw [List.foldl_cons, ih h.2]
      exact inspect_other h.1

/-- **Every object is counted as what it was when the run began.** -/
theorem foldl_visit_report (execute : Bool) {keys : List (List Char × Option Fault)}
    (hnodup : (keys.map Prod.fst).Nodup) (state : Stats × Bucket) :
    (keys.foldl (visit execute) state).1 =
      (keys.map fun key => (inspect execute state.2 key.1 key.2).1).foldl Stats.count state.1 := by
  induction keys generalizing state with
  | nil => rfl
  | cons key keys ih =>
      rw [List.map_cons, List.nodup_cons] at hnodup
      rw [List.foldl_cons, ih hnodup.2, List.map_cons, List.foldl_cons]
      have hlater : ∀ later ∈ keys,
          (inspect execute (visit execute state key).2 later.1 later.2).1 =
            (inspect execute state.2 later.1 later.2).1 := by
        intro later hmem
        refine (inspect_congr (inspect_other fun heq => hnodup.1 ?_)).1
        exact heq ▸ List.mem_map_of_mem hmem
      rw [List.map_congr_left hlater]
      rfl

/-- What a key among them holds is what its own inspection has made of it. -/
theorem foldl_visit_bucket {execute : Bool} {keys : List (List Char × Option Fault)}
    (hnodup : (keys.map Prod.fst).Nodup) {key : List Char × Option Fault} (h : key ∈ keys)
    (state : Stats × Bucket) :
    (keys.foldl (visit execute) state).2 key.1 = (inspect execute state.2 key.1 key.2).2 key.1 := by
  induction keys generalizing state with
  | nil => cases h
  | cons first keys ih =>
      rw [List.map_cons, List.nodup_cons] at hnodup
      rw [List.foldl_cons]
      rcases List.mem_cons.1 h with rfl | h
      · exact foldl_visit_other hnodup.1 _
      · have hne : key.1 ≠ first.1 := fun heq => hnodup.1 (heq ▸ List.mem_map_of_mem h)
        rw [ih hnodup.2 h]
        exact (inspect_congr (inspect_other hne)).2

/-- Whatever fails, an object is what it was, or it was found to have the wrong type and has the
right one now. This composes along a run, and is all that a run may do. -/
def Spares (bucket bucket' : Bucket) : Prop :=
  ∀ key, bucket' key = bucket key ∨
    ∃ object, bucket key = some object ∧ verdictOf object = .fixed ∧
      bucket' key = some (repaired object)

theorem inspect_spares {execute : Bool} {bucket bucket' : Bucket} (h : Spares bucket bucket')
    (key : List Char) (fault : Option Fault) :
    Spares bucket (inspect execute bucket' key fault).2 := by
  rcases inspect_spec execute bucket' key fault with ⟨-, hsame⟩ | ⟨object, hobject, hinspected⟩
  · rw [hsame]
    exact h
  rw [hinspected]
  dsimp only
  split
  · next hrewrite =>
      intro other
      by_cases hother : other = key
      · subst hother
        rcases h other with hsame | ⟨before, -, hbefore, hafter⟩
        · exact Or.inr ⟨object, hsame.symm.trans hobject, hrewrite.2, if_pos rfl⟩
        -- what was rewritten already is right
        · obtain rfl := Option.some.inj (hafter.symm.trans hobject)
          exact absurd hrewrite.2 (verdictOf_repaired hbefore)
      · rw [Bucket.put, if_neg hother]
        exact h other
  · exact h

theorem foldl_visit_spares {execute : Bool} {bucket : Bucket}
    (keys : List (List Char × Option Fault)) {state : Stats × Bucket} (h : Spares bucket state.2) :
    Spares bucket (keys.foldl (visit execute) state).2 := by
  induction keys generalizing state with
  | nil => exact h
  | cons key keys ih => exact @ih (visit execute state key) (inspect_spares h key.1 key.2)

/-- A dry run changes nothing, whatever it counts. -/
theorem foldl_visit_dry (keys : List (List Char × Option Fault)) (state : Stats × Bucket) :
    (keys.foldl (visit false) state).2 = state.2 := by
  induction keys generalizing state with
  | nil => rfl
  | cons key keys ih =>
      rw [List.foldl_cons, ih]
      show (inspect false state.2 key.1 key.2).2 = state.2
      rcases inspect_spec false state.2 key.1 key.2 with ⟨-, hsame⟩ | ⟨object, -, hinspected⟩
      · exact congrArg Prod.snd hsame
      · simp [hinspected]

theorem Spares.body {bucket bucket' : Bucket} (h : Spares bucket bucket') (key : List Char) :
    (bucket' key).map BucketObject.body = (bucket key).map BucketObject.body := by
  rcases h key with hsame | ⟨object, hobject, -, hafter⟩
  · rw [hsame]
  · rw [hobject, hafter]
    rfl

theorem Spares.touched {bucket bucket' : Bucket} (h : Spares bucket bucket') {key : List Char}
    (hkey : bucket' key ≠ bucket key) :
    ∃ object actualType, bucket key = some object ∧
      sniffImageType (object.body.take 1024) = some actualType ∧
      isEquivalent (object.contentType.getD "") actualType = false ∧
      bucket' key = some { object with contentType := some actualType } := by
  obtain ⟨object, hobject, hfixed, hafter⟩ := (h key).resolve_left hkey
  obtain ⟨actualType, hactual, hdiffers⟩ := verdictOf_eq_fixed.1 hfixed
  exact ⟨object, actualType, hobject, hactual, hdiffers, by rw [hafter, repaired, hactual]⟩

/-! ### Verdicts -/

/-- What the loop counts a key as when no request fails. -/
def verdictAt (bucket : Bucket) (key : List Char) : Verdict :=
  (bucket key).elim .failed verdictOf

theorem inspect_verdict (execute : Bool) (bucket : Bucket) (key : List Char)
    (fault : Option Fault) :
    (inspect execute bucket key fault).1 = .failed ∨
      (inspect execute bucket key fault).1 = verdictAt bucket key := by
  rcases inspect_spec execute bucket key fault with ⟨-, hfailed⟩ | ⟨object, hobject, hinspected⟩
  · exact Or.inl (congrArg Prod.fst hfailed)
  · exact Or.inr (by rw [hinspected, verdictAt, hobject, Option.elim_some])

theorem inspect_verdict_none (execute : Bool) (bucket : Bucket) (key : List Char) :
    (inspect execute bucket key none).1 = verdictAt bucket key := by
  rcases inspect_spec execute bucket key none with ⟨hnone, hfailed⟩ | ⟨object, hobject, hinspected⟩
  · rw [hfailed, verdictAt, hnone rfl, Option.elim_none]
  · rw [hinspected, verdictAt, hobject, Option.elim_some]

/-- An execution that does not fail leaves an object that needs no rewriting, whether it has been
rewritten or was right before. -/
theorem verdictAt_inspect {bucket : Bucket} {key : List Char} {fault : Option Fault}
    (h : (inspect true bucket key fault).1 ≠ .failed) :
    verdictAt (inspect true bucket key fault).2 key ≠ .fixed := by
  rcases inspect_spec true bucket key fault with ⟨-, hfailed⟩ | ⟨object, hobject, hinspected⟩
  · exact absurd (congrArg Prod.fst hfailed) h
  · rw [hinspected]
    dsimp only
    split
    · next hrewrite =>
        rw [verdictAt, Bucket.put, if_pos rfl, Option.elim_some]
        exact verdictOf_repaired hrewrite.2
    · next hkeep =>
        rw [verdictAt, hobject, Option.elim_some]
        exact fun hfixed => hkeep ⟨rfl, hfixed⟩

/-- What a run counts the keys as. -/
def verdicts (execute : Bool) (bucket : Bucket) (fault : List Char → Option Fault)
    (keys : List (List Char)) : List Verdict :=
  keys.map fun key => (inspect execute bucket key (fault key)).1

/-- A run that reports no failure counts every object as what it is: a fault that has changed a
verdict would have been counted. -/
theorem verdicts_eq {execute : Bool} {bucket : Bucket} {fault : List Char → Option Fault}
    {keys : List (List Char)} (h : (tally (verdicts execute bucket fault keys)).failed = 0) :
    ∀ key ∈ keys, (inspect execute bucket key (fault key)).1 = verdictAt bucket key ∧
      (inspect execute bucket key (fault key)).1 ≠ .failed := by
  have hcount : (verdicts execute bucket fault keys).count .failed = 0 :=
    (counted_tally _ .failed).symm.trans h
  intro key hkey
  have hne : (inspect execute bucket key (fault key)).1 ≠ .failed := by
    intro hfailed
    exact List.count_eq_zero.1 hcount (hfailed ▸ List.mem_map_of_mem hkey)
  exact ⟨(inspect_verdict execute bucket key (fault key)).resolve_left hne, hne⟩

/-- So the verdicts of such a run do not depend on what it may write. -/
theorem verdicts_unfailed {execute : Bool} {bucket : Bucket} {fault : List Char → Option Fault}
    {keys : List (List Char)} (h : (tally (verdicts execute bucket fault keys)).failed = 0) :
    verdicts execute bucket fault keys = keys.map (verdictAt bucket) :=
  List.map_congr_left fun key hkey => (verdicts_eq h key hkey).1

/-! ### The script -/

/-- The script without a limit ends, with this report and this bucket, however many pages it is
allowed to read beyond those there are. -/
def Ends (execute : Bool) (send : ListObjectsV2Command → Except String ListObjectsV2Response)
    (keyPrefix : String) (fault : List Char → Option Fault) (bucket : Bucket)
    (report : Except String Stats) (bucket' : Bucket) : Prop :=
  ∃ enough, ∀ pages, enough ≤ pages →
    script execute send keyPrefix (.finite 0) pages fault bucket = some (report, bucket')

section

variable {execute : Bool} {send : ListObjectsV2Command → Except String ListObjectsV2Response}
variable {keyPrefix : String} {fault : List Char → Option Fault} {bucket bucket' : Bucket}

theorem Ends.unique {report report' : Except String Stats} {bucket'' : Bucket}
    (h : Ends execute send keyPrefix fault bucket report bucket')
    (h' : Ends execute send keyPrefix fault bucket report' bucket'') :
    report = report' ∧ bucket' = bucket'' := by
  obtain ⟨enough, hends⟩ := h
  obtain ⟨enough', hends'⟩ := h'
  have hsame := (hends _ (Nat.le_max_left enough enough')).symm.trans
    (hends' _ (Nat.le_max_right enough enough'))
  exact Prod.mk.inj (Option.some.inj hsame)

/-- Whatever fails, the listing included: a run that cannot list the objects does not touch them. -/
theorem Ends.spares {report : Except String Stats}
    (h : Ends execute send keyPrefix fault bucket report bucket') :
    Spares bucket bucket' ∧ (execute = false → bucket' = bucket) ∧
      ∀ stats, report = .ok stats →
        stats.total = stats.ok + stats.fixed + stats.unknown + stats.failed := by
  have hstart : Spares bucket bucket := fun _ => Or.inl rfl
  obtain ⟨enough, hends⟩ := h
  have hscript := hends enough (Nat.le_refl enough)
  rw [script, Option.map_eq_some_iff] at hscript
  obtain ⟨listed, -, hreport⟩ := hscript
  cases listed with
  | error message =>
      obtain ⟨rfl, rfl⟩ := Prod.mk.inj hreport
      exact ⟨hstart, fun _ => rfl, fun stats hstats => by cases hstats⟩
  | ok keys =>
      obtain ⟨rfl, rfl⟩ := Prod.mk.inj hreport
      refine ⟨foldl_visit_spares _ hstart, ?_, ?_⟩
      · intro rfl
        exact foldl_visit_dry _ _
      · intro stats hstats
        obtain ⟨verdicts, hverdicts⟩ := foldl_visit_balanced execute
          (keys.map fun key => (key, fault key)) (⟨0, 0, 0, 0, 0⟩, bucket)
        have htally : stats = tally verdicts := (Except.ok.inj hstats).symm.trans hverdicts
        rw [htally]
        exact tally_balanced verdicts

variable {objects : List ListedObject}

theorem nodup_keysOf (h : IsListing bucket keyPrefix objects) : (keysOf objects).Nodup :=
  h.nodup.sublist (List.filter_sublist.map ListedObject.key)

/-- What has bytes is listed. An object without any is left out, as the placeholders of directories
are. -/
theorem mem_keysOf (h : IsListing bucket keyPrefix objects) {key : List Char} :
    key ∈ keysOf objects ↔ keyPrefix.toList <+: key ∧
      ∃ stored, bucket key = some stored ∧ stored.body ≠ [] := by
  rw [keysOf, List.mem_map]
  constructor
  · rintro ⟨object, hmem, hkey⟩
    obtain ⟨hobject, hsize⟩ := List.mem_filter.1 hmem
    obtain ⟨hbegins, stored, hstored, hbody⟩ := (h.mem_iff object).1 hobject
    subst hkey
    refine ⟨hbegins, stored, hstored, fun hnil => ?_⟩
    simp [hbody, hnil] at hsize
  · rintro ⟨hbegins, stored, hstored, hbody⟩
    refine ⟨⟨key, stored.body.length⟩, List.mem_filter.2 ⟨?_, ?_⟩, rfl⟩
    · exact (h.mem_iff _).2 ⟨hbegins, stored, hstored, rfl⟩
    · exact decide_eq_true (List.length_pos_iff.2 hbody)

/-- What is listed after a run was listed before it, since the bytes are the same. -/
theorem mem_keysOf_of_spares {objects' : List ListedObject}
    (h : IsListing bucket keyPrefix objects) (h' : IsListing bucket' keyPrefix objects')
    (hspares : Spares bucket bucket') {key : List Char} (hkey : key ∈ keysOf objects') :
    key ∈ keysOf objects := by
  obtain ⟨hbegins, stored, hstored, hbody⟩ := (mem_keysOf h').1 hkey
  have hsame := hspares.body key
  rw [hstored, Option.map_some, eq_comm, Option.map_eq_some_iff] at hsame
  obtain ⟨original, horiginal, hbytes⟩ := hsame
  exact (mem_keysOf h).2 ⟨hbegins, original, horiginal, hbytes ▸ hbody⟩

/-- A run over the whole listing: the loop reads every page, and visits each key of an object with
bytes. -/
theorem ends_of_serves (hserves : ServesListing send (requested keyPrefix) none objects)
    (hlisting : IsListing bucket keyPrefix objects) (execute : Bool)
    (fault : List Char → Option Fault) :
    Ends execute send keyPrefix fault bucket
      (.ok (tally (verdicts execute bucket fault (keysOf objects))))
      (main execute ((keysOf objects).map fun key => (key, fault key)) bucket).2 := by
  obtain ⟨enough, hdrain⟩ := (lists_of_serves hserves).drain (collect (.finite 0)) id
  refine ⟨enough, fun pages hpages => ?_⟩
  have hlisted : listAllObjects send keyPrefix (.finite 0) pages = some (.ok (keysOf objects)) := by
    have hopen : IsOpen (.finite 0) ([] : List (List Char)).length := Or.inl rfl
    rw [listAllObjects, hdrain pages hpages, visitAll_collect hopen, List.nil_append, Limit.cut,
      if_neg (lt_irrefl 0)]
  have hfst : ((keysOf objects).map fun key => (key, fault key)).map Prod.fst = keysOf objects := by
    simp [Function.comp_def]
  have hreport := foldl_visit_report execute (hfst.symm ▸ nodup_keysOf hlisting)
    (⟨0, 0, 0, 0, 0⟩, bucket)
  rw [List.map_map] at hreport
  rw [script, hlisted, Option.map_some]
  exact congrArg (fun stats => some (Except.ok stats, _)) hreport

/-- What a run has left at a listed key is what the one step for that key makes of the bucket at the
start. -/
theorem main_bucket (hlisting : IsListing bucket keyPrefix objects) {key : List Char}
    (hkey : key ∈ keysOf objects) :
    (main execute ((keysOf objects).map fun key => (key, fault key)) bucket).2 key =
      (inspect execute bucket key (fault key)).2 key := by
  have hfst : ((keysOf objects).map fun key => (key, fault key)).map Prod.fst = keysOf objects := by
    simp [Function.comp_def]
  exact foldl_visit_bucket (hfst.symm ▸ nodup_keysOf hlisting)
    (List.mem_map_of_mem (f := fun key => (key, fault key)) hkey) (⟨0, 0, 0, 0, 0⟩, bucket)

/-- Without failing requests nothing is counted as failed. -/
theorem failed_eq_zero (hlisting : IsListing bucket keyPrefix objects)
    (h : ∀ key, fault key = none) :
    (tally (verdicts execute bucket fault (keysOf objects))).failed = 0 := by
  have hcount : (verdicts execute bucket fault (keysOf objects)).count .failed = 0 := by
    rw [List.count_eq_zero]
    intro hmem
    obtain ⟨key, hkey, hfailed⟩ := List.mem_map.1 hmem
    obtain ⟨-, stored, hstored, hbody⟩ := (mem_keysOf hlisting).1 hkey
    rw [h key, inspect_verdict_none, verdictAt, hstored, Option.elim_some] at hfailed
    exact hbody (verdictOf_eq_failed.1 hfailed)
  exact (counted_tally _ .failed).trans hcount

/-- **After an execution that fails nowhere, no listed object needs rewriting.** -/
theorem verdictAt_main (hlisting : IsListing bucket keyPrefix objects)
    (hfailed : (tally (verdicts true bucket fault (keysOf objects))).failed = 0) {key : List Char}
    (hkey : key ∈ keysOf objects) :
    verdictAt (main true ((keysOf objects).map fun key => (key, fault key)) bucket).2 key ≠
      .fixed := by
  have hsettled := verdictAt_inspect (verdicts_eq hfailed key hkey).2
  rwa [verdictAt, ← main_bucket hlisting hkey] at hsettled

/-- Without failing requests an object is counted as fixed when its type is wrong, and only then. -/
theorem fixed_eq_countP (h : ∀ key, fault key = none) :
    (tally (verdicts execute bucket fault (keysOf objects))).fixed =
      (keysOf objects).countP fun key => verdictAt bucket key = .fixed := by
  refine (counted_tally _ .fixed).trans ?_
  rw [verdicts, List.count_eq_countP, List.countP_map]
  refine List.countP_congr fun key _ => ?_
  simp [h key, inspect_verdict_none]

/-- An execution gives a listed object whose type is wrong the type of its bytes, unless a request for
it fails. -/
theorem main_repairs (hlisting : IsListing bucket keyPrefix objects) {key : List Char}
    (hkey : key ∈ keysOf objects) (hfault : fault key = none) {object : BucketObject}
    (hobject : bucket key = some object) (hfixed : verdictOf object = .fixed) :
    (main true ((keysOf objects).map fun key => (key, fault key)) bucket).2 key =
      some (repaired object) := by
  rw [main_bucket hlisting hkey, hfault]
  rcases inspect_spec true bucket key none with ⟨hnone, -⟩ | ⟨found, hfound, hinspected⟩
  · rw [hnone rfl] at hobject
    cases hobject
  · obtain rfl := Option.some.inj (hobject.symm.trans hfound)
    rw [hinspected, if_pos ⟨rfl, hfixed⟩]
    exact if_pos rfl

/-- **The repair accounts for every object and converges.** The script ends. Whatever requests fail,
it changes no key and no bytes and touches only objects whose type is known and another than the
stored one, a dry run touches nothing, and the counters add up to the objects that have bytes. An
execution gives every listed object whose type is wrong the right one, unless a request for this object
fails; without failures it counts exactly these as fixed. When nothing is counted as failed, a dry run
reports what an execution does, and a run after the execution finds nothing to be rewritten. -/
theorem repair_accounts_and_converges
    (hserves : ServesListing send (requested keyPrefix) none objects)
    (hlisting : IsListing bucket keyPrefix objects) :
    (∀ execute fault, ∃ stats bucket',
      Ends execute send keyPrefix fault bucket (.ok stats) bucket' ∧
        stats.total = (keysOf objects).length ∧
        ((∀ key, fault key = none) → stats.failed = 0 ∧
          stats.fixed = (keysOf objects).countP fun key => verdictAt bucket key = .fixed) ∧
        (execute = true → ∀ key ∈ keysOf objects, fault key = none →
          ∀ object actualType, bucket key = some object →
            sniffImageType (object.body.take 1024) = some actualType →
            isEquivalent (object.contentType.getD "") actualType = false →
            bucket' key = some { object with contentType := some actualType })) ∧
    (∀ execute send' fault report bucket',
      Ends execute send' keyPrefix fault bucket report bucket' →
        (∀ key, (bucket' key).map BucketObject.body = (bucket key).map BucketObject.body) ∧
        (∀ key, bucket' key ≠ bucket key → ∃ object actualType, bucket key = some object ∧
          sniffImageType (object.body.take 1024) = some actualType ∧
          isEquivalent (object.contentType.getD "") actualType = false ∧
          bucket' key = some { object with contentType := some actualType }) ∧
        (execute = false → bucket' = bucket) ∧
        ∀ stats, report = .ok stats →
          stats.total = stats.ok + stats.fixed + stats.unknown + stats.failed) ∧
    ∀ fault stats executed, Ends true send keyPrefix fault bucket (.ok stats) executed →
      stats.failed = 0 →
      (∀ send' objects' fault' stats' dry,
        ServesListing send' (requested keyPrefix) none objects' →
        IsListing bucket keyPrefix objects' →
        Ends false send' keyPrefix fault' bucket (.ok stats') dry → stats'.failed = 0 →
        stats' = stats) ∧
      ∀ send' objects' execute' fault' stats' again,
        ServesListing send' (requested keyPrefix) none objects' →
        IsListing executed keyPrefix objects' →
        Ends execute' send' keyPrefix fault' executed (.ok stats') again → stats'.fixed = 0 := by
  refine ⟨?_, ?_, ?_⟩
  -- What a run without a fault in the listing comes to.
  · intro execute fault
    refine ⟨_, _, ends_of_serves hserves hlisting execute fault, ?_, fun hnone =>
      ⟨failed_eq_zero hlisting hnone, fixed_eq_countP hnone⟩, ?_⟩
    · rw [total_tally, verdicts, List.length_map]
    · rintro rfl key hkey hfault object actualType hobject hactual hdiffers
      rw [main_repairs hlisting hkey hfault hobject
        (verdictOf_eq_fixed.2 ⟨actualType, hactual, hdiffers⟩), repaired, hactual]
  -- What every run keeps to, whatever fails and whatever the service lists.
  · intro execute send' fault report bucket' hends
    obtain ⟨hspares, hdry, hbalanced⟩ := hends.spares
    exact ⟨hspares.body, fun _ hkey => hspares.touched hkey, hdry, hbalanced⟩
  -- After an execution without a failure: a dry run before it would have reported the same, and any
  -- run after it fixes nothing.
  · intro fault stats executed hends hfailed
    obtain ⟨hstats, rfl⟩ := hends.unique (ends_of_serves hserves hlisting true fault)
    obtain rfl := Except.ok.inj hstats
    refine ⟨?_, ?_⟩
    · intro send' objects' fault' stats' dry hserves' hlisting' hends' hfailed'
      obtain ⟨hstats', -⟩ := hends'.unique (ends_of_serves hserves' hlisting' false fault')
      obtain rfl := Except.ok.inj hstats'
      have hperm : (keysOf objects').Perm (keysOf objects) := by
        rw [List.perm_ext_iff_of_nodup (nodup_keysOf hlisting') (nodup_keysOf hlisting)]
        exact fun key => (mem_keysOf hlisting').trans (mem_keysOf hlisting).symm
      rw [verdicts_unfailed hfailed', verdicts_unfailed hfailed]
      exact tally_perm (hperm.map _)
    · intro send' objects' execute' fault' stats' again hserves' hlisting' hends'
      obtain ⟨hstats', -⟩ := hends'.unique (ends_of_serves hserves' hlisting' execute' fault')
      obtain rfl := Except.ok.inj hstats'
      refine (counted_tally _ .fixed).trans (List.count_eq_zero.2 fun hmem => ?_)
      obtain ⟨key, hkey, hfixed⟩ := List.mem_map.1 hmem
      have hbefore := mem_keysOf_of_spares hlisting hlisting' hends.spares.1 hkey
      rcases inspect_verdict execute' _ key (fault' key) with hverdict | hverdict
      · rw [hverdict] at hfixed
        cases hfixed
      · exact verdictAt_main hlisting hfailed hbefore (hverdict.symm.trans hfixed)

end

/-! ### A PNG that is stored as a JPEG -/

def mistypedKey : List Char := "a.png".toList

def mistypedObject : BucketObject := ⟨pngBytes, some "image/jpeg", none⟩

def mistyped : Bucket := fun key => if key = mistypedKey then some mistypedObject else none

/-- The object is on the second page; the first one is empty. -/
def sendMistyped (command : ListObjectsV2Command) : Except String ListObjectsV2Response :=
  match command.continuationToken with
  | none => .ok ⟨none, true, some "second"⟩
  | some _ => .ok ⟨some [⟨mistypedKey, 12⟩], false, none⟩

theorem serves_mistyped :
    ServesListing sendMistyped (requested "") none [⟨mistypedKey, 12⟩] := by
  have hfirst : sendMistyped ⟨requested "", none⟩ = .ok ⟨none, true, some "second"⟩ := rfl
  have hsecond : sendMistyped ⟨requested "", some "second"⟩ =
      .ok ⟨some [⟨mistypedKey, 12⟩], false, none⟩ := rfl
  exact .more hfirst rfl rfl (by decide) (.last hsecond rfl)

theorem isListing_mistyped : IsListing mistyped "" [⟨mistypedKey, 12⟩] where
  nodup := by simp
  mem_iff := by
    intro ⟨key, size⟩
    by_cases hkey : key = mistypedKey
    · subst hkey
      simp [mistyped, mistypedObject, pngBytes]
    · simp [mistyped, hkey]

/-- It gets the type of its bytes and is counted, and nothing is left to be done. -/
theorem mistyped_is_repaired :
    ∃ stats executed,
      Ends true sendMistyped "" (fun _ => none) mistyped (.ok stats) executed ∧
        stats.total = 1 ∧ stats.failed = 0 ∧ stats.fixed = 1 ∧
        executed mistypedKey = some { mistypedObject with contentType := some "image/png" } ∧
        ∀ stats' again, Ends false sendMistyped "" (fun _ => none) executed (.ok stats') again →
          stats'.fixed = 0 := by
  obtain ⟨hends, hspares, hconverges⟩ :=
    repair_accounts_and_converges serves_mistyped isListing_mistyped
  obtain ⟨stats, executed, hrun, htotal, hcounts, hrepairs⟩ := hends true fun _ => none
  obtain ⟨hfailed, hfixed⟩ := hcounts fun _ => rfl
  obtain ⟨hbody, -⟩ := hspares true _ _ _ _ hrun
  have hmistyped : keysOf [⟨mistypedKey, 12⟩] = [mistypedKey] := rfl
  refine ⟨stats, executed, hrun, htotal, hfailed, ?_, ?_, fun stats' again =>
    (hconverges _ _ _ hrun hfailed).2 _ _ _ _ _ _ serves_mistyped (isListing_mistyped.congr hbody)⟩
  · rw [hfixed, hmistyped]
    decide +kernel
  · exact hrepairs rfl mistypedKey (by rw [hmistyped]; exact List.mem_singleton_self _) rfl
      mistypedObject "image/png" (if_pos rfl) (by decide +kernel) (by decide +kernel)

end FixR2ContentTypes

end VetHealth
