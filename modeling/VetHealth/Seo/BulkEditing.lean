import VetHealth.Lib.Footprint
import VetHealth.Seo.Concurrency
import VetHealth.Seo.Entries

/-!
# VetHealth.Seo.BulkEditing

**Editing many materials at once.** The overview is for editing in bulk: one request for each
material, all of them under way at the same time. A request keeps to its own material and to two
metadata rows, the one that the material has and the one that it may insert. Unless two materials
share a metadata row, these are footprints (`SeoTask.footprints`), and no schedule matters.

`bulk_edits_shown` says what the overview shows at any moment of such an interleaving: what it showed
at the start, with the answers that were given by then in place of the fields of their materials.
-/

namespace VetHealth

open Js Store Resumption Transition

/-- A request on a material. -/
structure SeoRequest where
  type : SeoEntityType
  id : Uuid
  call : SeoCall

namespace SeoRequest

variable (r : SeoRequest)

def material : SeoEntityType × Uuid := (r.type, r.id)

/-- The id of the row that the request may insert. -/
def rowId : Uuid := r.call.a.rowId

def prog : Prog SeoDatabase Failure SeoFieldValues :=
  SeoService.update r.call.a r.type r.id r.call.dto

end SeoRequest

namespace SeoDatabase

variable (db : SeoDatabase)

/-- The metadata column of a material. -/
def linkOf (type : SeoEntityType) (id : Uuid) : Option Uuid :=
  ((db.targets type).get id).bind SeoTarget.metadata

/-- No two materials have one metadata row. Otherwise the edit of one would be shown at the other.
-/
def Unshared : Prop :=
  ∀ type id type' id' k, db.linkOf type id = some k → db.linkOf type' id' = some k →
    type = type' ∧ id = id'

/-! ### What the statements read and write -/

variable {db} {db' : SeoDatabase} {now : Int}

theorem findOne_congr {type : SeoEntityType} {id : Uuid}
    (htarget : (db.targets type).get id = (db'.targets type).get id)
    (hrow : ∀ k, db.linkOf type id = some k → db.metadata.get k = db'.metadata.get k) :
    db.findOne type id = db'.findOne type id := by
  rw [findOne, findOne, ← htarget]
  cases hget : (db.targets type).get id with
  | none => rfl
  | some target =>
      have hfound : target.metadata.bind db.metadata.get = target.metadata.bind db'.metadata.get := by
        cases hlink : target.metadata with
        | none => rfl
        | some k => exact hrow k (by rw [linkOf, hget, Option.bind_some, hlink])
      rw [Option.filter_some]
      split
      · rw [Option.map_some, Option.map_some, hfound]
      · rfl

/-- The metadata row that is loaded is the one that the material is linked to: the id that is
written later is the one that was read. -/
theorem linkOf_of_findOne {type : SeoEntityType} {id : Uuid} {target : SeoTarget}
    {row : MetadataEntity} (h : db.findOne type id = some (target, some row)) :
    db.linkOf type id = some row.id ∧ db.metadata.get row.id = some row := by
  obtain ⟨hget, -, hfound⟩ := findOne_eq_some.1 h
  obtain ⟨k, hk, hrow⟩ := Option.bind_eq_some_iff.1 hfound.symm
  obtain rfl := (Table.get_eq_some.1 hrow).2
  exact ⟨by rw [linkOf, hget, Option.bind_some, hk], hrow⟩

/-- Saving a row ends in that row, which is stored then, and writes no other one. It holds for a row
that has been removed meanwhile, too, which is inserted again. -/
theorem saveMetadata_spec (given : MetadataEntity) :
    (db.saveMetadata now given).1 = .ok given ∧ (db.saveMetadata now given).2.targets = db.targets ∧
      ∀ k, (db.saveMetadata now given).2.metadata.get k =
        if k = given.id then
          some ((db.metadata.get given.id).elim given fun stored =>
            if given = stored then stored else overwrite now given stored)
        else db.metadata.get k := by
  cases hget : db.metadata.get given.id with
  | some stored => exact saveMetadata_stored hget
  | none =>
      obtain ⟨hresult, htargets, hrows⟩ := insertMetadata_new hget
      have hsave : db.saveMetadata now given = db.insertMetadata given := by
        rw [saveMetadata, insertMetadata, hget]
      rw [hsave]
      exact ⟨hresult, htargets, hrows⟩

end SeoDatabase

/-! ### Footprints -/

section

variable (db₀ : SeoDatabase) (r : SeoRequest)

/-- The metadata rows of a request: the one that its material has at the start, and its own. -/
def SeoRequest.owns (k : Uuid) : Prop := k = r.rowId ∨ db₀.linkOf r.type r.id = some k

/-- The material and its metadata are as at the start. This holds until the request makes its first
write. -/
structure SeoRequest.Untouched (db : SeoDatabase) : Prop where
  target : (db.targets r.type).get r.id = (db₀.targets r.type).get r.id
  row : ∀ k, db₀.linkOf r.type r.id = some k → db.metadata.get k = db₀.metadata.get k

/-- The metadata row of the material is one of the request. -/
def SeoRequest.Owned (db : SeoDatabase) : Prop :=
  ∀ k, db.linkOf r.type r.id = some k → r.owns db₀ k

/-- Where a request is, and what it has found and left so far. This is the invariant of one request;
nobody else's writes end it. -/
inductive SeoRequest.Works (db : SeoDatabase) : SeoPlace → Prop
  | ready : r.Untouched db₀ db → db.metadata.get r.rowId = none → Works db (.ready r.call)
  | loaded {row : MetadataEntity} : r.Untouched db₀ db → db₀.linkOf r.type r.id = some row.id →
      Works db (.loaded r.call row)
  | missing : r.Untouched db₀ db → db.metadata.get r.rowId = none → Works db (.missing r.call)
  | inserted {row : MetadataEntity} : r.Untouched db₀ db → row.id = r.rowId →
      Works db (.inserted r.call row)
  | ended {result : Except Failure SeoFieldValues} : r.Owned db₀ db → Works db (.ended result)

/-- Two states agree on what the request reads and writes: its material, and the two rows that are
its own. This relation is the footprint of the request. -/
structure SeoRequest.Same (db db' : SeoDatabase) : Prop where
  target : (db.targets r.type).get r.id = (db'.targets r.type).get r.id
  row : ∀ k, r.owns db₀ k → db.metadata.get k = db'.metadata.get k

end

namespace SeoRequest

variable {db₀ : SeoDatabase} {r : SeoRequest} {db db' : SeoDatabase} {place : SeoPlace}

theorem Untouched.findOne (h : r.Untouched db₀ db) :
    db.findOne r.type r.id = db₀.findOne r.type r.id := by
  refine SeoDatabase.findOne_congr h.target fun k hk => h.row k ?_
  rwa [SeoDatabase.linkOf, h.target] at hk

theorem Untouched.owned (h : r.Untouched db₀ db) : r.Owned db₀ db := by
  intro k hk
  rw [SeoDatabase.linkOf, h.target] at hk
  exact Or.inr hk

theorem Owned.same (h : r.Owned db₀ db)
    (htarget : (db'.targets r.type).get r.id = (db.targets r.type).get r.id) : r.Owned db₀ db' := by
  intro k hk
  rw [SeoDatabase.linkOf, htarget] at hk
  exact h k hk

theorem Untouched.refl : r.Untouched db₀ db₀ := ⟨rfl, fun _ _ => rfl⟩

/-- What other requests write is not seen. -/
theorem Untouched.same (h : r.Untouched db₀ db) (hsame : r.Same db₀ db db') : r.Untouched db₀ db' where
  target := hsame.target.symm.trans h.target
  row k hk := (hsame.row k (Or.inr hk)).symm.trans (h.row k hk)

theorem Works.same (h : r.Works db₀ db place) (hsame : r.Same db₀ db db') : r.Works db₀ db' place := by
  have hfree : db.metadata.get r.rowId = none → db'.metadata.get r.rowId = none := fun hfree =>
    (hsame.row _ (Or.inl rfl)).symm.trans hfree
  cases h with
  | ready h hrow => exact .ready (h.same hsame) (hfree hrow)
  | loaded h hrow => exact .loaded (h.same hsame) hrow
  | missing h hrow => exact .missing (h.same hsame) (hfree hrow)
  | inserted h hrow => exact .inserted (h.same hsame) hrow
  | ended h => exact .ended (h.same hsame.target.symm)

/-- A step goes on from what it has found. The cases are the places at which a request may be
suspended. -/
theorem Works.step (h : r.Works db₀ db place) (hunlinked : db₀.linkOf r.type r.id ≠ some r.rowId) :
    r.Works db₀ (place.advance r.type r.id db).2 (place.advance r.type r.id db).1 := by
  cases h with
  -- The first statement reads: the request ends, or knows whether the material has a row.
  | ready h hrow =>
      rw [SeoPlace.advance]
      cases hfind : db.findOne r.type r.id with
      | none => exact .ended h.owned
      | some loaded =>
          obtain ⟨target, found⟩ := loaded
          dsimp only
          cases SeoService.values r.call.dto with
          | error failure => exact .ended h.owned
          | ok v =>
              cases found with
              | none => exact .missing h hrow
              | some row =>
                  have hlink := (SeoDatabase.linkOf_of_findOne (h.findOne ▸ hfind)).1
                  exact .loaded h hlink
  -- It saves the row that it has read, and the link stays as it is.
  | loaded h hrow =>
      refine .ended (h.owned.same ?_)
      exact congrArg (fun targets => (targets r.type).get r.id) (SeoDatabase.saveMetadata_spec _).2.1
  -- It inserts a row under its own id, which the material was not linked to.
  | missing h hrow =>
      obtain ⟨hresult, htargets, hrows⟩ := @SeoDatabase.insertMetadata_new db r.call.row hrow
      rw [SeoPlace.advance]
      dsimp only
      rw [show (db.insertMetadata (SeoService.created r.call.a _)).1 = .ok r.call.row from hresult]
      refine .inserted ⟨?_, fun k hk => ?_⟩ rfl
      · rw [← h.target]
        exact congrArg (fun targets => (targets r.type).get r.id) htargets
      · rw [← h.row k hk]
        refine (hrows k).trans (if_neg ?_)
        rintro rfl
        exact hunlinked hk
  -- It links the material to its own row, which is one of the two that it owns.
  | @inserted row h hrow =>
      refine .ended fun k hk => Or.inl ?_
      rw [SeoPlace.advance, SeoDatabase.linkOf, SeoDatabase.get_linkMetadata] at hk
      obtain ⟨target, htarget, hlink⟩ := Option.bind_eq_some_iff.1 hk
      obtain ⟨before, -, rfl⟩ := Option.map_eq_some_iff.1 htarget
      rw [if_pos ⟨rfl, rfl⟩, hrow] at hlink
      exact (Option.some.inj hlink).symm
  | ended h => exact .ended h

/-- Throughout, the material has one of the request's metadata rows. -/
theorem Works.owned (h : r.Works db₀ db place) : r.Owned db₀ db := by
  cases h with
  | ended h => exact h
  | ready h | loaded h | missing h | inserted h => exact h.owned

/-- A step does the same in states that agree on what the request reads. -/
theorem Works.reads (h : r.Works db₀ db place) (hsame : r.Same db₀ db db') :
    (place.advance r.type r.id db).1 = (place.advance r.type r.id db').1 ∧
      r.Same db₀ (place.advance r.type r.id db).2 (place.advance r.type r.id db').2 := by
  cases h with
  | ready h hrow =>
      -- Both states show the material as it was at the start.
      have hfind : db.findOne r.type r.id = db'.findOne r.type r.id :=
        h.findOne.trans (h.same hsame).findOne.symm
      exact ⟨by rw [SeoPlace.advance, SeoPlace.advance, hfind], hsame⟩
  | @loaded row h hlink =>
      rw [SeoPlace.advance, SeoPlace.advance]
      dsimp only
      generalize hgiven : { row with
        columns := SeoService.merge row.columns (SeoService.setFields r.call.dto) } = given
      have hid : given.id = row.id := hgiven ▸ rfl
      obtain ⟨hresult, htargets, hrows⟩ := @SeoDatabase.saveMetadata_spec db r.call.a.savedAt given
      obtain ⟨hresult', htargets', hrows'⟩ := @SeoDatabase.saveMetadata_spec db' r.call.a.savedAt given
      refine ⟨by rw [hresult, hresult'], ?_, fun k hk => ?_⟩
      · rw [htargets, htargets']
        exact hsame.target
      -- The row that is saved is one of the footprint, so that it is the same in both states.
      · rw [hrows, hrows', hsame.row k hk, hsame.row given.id (Or.inr (hid ▸ hlink))]
  | missing h hrow =>
      have hrow' : db'.metadata.get r.rowId = none := (hsame.row _ (Or.inl rfl)).symm.trans hrow
      obtain ⟨hresult, htargets, hrows⟩ := @SeoDatabase.insertMetadata_new db r.call.row hrow
      obtain ⟨hresult', htargets', hrows'⟩ := @SeoDatabase.insertMetadata_new db' r.call.row hrow'
      refine ⟨?_, ?_, fun k hk => ?_⟩
      · rw [SeoPlace.advance, SeoPlace.advance]
        dsimp only
        rw [← SeoCall.row, hresult, hresult']
      · show ((db.insertMetadata r.call.row).2.targets _).get _ = _
        rw [htargets]
        exact hsame.target.trans (congrArg (fun targets => (targets r.type).get r.id) htargets'.symm)
      · show (db.insertMetadata r.call.row).2.metadata.get k = _
        rw [hrows, hsame.row k hk]
        exact (hrows' k).symm
  | inserted h hrow =>
      refine ⟨rfl, ?_, hsame.row⟩
      show ((SeoDatabase.linkMetadata _ _ _ _ _).2.targets _).get _ = _
      rw [SeoDatabase.get_linkMetadata, hsame.target]
      exact (SeoDatabase.get_linkMetadata ..).symm
  | ended h => exact ⟨rfl, hsame⟩

/-- A step writes to the request's own material and metadata rows. -/
theorem Works.writes (h : r.Works db₀ db place) :
    (∀ type id, (type, id) ≠ r.material →
      ((place.advance r.type r.id db).2.targets type).get id = (db.targets type).get id) ∧
    ∀ k, ¬ r.owns db₀ k → (place.advance r.type r.id db).2.metadata.get k = db.metadata.get k := by
  cases h with
  | ready h hrow => exact ⟨fun _ _ _ => rfl, fun _ _ => rfl⟩
  | @loaded row h hlink =>
      rw [SeoPlace.advance]
      dsimp only
      generalize hgiven : { row with
        columns := SeoService.merge row.columns (SeoService.setFields r.call.dto) } = given
      have hid : given.id = row.id := hgiven ▸ rfl
      obtain ⟨-, htargets, hrows⟩ := @SeoDatabase.saveMetadata_spec db r.call.a.savedAt given
      refine ⟨fun type id _ => by rw [htargets], fun k hk => ?_⟩
      rw [hrows, if_neg]
      rintro rfl
      exact hk (Or.inr (hid ▸ hlink))
  | missing h hrow =>
      obtain ⟨-, htargets, hrows⟩ := @SeoDatabase.insertMetadata_new db r.call.row hrow
      refine ⟨fun type id _ => congrArg (fun targets => (targets type).get id) htargets, fun k hk => ?_⟩
      refine (hrows k).trans (if_neg ?_)
      rintro rfl
      exact hk (Or.inl rfl)
  | inserted h hrow =>
      refine ⟨fun type id hne => ?_, fun _ _ => rfl⟩
      show ((SeoDatabase.linkMetadata _ _ _ _ _).2.targets _).get _ = _
      rw [SeoDatabase.get_linkMetadata]
      have hother : ¬ (type = r.type ∧ id = r.id) := fun heq => hne (Prod.ext heq.1 heq.2)
      simp only [if_neg hother, Option.map_id']
  | ended h => exact ⟨fun _ _ _ => rfl, fun _ _ => rfl⟩

end SeoRequest

/-! ### Many requests -/

/-- A request under way: the request, and the place it is at. The place alone does not say which
material it is about. -/
structure SeoTask where
  request : SeoRequest
  place : SeoPlace

namespace SeoTask

variable (task : SeoTask) (db : SeoDatabase)

/-- What is left to do. -/
def rest : Prog SeoDatabase Failure SeoFieldValues := task.place.rest task.request.type task.request.id

def advance : SeoTask × SeoDatabase :=
  let next := task.place.advance task.request.type task.request.id db
  (⟨task.request, next.1⟩, next.2)

def points : Points SeoTask SeoDatabase Failure SeoFieldValues :=
  ⟨rest, advance, fun task db =>
    SeoPlace.advance_sound task.request.type task.request.id task.place db⟩

end SeoTask

/-- Requests on different materials, with ids for their rows that nothing has. These are the
conditions under which no two requests have to do with each other. -/
structure Apart {ι : Type} (db₀ : SeoDatabase) (calls : ι → SeoRequest) : Prop where
  unshared : db₀.Unshared
  materials : Function.Injective fun i => (calls i).material
  rowIds : Function.Injective fun i => (calls i).rowId
  fresh : ∀ i, db₀.metadata.get (calls i).rowId = none
  unlinked : ∀ i type id, db₀.linkOf type id ≠ some (calls i).rowId

namespace Apart

variable {ι : Type} {db₀ : SeoDatabase} {calls : ι → SeoRequest} (h : Apart db₀ calls)

include h

/-- A metadata row belongs to one request: rows at the start are unshared, and the ids that are
drawn are new and distinct. -/
theorem eq_of_owns {i j : ι} {k : Uuid} (hi : (calls i).owns db₀ k) (hj : (calls j).owns db₀ k) :
    i = j := by
  rcases hi with rfl | hi
  · rcases hj with hj | hj
    · exact h.rowIds hj
    · exact absurd hj (h.unlinked i _ _)
  · rcases hj with rfl | hj
    · exact absurd hi (h.unlinked j _ _)
    · obtain ⟨htype, hid⟩ := h.unshared _ _ _ _ k hi hj
      exact h.materials (Prod.ext htype hid)

/-- The row of a material that nobody asks about belongs to no request. -/
theorem not_owns {type : SeoEntityType} {id : Uuid} (hother : ∀ i, (calls i).material ≠ (type, id))
    {k : Uuid} (hk : db₀.linkOf type id = some k) (i : ι) : ¬ (calls i).owns db₀ k := by
  rintro (rfl | hi)
  · exact h.unlinked i type id hk
  · obtain ⟨htype, hid⟩ := h.unshared _ _ _ _ k hi hk
    exact hother i (Prod.ext htype hid)

/-- **Requests on different materials have footprints of their own.** -/
def footprints : SeoTask.points.Footprints ι where
  same i := (calls i).Same db₀
  inv i task db := task.request = calls i ∧ (calls i).Works db₀ db task.place
  equivalence i :=
    { refl := fun _ => ⟨rfl, fun _ _ => rfl⟩
      symm := fun hsame => ⟨hsame.target.symm, fun k hk => (hsame.row k hk).symm⟩
      trans := fun hsame hsame' =>
        ⟨hsame.target.trans hsame'.target, fun k hk => (hsame.row k hk).trans (hsame'.row k hk)⟩ }
  inv_same hinv hsame := ⟨hinv.1, hinv.2.same hsame⟩
  inv_step := by
    rintro i ⟨_, place⟩ db ⟨rfl, hworks⟩
    exact ⟨rfl, hworks.step (h.unlinked i _ _)⟩
  reads := by
    rintro i ⟨_, place⟩ db db' ⟨rfl, hworks⟩ hsame
    obtain ⟨hplace, hnext⟩ := hworks.reads hsame
    exact ⟨congrArg (SeoTask.mk (calls i)) hplace, hnext⟩
  writes := by
    rintro i j ⟨_, place⟩ db ⟨rfl, hworks⟩ hij
    obtain ⟨htargets, hrows⟩ := hworks.writes
    refine ⟨(htargets _ _ fun heq => hij (h.materials heq)).symm, fun k hk => (hrows k ?_).symm⟩
    exact fun hi => hij (h.eq_of_owns hk hi)

end Apart

/-! ### A request alone -/

/-- The fields that a body leaves, by the fields before. -/
def SeoService.overridden (dto : SeoMetadataFieldsDto) (seo : SeoFieldValues) : SeoFieldValues :=
  fun field => (SeoService.setFields dto field).getD (seo field)

/-- The fields of the metadata that an update leaves: those of the body, and the others as before.
-/
theorem SeoService.Updates.seo_eq {a : SeoAmbient} {type : SeoEntityType} {id : Uuid}
    {dto : SeoMetadataFieldsDto} {db db' : SeoDatabase} {target : SeoTarget}
    {found : Option MetadataEntity} {row : MetadataEntity}
    (h : SeoService.Updates a type id dto db db' target found row) (hstrings : dto.Strings)
    (hfind : db.findOne type id = some (target, found)) :
    row.columns.seo = SeoService.overridden dto (db.seoFields type id) := by
  funext field
  rw [SeoService.overridden]
  cases hvalue : dto field with
  | some value =>
      obtain ⟨s, rfl⟩ := hstrings field value hvalue
      rw [h.provided field s hvalue, SeoService.setFields_of_str hvalue]
      rfl
  | none =>
      rw [h.kept field hvalue, SeoService.setFields_of_none hvalue, SeoDatabase.seoFields, hfind]
      cases found <;> rfl

/-- A request fails and changes nothing, or answers with the fields that its material has then. -/
theorem SeoRequest.run_prog {db : SeoDatabase} {r : SeoRequest} (hfresh : db.metadata.get r.rowId = none) :
    (∃ failure, r.prog.run db = (.error failure, db)) ∨
      ∃ seo db', r.prog.run db = (.ok seo, db') ∧ db'.seoFields r.type r.id = seo ∧
        seo = SeoService.overridden r.call.dto (db.seoFields r.type r.id) := by
  cases hfind : db.findOne r.type r.id with
  | none => exact Or.inl ⟨_, SeoService.run_update_missing hfind⟩
  | some loaded =>
      obtain ⟨target, found⟩ := loaded
      by_cases hstrings : r.call.dto.Strings
      · obtain ⟨row, db', hrun, hupdates, -⟩ :=
          @SeoService.exists_updates _ _ _ _ r.call.a _ _ hfind hstrings fun _ => hfresh
        obtain ⟨target', hlinked⟩ := hupdates.linked
        refine Or.inr ⟨_, db', hrun, ?_, hupdates.seo_eq hstrings hfind⟩
        rw [SeoDatabase.seoFields, hlinked]
        rfl
      · exact Or.inl ⟨_, SeoService.run_update_typeError hfind hstrings⟩

theorem SeoDatabase.seoFields_congr {db db' : SeoDatabase} {type : SeoEntityType} {id : Uuid}
    (h : db.findOne type id = db'.findOne type id) : db.seoFields type id = db'.seoFields type id := by
  rw [seoFields, seoFields, h]

/-! ### What the schedule leaves -/

section

variable {ι : Type} [DecidableEq ι] {db₀ : SeoDatabase} {calls : ι → SeoRequest}
  {past : List (Entry (Pool ι SeoDatabase Failure SeoFieldValues) ι Unit)}
  {P : Pool ι SeoDatabase Failure SeoFieldValues}

/-- All requests over one database. -/
def bulk (db₀ : SeoDatabase) (calls : ι → SeoRequest) : Pool ι SeoDatabase Failure SeoFieldValues :=
  ⟨db₀, fun i => (calls i).prog⟩

namespace Apart

variable (h : Apart db₀ calls)

include h

/-- The places that the requests are at in a state that a schedule reaches, with the invariant of
each. -/
theorem exists_names (hreach : Pool.machine.Reach (bulk db₀ calls) past P) :
    ∃ N : Points.Names ι SeoTask SeoDatabase, P = SeoTask.points.pool N ∧
      (∀ i, (N.at_ i).request = calls i ∧ (calls i).Works db₀ N.shared (N.at_ i).place) ∧
      (∀ i r, P.task i = .done r → ((calls i).prog.run db₀).1 = r ∧
        (calls i).Same db₀ ((calls i).prog.run db₀).2 N.shared) ∧
      ∀ type id, (∀ i, (calls i).material ≠ (type, id)) →
        N.shared.findOne type id = db₀.findOne type id := by
  have hstart : ∀ i, h.footprints.inv i ⟨calls i, .ready (calls i).call⟩ db₀ :=
    fun i => ⟨rfl, .ready .refl (h.fresh i)⟩
  let start : Points.Names ι SeoTask SeoDatabase := ⟨db₀, fun i => ⟨calls i, .ready (calls i).call⟩⟩
  have hpool : Pool.machine.Reach (SeoTask.points.pool start) past P := hreach
  obtain ⟨named, N, hnames, rfl, -⟩ := SeoTask.points.reach_names hpool
  refine ⟨N, rfl, fun i => (h.footprints.alone hnames hstart i).1, fun i r hdone => ?_, ?_⟩
  · exact h.footprints.ended hnames hstart hdone
  · intro type id hother
    have hkept := h.footprints.kept (P := fun db =>
      (db.targets type).get id = (db₀.targets type).get id ∧
        ∀ k, db₀.linkOf type id = some k → db.metadata.get k = db₀.metadata.get k)
      hnames hstart ⟨rfl, fun _ _ => rfl⟩ ?_
    · refine SeoDatabase.findOne_congr hkept.1 fun k hk => hkept.2 k ?_
      rwa [SeoDatabase.linkOf, hkept.1] at hk
    · rintro i ⟨_, place⟩ db ⟨rfl, hworks⟩ ⟨htarget, hrow⟩
      obtain ⟨htargets, hrows⟩ := hworks.writes
      exact ⟨(htargets type id (hother i).symm).trans htarget, fun k hk =>
        (hrows k (h.not_owns hother hk i)).trans (hrow k hk)⟩

/-- A request that has not answered has changed nothing that is shown: the row that it may have
inserted is not linked yet. -/
theorem seoFields_waiting (hreach : Pool.machine.Reach (bulk db₀ calls) past P) {i : ι}
    (hwaiting : ∀ seo, P.task i ≠ .done (.ok seo)) :
    P.shared.seoFields (calls i).type (calls i).id = db₀.seoFields (calls i).type (calls i).id := by
  obtain ⟨N, rfl, hworks, hended, -⟩ := h.exists_names hreach
  suffices huntouched : (calls i).Untouched db₀ N.shared from
    SeoDatabase.seoFields_congr huntouched.findOne
  obtain ⟨-, hplace⟩ := hworks i
  generalize hat : (N.at_ i).place = place at hplace
  cases hplace with
  | ready huntouched | loaded huntouched | missing huntouched | inserted huntouched => exact huntouched
  | @ended result howned =>
      have hdone : (SeoTask.points.pool N).task i = .done result := by
        show SeoTask.rest (N.at_ i) = _
        rw [SeoTask.rest, hat]
        rfl
      obtain ⟨hresult, hsame⟩ := hended i result hdone
      rcases (calls i).run_prog (h.fresh i) with ⟨failure, hrun⟩ | ⟨seo, db', hrun, -⟩
      · rw [hrun] at hsame
        exact SeoRequest.Untouched.refl.same hsame
      · rw [hrun] at hresult
        exact absurd (hdone.trans (congrArg Prog.done hresult.symm)) (hwaiting seo)

/-- A request that has answered is shown: alone it would have left the answered fields, and the
others have not touched what it writes. -/
theorem seoFields_answered (hreach : Pool.machine.Reach (bulk db₀ calls) past P) {i : ι}
    {seo : SeoFieldValues} (hanswered : P.task i = .done (.ok seo)) :
    P.shared.seoFields (calls i).type (calls i).id = seo ∧
      seo = SeoService.overridden (calls i).call.dto
        (db₀.seoFields (calls i).type (calls i).id) := by
  obtain ⟨N, rfl, hworks, hended, -⟩ := h.exists_names hreach
  obtain ⟨hresult, hsame⟩ := hended i _ hanswered
  rcases (calls i).run_prog (h.fresh i) with ⟨failure, hrun⟩ | ⟨seo', db', hrun, hseo, hoverridden⟩
  · rw [hrun] at hresult
    cases hresult
  · rw [hrun] at hresult hsame
    obtain rfl := Except.ok.inj hresult
    refine ⟨?_, hoverridden⟩
    rw [← hseo]
    refine SeoDatabase.seoFields_congr (SeoDatabase.findOne_congr hsame.target ?_).symm
    exact fun k hk => hsame.row k (((hworks i).2.owned.same hsame.target) k hk)

end Apart

/-- How the entry of a material changes: only in its SEO fields, and these are what the request on
the material has answered, if it has. -/
structure Shows (calls : ι → SeoRequest)
    (task : SeoEntityType → ι → Prog SeoDatabase Failure SeoFieldValues) (before after : SeoEntry) :
    Prop where
  frame : after = { before with metadata := after.metadata }
  answered : ∀ i seo, (calls i).material = before.material → task before.type i = .done (.ok seo) →
    after.metadata = seo ∧ seo = SeoService.overridden (calls i).call.dto before.metadata
  waiting : (∀ i, (calls i).material = before.material → ∀ seo, task before.type i ≠ .done (.ok seo)) →
    after.metadata = before.metadata

variable {task : SeoEntityType → ι → Prog SeoDatabase Failure SeoFieldValues}

namespace Apart

variable (h : Apart db₀ calls)

include h

/-- The entries of one material at two moments differ in nothing but the metadata, since the content
is one. -/
theorem shows_of_frame {before after : SeoEntry}
    (hreach : Pool.machine.Reach (bulk db₀ calls) past P) (htask : task before.type = P.task)
    (hframe : after = { before with metadata := after.metadata })
    (hbefore : before.metadata = db₀.seoFields before.type before.id)
    (hafter : after.metadata = P.shared.seoFields before.type before.id) :
    Shows calls task before after := by
  refine ⟨hframe, fun i seo hmaterial hdone => ?_, fun hwaiting => ?_⟩
  · rw [htask] at hdone
    obtain ⟨htype, hid⟩ := Prod.mk.inj hmaterial
    rw [hafter, hbefore, ← htype, ← hid]
    exact h.seoFields_answered hreach hdone
  · rw [hafter, hbefore]
    by_cases hasked : ∃ i, (calls i).material = before.material
    · obtain ⟨i, hmaterial⟩ := hasked
      have hnone := hwaiting i hmaterial
      rw [htask] at hnone
      obtain ⟨htype, hid⟩ := Prod.mk.inj hmaterial
      rw [← htype, ← hid]
      exact h.seoFields_waiting hreach hnone
    · obtain ⟨N, rfl, -, -, hkept⟩ := h.exists_names hreach
      exact SeoDatabase.seoFields_congr (hkept _ _ fun i hi => hasked ⟨i, hi⟩)

end Apart

/-- **Bulk edits are shown**, in every interleaving and whatever moments the queries of the overview
find: requests on different materials are answered as each of them would be alone, and the overview
shows what it showed before any of them, with the answers given by then in place of the fields of
their materials. -/
theorem bulk_edits_shown [Collation] (h : Apart db₀ calls) (listing₀ listing : SeoListing)
    (content : Content) (moment : SeoEntityType → Pool ι SeoDatabase Failure SeoFieldValues)
    (hreach : ∀ type, ∃ past, Pool.machine.Reach (bulk db₀ calls) past (moment type)) :
    (∀ type i result, (moment type).task i = .done result →
      result = ((calls i).prog.run db₀).1) ∧
    ∃ entries, entries.Perm (SeoService.findEntries listing₀ (fun _ => content) fun _ => db₀) ∧
      List.Forall₂ (Shows calls fun type => (moment type).task) entries
        (SeoService.findEntries listing (fun _ => content) fun type => (moment type).shared) := by
  refine ⟨fun type i result hdone => ?_, ?_⟩
  · obtain ⟨past, hpast⟩ := hreach type
    obtain ⟨N, -, -, hended, -⟩ := h.exists_names hpast
    exact (hended i result hdone).1.symm
  -- Each kind is shown as its own moment has it; the entries differ in nothing else.
  · have hshows : ∀ type (before after : SeoEntry), before.type = type →
        after = { before with metadata := after.metadata } →
        before.metadata = db₀.seoFields type before.id →
        after.metadata = (moment type).shared.seoFields type before.id →
        Shows calls (fun type => (moment type).task) before after := by
      rintro type before after rfl hframe hbefore hafter
      obtain ⟨past, hpast⟩ := hreach before.type
      exact h.shows_of_frame hpast rfl hframe hbefore hafter
    refine ⟨SeoService.findEntries listing (fun _ => content) fun _ => db₀, ?_, ?_⟩
    · exact SeoService.perm_findEntries
    · have hkind : ∀ {ρ : Type} (rows : List ρ) (entry entry' : ρ → SeoEntry),
          (∀ row, Shows calls (fun type => (moment type).task) (entry row) (entry' row)) →
            List.Forall₂ (Shows calls fun type => (moment type).task) (rows.map entry)
              (rows.map entry') := by
        intro ρ rows entry entry' hrow
        rw [List.forall₂_map_left_iff, List.forall₂_map_right_iff, List.forall₂_same]
        exact fun row _ => hrow row
      -- The three queries of the overview, one after the other.
      refine List.rel_append (List.rel_append ?_ ?_) ?_
      · exact hkind _ _ _ fun topic => hshows .topic _ _ rfl rfl rfl rfl
      · exact hkind _ _ _ fun post => hshows .post _ _ rfl rfl rfl rfl
      · exact hkind _ _ _ fun page => hshows .page _ _ rfl rfl rfl rfl

end

/-! ### A post and a topic -/

section

open SeoService

attribute [local instance] Collation.ascii

/-- A title for the vaccines, and one for the dogs. -/
def twoEdits : Bool → SeoRequest
  | false =>
      { type := .post, id := vaccines.id
        call := ⟨⟨⟨"vaccines-seo", by decide⟩, 5, 6⟩, fun field =>
          if field = .metaTitle then some (.str " Shots ") else none⟩ }
  | true =>
      { type := .topic, id := dogs.id
        call := ⟨⟨⟨"dogs-seo", by decide⟩, 5, 6⟩, fun field =>
          if field = .metaTitle then some (.str "All dogs") else none⟩ }

theorem linkOf_kennelRows (type : SeoEntityType) (id : Uuid) : kennelRows.linkOf type id = none := by
  have hnone : ∀ target ∈ (kennelRows.targets type).rows, target.metadata = none := by
    cases type <;> decide
  rw [SeoDatabase.linkOf, Option.bind_eq_none_iff]
  exact fun target htarget => hnone target (Table.get_eq_some.1 htarget).1

theorem twoEdits_apart : Apart kennelRows twoEdits where
  unshared type id type' id' k hk := by
    rw [linkOf_kennelRows] at hk
    cases hk
  materials := by
    have hmaterials : ∀ i j, (twoEdits i).material = (twoEdits j).material → i = j := by decide
    exact fun i j => hmaterials i j
  rowIds := by
    have hrowIds : ∀ i j, (twoEdits i).rowId = (twoEdits j).rowId → i = j := by decide
    exact fun i j => hrowIds i j
  fresh := by decide
  unlinked i type id := by
    rw [linkOf_kennelRows]
    exact fun h => by cases h

/-- The vaccines are linked to their row, and the dogs not yet. -/
theorem two_edits_shown :
    let later := (Pool.machine.run (bulk kennelRows twoEdits) [false, true, false, true, false]).2
    (∃ seo, later.task false = .done (.ok seo) ∧ seo .metaTitle = some "Shots") ∧
      ∃ entries, entries.Perm (findEntries .sorting (fun _ => kennelPage) fun _ => kennelRows) ∧
        List.Forall₂ (Shows twoEdits fun _ => later.task) entries
          (findEntries .sorting (fun _ => kennelPage) fun _ => later.shared) := by
  intro later
  have hreach := Machine.reach_run Pool.machine (bulk kennelRows twoEdits) [false, true, false, true, false]
  obtain ⟨-, hentries⟩ :=
    bulk_edits_shown twoEdits_apart .sorting .sorting kennelPage (fun _ => later) fun _ => ⟨_, hreach⟩
  exact ⟨⟨_, rfl, by decide +kernel⟩, hentries⟩

end

end VetHealth
