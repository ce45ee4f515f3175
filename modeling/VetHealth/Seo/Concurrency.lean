import VetHealth.Lib.Snapshot
import VetHealth.Seo.Update

/-!
# VetHealth.Seo.Concurrency

**Two SEO updates of one entity at the same time.** A request reads the metadata row of the entity,
and later writes the whole row that it has read with its own fields replaced; or it finds none, and
inserts a row of its own before it links the entity to that.

For what is read of the entity's metadata, two such requests are the two editors of
`VetHealth.Lib.Snapshot` (`Follows.next`): reading is the load, writing is the save or the link, and
an entity without metadata costs one step more, the insert. What both of them leave follows from
there (`updates_keep_fields_iff`).
-/

namespace VetHealth

open Js Store Resumption Transition Snapshot

/-- A request on a fixed entity. -/
structure SeoCall where
  a : SeoAmbient
  dto : SeoMetadataFieldsDto

/-- Where a request can be suspended. -/
inductive SeoPlace
  | ready (c : SeoCall)
  /-- It has read the metadata row. -/
  | loaded (c : SeoCall) (row : MetadataEntity)
  /-- It has found the entity without metadata. -/
  | missing (c : SeoCall)
  /-- It has inserted its own row. -/
  | inserted (c : SeoCall) (row : MetadataEntity)
  | ended (r : Except Failure SeoFieldValues)

namespace SeoPlace

open SeoService

variable (type : SeoEntityType) (id : Uuid)

/-- What is left to do. -/
def rest : SeoPlace → Prog SeoDatabase Failure SeoFieldValues
  | .ready c => update c.a type id c.dto
  | .loaded c row => do
      let saved ← Prog.atomic fun db =>
        db.saveMetadata c.a.savedAt { row with columns := merge row.columns (setFields c.dto) }
      return pickSeoFields saved
  | .missing c => do
      let created ← Prog.atomic fun db => db.insertMetadata (created c.a (setFields c.dto))
      Prog.atomic fun db => db.linkMetadata c.a.linkedAt type id created.id
      return pickSeoFields created
  | .inserted c row => do
      Prog.atomic fun db => db.linkMetadata c.a.linkedAt type id row.id
      return pickSeoFields row
  | .ended r => Prog.lift r

/-- The next statement, and where it leads. -/
def advance : SeoPlace → SeoDatabase → SeoPlace × SeoDatabase
  | .ready c, db =>
      (match db.findOne type id with
      | none => .ended (.error .notFound)
      | some (_, found) =>
          match values c.dto with
          | .error e => .ended (.error e)
          | .ok _ =>
              match found with
              | some row => .loaded c row
              | none => .missing c, db)
  | .loaded c row, db =>
      let saved := db.saveMetadata c.a.savedAt { row with columns := merge row.columns (setFields c.dto) }
      (.ended (saved.1.map pickSeoFields), saved.2)
  | .missing c, db =>
      let inserted := db.insertMetadata (created c.a (setFields c.dto))
      (match inserted.1 with
      | .ok row => .inserted c row
      | .error e => .ended (.error e), inserted.2)
  | .inserted c row, db =>
      (.ended (.ok (pickSeoFields row)), (db.linkMetadata c.a.linkedAt type id row.id).2)
  | .ended r, db => (.ended r, db)

theorem advance_sound (p : SeoPlace) (db : SeoDatabase) :
    (rest type id p).advance db = (rest type id (advance type id p db).1, (advance type id p db).2) := by
  cases p with
  | ready c =>
      show (update c.a type id c.dto).advance db = _
      unfold update advance
      rw [Prog.advance_atomic_bind]
      refine Prod.ext ?_ rfl
      dsimp only
      cases db.findOne type id with
      | none => rfl
      | some loaded =>
          obtain ⟨target, found⟩ := loaded
          dsimp only
          cases hvalues : values c.dto with
          | error e => rfl
          | ok v =>
              obtain rfl := (values_eq_ok.1 hvalues).2
              cases found <;> rfl
  | loaded c row =>
      unfold rest advance
      rw [Prog.advance_atomic_bind]
      refine Prod.ext ?_ rfl
      dsimp only
      cases (db.saveMetadata c.a.savedAt
        { row with columns := merge row.columns (setFields c.dto) }).1 <;> rfl
  | missing c =>
      unfold rest advance
      rw [Prog.advance_atomic_bind]
      refine Prod.ext ?_ rfl
      dsimp only
      cases (db.insertMetadata (created c.a (setFields c.dto))).1 <;> rfl
  | inserted c row => rfl
  | ended r => rfl

/-- The places of a request on an entity. -/
def points : Points SeoPlace SeoDatabase Failure SeoFieldValues :=
  ⟨rest type id, advance type id, advance_sound type id⟩

end SeoPlace

/-! ### Two requests are two editors -/

/-- The entity is there, and `link` is its metadata column. Only the last statement of a request
that inserts a row changes the link. -/
def SeoDatabase.Links (db : SeoDatabase) (type : SeoEntityType) (id : Uuid) (link : Option Uuid) :
    Prop :=
  ∃ target, (db.targets type).get id = some target ∧ target.deletedAt = false ∧ target.metadata = link

/-- No metadata row has the id, and the entity is not linked to it: the id is free for a request to
insert its row under. -/
def SeoDatabase.Unused (db : SeoDatabase) (link : Option Uuid) (rowId : Uuid) : Prop :=
  db.metadata.get rowId = none ∧ link ≠ some rowId

/-- What the requests make of the metadata that they read, and how long they work on it. The editors
know nothing of rows and links; they read a value and later put one in its place. -/
def seoEditors (calls : Bool → SeoCall) : Editors (Option MetadataColumns) where
  edit i read := some <| SeoService.merge
    (read.getD (.create (fun _ => none) (calls i).a.savedAt)) (SeoService.setFields (calls i).dto)
  work
    | some _ => 0
    | none => 1

/-- The row that a request inserts. -/
def SeoCall.row (c : SeoCall) : MetadataEntity := SeoService.created c.a (SeoService.setFields c.dto)

/-- What a request at a place has in common with an editor: what it has read, and how many
statements it has left. -/
inductive Follows (db : SeoDatabase) (link : Option Uuid) (c : SeoCall) :
    SeoPlace → Phase (Option MetadataColumns) → Prop
  | ready : db.Unused link c.a.rowId → Follows db link c (.ready c) .idle
  | loaded {row stored : MetadataEntity} : link = some row.id → db.metadata.get row.id = some stored →
      Follows db link c (.loaded c row) (.editing (some row.columns) 0)
  | missing : db.Unused link c.a.rowId → Follows db link c (.missing c) (.editing none 1)
  | inserted : db.metadata.get c.a.rowId = some c.row →
      Follows db link c (.inserted c c.row) (.editing none 0)
  | ended {seo : SeoFieldValues} : Follows db link c (.ended (.ok seo)) .done

/-- What a step of the other request must keep, so that a request stays where it is. -/
theorem Follows.frame {db db' : SeoDatabase} {link link' : Option Uuid} {c : SeoCall}
    {place : SeoPlace} {phase : Phase (Option MetadataColumns)} (h : Follows db link c place phase)
    (hunused : db.Unused link c.a.rowId → db'.Unused link' c.a.rowId)
    (hloaded : ∀ k stored, link = some k → db.metadata.get k = some stored → phase ≠ .done →
      link' = some k ∧ ∃ stored', db'.metadata.get k = some stored')
    (hinserted : phase = .editing none 0 → db.metadata.get c.a.rowId = some c.row →
      db'.metadata.get c.a.rowId = some c.row) : Follows db' link' c place phase := by
  cases h with
  | ready h => exact .ready (hunused h)
  | @loaded row stored hlink hstored =>
      obtain ⟨hlink', stored', hstored'⟩ := hloaded row.id stored hlink hstored (by simp)
      exact .loaded hlink' hstored'
  | missing h => exact .missing (hunused h)
  | inserted h => exact .inserted (hinserted rfl h)
  | ended => exact .ended

/-- Two requests and two editors are at the same point. The last condition is why no request that
has read a metadata row is overtaken by one that links the entity to a new row. -/
structure Simulates (type : SeoEntityType) (id : Uuid) (calls : Bool → SeoCall) (link : Option Uuid)
    (N : Points.Names Bool SeoPlace SeoDatabase) (D : Desk (Option MetadataColumns)) : Prop where
  links : N.shared.Links type id link
  value : D.value = (link.bind N.shared.metadata.get).map MetadataEntity.columns
  follows : ∀ i, Follows N.shared link (calls i) (N.at_ i) (D.phase i)
  waits : ∀ i left, D.phase i = .editing none left → D.value = none ∨ D.phase (!i) = .done

/-- A statement about both of them, after a step of one. The one that has moved and the one that has
not are two goals. -/
theorem forall_update {α β : Type} {f : Bool → α} {g : Bool → β} {i : Bool} {x : α} {y : β}
    {P : Bool → α → β → Prop} (hi : P i x y) (hother : P (!i) (f (!i)) (g (!i))) (j : Bool) :
    P j (Function.update f i x j) (Function.update g i y j) := by
  rcases eq_or_eq_other j i with rfl | rfl
  · rwa [Function.update_self, Function.update_self]
  · have hne : (!i) ≠ i := by simp
    rwa [Function.update_of_ne hne, Function.update_of_ne hne]

namespace Simulates

variable {type : SeoEntityType} {id : Uuid} {calls : Bool → SeoCall} {link : Option Uuid}
  {N : Points.Names Bool SeoPlace SeoDatabase} {D : Desk (Option MetadataColumns)} {i : Bool}

/-- The names after a step of `i`. -/
theorem next_names :
    (SeoPlace.points type id).machine.next N i =
      ⟨(SeoPlace.advance type id (N.at_ i) N.shared).2,
        Function.update N.at_ i (SeoPlace.advance type id (N.at_ i) N.shared).1⟩ := rfl

theorem findOne (h : Simulates type id calls link N D) :
    ∃ target, N.shared.findOne type id = some (target, link.bind N.shared.metadata.get) := by
  obtain ⟨target, htarget, hlive, rfl⟩ := h.links
  exact ⟨target, SeoDatabase.findOne_eq_some.2 ⟨htarget, hlive, rfl⟩⟩

/-- While one request has not come to its end, the other finds no metadata only if there is none. -/
theorem value_none (h : Simulates type id calls link N D) {left : Nat}
    (hediting : D.phase (!i) = .editing none left) (hphase : D.phase i ≠ .done) : D.value = none := by
  refine (h.waits (!i) left hediting).resolve_right ?_
  rwa [Bool.not_not]

/-- Both read the metadata, the request in a row and the editor as a value. -/
theorem step_ready (h : Simulates type id calls link N D) (hstrings : ∀ i, (calls i).dto.Strings)
    (hplace : N.at_ i = .ready (calls i)) (hphase : D.phase i = .idle)
    (hunused : N.shared.Unused link (calls i).a.rowId) :
    Simulates type id calls link ((SeoPlace.points type id).machine.next N i)
      ((seoEditors calls).machine.next D i) := by
  obtain ⟨target, hfound⟩ := h.findOne
  have hvalues := SeoService.values_eq_ok.2 ⟨hstrings i, rfl⟩
  rw [next_names, Editors.next_idle hphase, hplace, SeoPlace.advance, hfound]
  simp only [hvalues]
  refine ⟨h.links, h.value, ?_, ?_⟩
  · refine forall_update (P := Follows N.shared link ∘ calls) ?_ (h.follows _)
    show Follows N.shared link (calls i) _ (.editing D.value _)
    rw [h.value]
    cases hmeta : link.bind N.shared.metadata.get with
    | none => exact .missing hunused
    | some row =>
        obtain ⟨k, rfl, hget⟩ := Option.bind_eq_some_iff.1 hmeta
        obtain rfl := (Table.get_eq_some.1 hget).2
        exact .loaded rfl hget
  · intro j left hediting
    dsimp only at hediting ⊢
    rcases eq_or_eq_other j i with rfl | rfl
    · rw [Function.update_self] at hediting
      exact Or.inl (Phase.editing.inj hediting).1
    · rw [Function.update_of_ne (by simp)] at hediting
      exact Or.inl (h.value_none hediting (by simp [hphase]))

/-- No request waits for one that has come to its end, so that the last condition of the simulation
is kept. -/
theorem waits_of_done {value : Option MetadataColumns} {phase : Bool → Phase (Option MetadataColumns)}
    (j : Bool) (left : Nat) (hediting : Function.update phase i .done j = .editing none left) :
    value = none ∨ Function.update phase i .done (!j) = .done := by
  rcases eq_or_eq_other j i with rfl | rfl
  · rw [Function.update_self] at hediting
    cases hediting
  · exact Or.inr (by rw [Bool.not_not, Function.update_self])

/-- One request saves the row that it has read, whatever has become of it meanwhile. This is the
write that loses fields. -/
theorem step_loaded (h : Simulates type id calls link N D) {row stored : MetadataEntity}
    (hplace : N.at_ i = .loaded (calls i) row) (hphase : D.phase i = .editing (some row.columns) 0)
    (hlink : link = some row.id) (hstored : N.shared.metadata.get row.id = some stored) :
    Simulates type id calls link ((SeoPlace.points type id).machine.next N i)
      ((seoEditors calls).machine.next D i) := by
  let given := { row with columns := SeoService.merge row.columns (SeoService.setFields (calls i).dto) }
  obtain ⟨hresult, htargets, hrows⟩ :=
    @SeoDatabase.saveMetadata_stored N.shared (calls i).a.savedAt given stored hstored
  rw [next_names, Editors.next_write hphase, hplace, SeoPlace.advance]
  refine ⟨?_, ?_, ?_, waits_of_done⟩
  · show ∃ target, ((SeoDatabase.saveMetadata _ _ given).2.targets type).get id = some target ∧ _
    rw [htargets]
    exact h.links
  · show some _ = (link.bind (SeoDatabase.saveMetadata _ _ given).2.metadata.get).map _
    rw [hlink, Option.bind_some, hrows, if_pos rfl, Option.map_some]
    by_cases hsame : given = stored
    · rw [if_pos hsame, ← hsame]
      rfl
    · rw [if_neg hsame]
      rfl
  · refine forall_update (P := Follows _ link ∘ calls) ?_ ?_
    · show Follows _ link (calls i) (.ended ((SeoDatabase.saveMetadata _ _ given).1.map _)) .done
      rw [hresult]
      exact .ended
    · refine (h.follows (!i)).frame ?_ ?_ ?_
      · rintro ⟨hfree, hlinked⟩
        refine ⟨?_, hlinked⟩
        have hne : (calls (!i)).a.rowId ≠ given.id := by
          rintro heq
          rw [heq, show N.shared.metadata.get given.id = _ from hstored] at hfree
          cases hfree
        show (SeoDatabase.saveMetadata _ _ given).2.metadata.get _ = none
        rw [hrows, if_neg hne, hfree]
      · intro k stored' hlink' hstored' _
        refine ⟨hlink', ?_⟩
        show ∃ stored', (SeoDatabase.saveMetadata _ _ given).2.metadata.get k = some stored'
        rw [hrows]
        split
        · exact ⟨_, rfl⟩
        · exact ⟨stored', hstored'⟩
      · intro hediting _
        -- nobody waits to link while the entity has metadata
        have hnone := h.value_none hediting (by simp [hphase])
        rw [h.value, hlink, Option.bind_some, hstored] at hnone
        cases hnone

/-- One request inserts its row. Nothing is shown of it yet, so the editor only comes a statement
closer to its write. -/
theorem step_missing (h : Simulates type id calls link N D)
    (hids : (calls i).a.rowId ≠ (calls (!i)).a.rowId) (hplace : N.at_ i = .missing (calls i))
    (hphase : D.phase i = .editing none 1) (hunused : N.shared.Unused link (calls i).a.rowId) :
    Simulates type id calls link ((SeoPlace.points type id).machine.next N i)
      ((seoEditors calls).machine.next D i) := by
  obtain ⟨hresult, htargets, hrows⟩ := @SeoDatabase.insertMetadata_new N.shared (calls i).row hunused.1
  rw [next_names, Editors.next_editing hphase, hplace, SeoPlace.advance]
  -- The four parts of the simulation: the link and the value have not changed, since the new row is
  -- not linked.
  refine ⟨?_, ?_, ?_, ?_⟩
  · show ∃ target, ((SeoDatabase.insertMetadata _ (calls i).row).2.targets type).get id = some target ∧ _
    rw [htargets]
    exact h.links
  · show D.value = (link.bind (SeoDatabase.insertMetadata _ (calls i).row).2.metadata.get).map _
    rw [h.value]
    cases hlink : link with
    | none => rfl
    | some k =>
        have hne : k ≠ (calls i).row.id := fun hk => hunused.2 (hlink.trans (congrArg some hk))
        rw [Option.bind_some, Option.bind_some, hrows, if_neg hne]
  · refine forall_update (P := Follows _ link ∘ calls) ?_ ?_
    · show Follows (SeoDatabase.insertMetadata _ (calls i).row).2 link (calls i)
        (match (SeoDatabase.insertMetadata _ (calls i).row).1 with
          | .ok row => .inserted (calls i) row
          | .error e => .ended (.error e)) _
      rw [hresult]
      exact .inserted ((hrows _).trans (if_pos rfl))
    -- The other request keeps its place: the new id is neither its own nor that of the row it has
    -- read.
    · have hkeeps : ∀ k, k ≠ (calls i).row.id →
          (SeoDatabase.insertMetadata N.shared (calls i).row).2.metadata.get k =
            N.shared.metadata.get k := by
        intro k hk
        rw [hrows, if_neg hk]
      refine (h.follows (!i)).frame ?_ ?_ ?_
      · rintro ⟨hfree, hlinked⟩
        exact ⟨(hkeeps _ hids.symm).trans hfree, hlinked⟩
      · intro k stored hlink hstored _
        refine ⟨hlink, stored, (hkeeps _ ?_).trans hstored⟩
        rintro rfl
        exact hunused.2 hlink
      · intro _ hrow
        exact (hkeeps _ hids.symm).trans hrow
  · intro j left hediting
    dsimp only at hediting ⊢
    -- Either had found no metadata before this step, and there is none yet.
    rcases eq_or_eq_other j i with rfl | rfl
    · rcases h.waits _ 1 hphase with hnone | hdone
      · exact Or.inl hnone
      · exact Or.inr (by rwa [Function.update_of_ne (by simp)])
    · rw [Function.update_of_ne (by simp)] at hediting
      exact Or.inl (h.value_none hediting (by simp [hphase]))

/-- One request links the entity to its row, which takes the place of whatever it was linked to. -/
theorem step_inserted (h : Simulates type id calls link N D)
    (hids : (calls i).a.rowId ≠ (calls (!i)).a.rowId)
    (hplace : N.at_ i = .inserted (calls i) (calls i).row) (hphase : D.phase i = .editing none 0)
    (hrow : N.shared.metadata.get (calls i).a.rowId = some (calls i).row) :
    Simulates type id calls (some (calls i).a.rowId) ((SeoPlace.points type id).machine.next N i)
      ((seoEditors calls).machine.next D i) := by
  obtain ⟨target, htarget, hlive, -⟩ := h.links
  have hlinks := @SeoDatabase.get_linkMetadata N.shared type id (calls i).a.linkedAt
    (calls i).a.rowId type id
  rw [htarget, Option.map_some, if_pos ⟨rfl, rfl⟩] at hlinks
  rw [next_names, Editors.next_write hphase, hplace, SeoPlace.advance]
  refine ⟨⟨_, hlinks, hlive, rfl⟩, ?_, ?_, waits_of_done⟩
  · show some _ = ((some (calls i).a.rowId).bind N.shared.metadata.get).map _
    rw [Option.bind_some, hrow]
    rfl
  · refine forall_update (P := Follows _ _ ∘ calls) .ended ?_
    refine (h.follows (!i)).frame ?_ ?_ fun _ hother => hother
    · rintro ⟨hfree, -⟩
      exact ⟨hfree, fun heq => hids (Option.some.inj heq)⟩
    · intro k stored hlink hstored hother
      -- the entity has no metadata, unless the other request has come to its end
      exfalso
      rcases h.waits i 0 hphase with hnone | hdone
      · rw [h.value, hlink, Option.bind_some, hstored] at hnone
        cases hnone
      · exact hother hdone

/-- **A step of the two requests is a step of the two editors.** -/
theorem step (h : Simulates type id calls link N D) (hstrings : ∀ i, (calls i).dto.Strings)
    (hids : (calls true).a.rowId ≠ (calls false).a.rowId) (i : Bool) :
    ∃ link', Simulates type id calls link' ((SeoPlace.points type id).machine.next N i)
      ((seoEditors calls).machine.next D i) := by
  have hids' : (calls i).a.rowId ≠ (calls (!i)).a.rowId := by
    cases i with
    | true => exact hids
    | false => exact hids.symm
  have hfollows := h.follows i
  generalize hplace : N.at_ i = place, hphase : D.phase i = phase at hfollows
  cases hfollows with
  | ready hunused => exact ⟨_, h.step_ready hstrings hplace hphase hunused⟩
  | loaded hlink hstored => exact ⟨_, h.step_loaded hplace hphase hlink hstored⟩
  | missing hunused => exact ⟨_, h.step_missing hids' hplace hphase hunused⟩
  | inserted hrow => exact ⟨_, h.step_inserted hids' hplace hphase hrow⟩
  | ended =>
      refine ⟨link, ?_⟩
      rw [next_names, Editors.next_done hphase, hplace, SeoPlace.advance, ← hplace,
        Function.update_eq_self]
      exact h

/-- **Every schedule of the two requests is one of the two editors.** -/
theorem run (h : Simulates type id calls link N D) (hstrings : ∀ i, (calls i).dto.Strings)
    (hids : (calls true).a.rowId ≠ (calls false).a.rowId) (picks : List Bool) :
    ∃ link', Simulates type id calls link' ((SeoPlace.points type id).machine.run N picks).2
      ((seoEditors calls).run D picks) := by
  induction picks generalizing link N D with
  | nil => exact ⟨link, h⟩
  | cons i picks ih =>
      obtain ⟨link', hnext⟩ := h.step hstrings hids i
      exact ih hnext

/-- A request that has no statement left is an editor that has come to its end. -/
theorem finished (h : Simulates type id calls link N D)
    (hdone : ∀ i, ∃ r, (N.at_ i).rest type id = .done r) : D.Finished := by
  intro i
  have hfollows := h.follows i
  obtain ⟨r, hrest⟩ := hdone i
  generalize N.at_ i = place, D.phase i = phase at hfollows hrest
  cases hfollows with
  | ended => rfl
  | _ => cases hrest

end Simulates

/-! ### What two requests leave -/

/-- The columns of the metadata row of an entity, apart from `updatedAt`. Only these are compared.
-/
def SeoDatabase.columnsOf (db : SeoDatabase) (type : SeoEntityType) (id : Uuid) :
    Option MetadataColumns :=
  ((db.findOne type id).bind Prod.snd).map MetadataEntity.columns

theorem Simulates.columnsOf {type : SeoEntityType} {id : Uuid} {calls : Bool → SeoCall}
    {link : Option Uuid} {N : Points.Names Bool SeoPlace SeoDatabase}
    {D : Desk (Option MetadataColumns)} (h : Simulates type id calls link N D) :
    N.shared.columnsOf type id = D.value := by
  obtain ⟨target, hfound⟩ := h.findOne
  rw [SeoDatabase.columnsOf, hfound, h.value]
  rfl

namespace SeoService

variable (db : SeoDatabase) (type : SeoEntityType) (id : Uuid) (calls : Bool → SeoCall)

/-- Two requests on one entity, as programs of which a schedule takes one statement after the other.
-/
def twoUpdates : Pool Bool SeoDatabase Failure SeoFieldValues :=
  ⟨db, fun i => update (calls i).a type id (calls i).dto⟩

/-- The metadata has every field that either request sets, and is otherwise as before. -/
def KeepsFields (calls : Bool → SeoCall) (before after : Option MetadataColumns) : Prop :=
  ∃ columns, after = some columns ∧
    (∀ i field s, (calls i).dto field = some (.str s) → columns.seo field = trimOrNull s) ∧
    (∀ field, (∀ i, (calls i).dto field = none) →
      columns.seo field = before.bind fun stored => stored.seo field) ∧
    ∀ stored, before = some stored → { columns with seo := stored.seo } = stored

/-- The statements that a request makes: two when it finds a metadata row, three when it does not.
-/
def statements : Option MetadataColumns → Nat
  | some _ => 2
  | none => 3

/-- The request that completes first does so before the other one begins, or it sets every field
to what it was. -/
def NothingLost (calls : Bool → SeoCall) (before : Option MetadataColumns) (picks : List Bool) :
    Prop :=
  ∃ i, First (fun _ => statements before) i picks ∧
    (Alone (statements before) i picks ∨
      ∀ field s, (calls i).dto field = some (.str s) →
        (before.bind fun stored => stored.seo field) = trimOrNull s)

theorem statements_eq (before : Option MetadataColumns) :
    statements before = (seoEditors calls).work before + 2 := by
  cases before <;> rfl

variable {calls} {before : Option MetadataColumns}

/-- What is read of an entity without metadata. -/
theorem seo_getD (t : Int) (field : SeoField) :
    (before.getD (.create (fun _ => none) t)).seo field =
      before.bind fun stored => stored.seo field := by
  cases before <;> rfl

/-- One request after the other: the second one keeps the fields of the first, as no field is in
both bodies. -/
theorem keepsFields_both (hdisjoint : ∀ i field, (calls i).dto field ≠ none →
      (calls (!i)).dto field = none) (i : Bool) :
    KeepsFields calls before ((seoEditors calls).edit (!i) ((seoEditors calls).edit i before)) := by
  refine ⟨_, rfl, ?_, ?_, ?_⟩
  · intro j field s hs
    rcases eq_or_eq_other j i with rfl | rfl
    · have hother := hdisjoint j field (by simp [hs])
      exact (seo_merge_of_none hother).trans (seo_merge_of_str hs)
    · exact seo_merge_of_str hs
  · intro field hnone
    refine (seo_merge_of_none (hnone _)).trans ((seo_merge_of_none (hnone _)).trans ?_)
    exact seo_getD _ field
  · rintro stored rfl
    rfl

/-- The second one alone keeps both when the first one would have changed nothing. -/
theorem keepsFields_second (hdisjoint : ∀ i field, (calls i).dto field ≠ none →
      (calls (!i)).dto field = none) (i : Bool) :
    KeepsFields calls before ((seoEditors calls).edit (!i) before) ↔
      ∀ field s, (calls i).dto field = some (.str s) →
        (before.bind fun stored => stored.seo field) = trimOrNull s := by
  have hleft : ∀ field, (calls (!i)).dto field = none →
      (merge (before.getD (.create (fun _ => none) (calls (!i)).a.savedAt))
        (setFields (calls (!i)).dto)).seo field = before.bind fun stored => stored.seo field := by
    intro field hnone
    exact (seo_merge_of_none hnone).trans (seo_getD _ field)
  constructor
  · rintro ⟨columns, hcolumns, hprovided, -, -⟩ field s hs
    obtain rfl := Option.some.inj hcolumns
    have hother := hdisjoint i field (by simp [hs])
    rw [← hleft field hother]
    exact hprovided i field s hs
  · intro hset
    refine ⟨_, rfl, ?_, fun field hnone => hleft field (hnone _), ?_⟩
    · intro j field s hs
      rcases eq_or_eq_other j i with rfl | rfl
      · exact (hleft field (hdisjoint j field (by simp [hs]))).trans (hset field s hs)
      · exact seo_merge_of_str hs
    · rintro stored rfl
      rfl

/-- Two requests that come to their end leave what two editors leave. From here on only the editors
are reasoned about. -/
theorem columnsOf_run {link : Option Uuid} (hlinks : db.Links type id link)
    (hstrings : ∀ i, (calls i).dto.Strings)
    (hunused : ∀ i, db.Unused link (calls i).a.rowId)
    (hids : (calls true).a.rowId ≠ (calls false).a.rowId) (picks : List Bool)
    (hdone : ∀ i, ∃ r, (Pool.machine.run (twoUpdates db type id calls) picks).2.task i = .done r) :
    let desk := (seoEditors calls).run ⟨db.columnsOf type id, fun _ => .idle⟩ picks
    desk.Finished ∧
      (Pool.machine.run (twoUpdates db type id calls) picks).2.shared.columnsOf type id =
        desk.value := by
  have hstart : Simulates type id calls link ⟨db, fun i => .ready (calls i)⟩
      ⟨(link.bind db.metadata.get).map MetadataEntity.columns, fun _ => .idle⟩ :=
    ⟨hlinks, rfl, fun i => .ready (hunused i), fun _ _ h => by cases h⟩
  rw [hstart.columnsOf]
  obtain ⟨link', hend⟩ := hstart.run hstrings hids picks
  have hpool : twoUpdates db type id calls =
      (SeoPlace.points type id).pool ⟨db, fun i => .ready (calls i)⟩ := rfl
  rw [hpool, Points.run_pool] at hdone ⊢
  exact ⟨hend.finished hdone, hend.columnsOf⟩

/-- **Two concurrent updates of disjoint fields keep both** exactly when the one that completes first
is not overlapped by the other, or has set nothing new. -/
theorem updates_keep_fields_iff (db : SeoDatabase) (type : SeoEntityType) (id : Uuid)
    (calls : Bool → SeoCall) (link : Option Uuid) (hlinks : db.Links type id link)
    (hstrings : ∀ i, (calls i).dto.Strings)
    (hdisjoint : ∀ field, (calls true).dto field = none ∨ (calls false).dto field = none)
    (hunused : ∀ i, db.Unused link (calls i).a.rowId)
    (hids : (calls true).a.rowId ≠ (calls false).a.rowId) (picks : List Bool)
    (hdone : ∀ i, ∃ r, (Pool.machine.run (twoUpdates db type id calls) picks).2.task i = .done r) :
    KeepsFields calls (db.columnsOf type id)
        ((Pool.machine.run (twoUpdates db type id calls) picks).2.shared.columnsOf type id) ↔
      NothingLost calls (db.columnsOf type id) picks := by
  have hother : ∀ i field, (calls i).dto field ≠ none → (calls (!i)).dto field = none := by
    intro i field hset
    cases i with
    | true => exact (hdisjoint field).resolve_left hset
    | false => exact (hdisjoint field).resolve_right hset
  obtain ⟨hfinished, hvalue⟩ := columnsOf_run db type id hlinks hstrings hunused hids picks hdone
  rw [hvalue]
  unfold NothingLost
  rw [statements_eq calls]
  constructor
  -- Of the two editors one is first; the value that is left depends on whether it was alone until
  -- it was done.
  · intro hkeeps
    obtain ⟨i, hfirst, ⟨halone, -⟩ | ⟨-, hsecond⟩⟩ := exists_first hfinished
    · exact ⟨i, hfirst, Or.inl halone⟩
    · rw [hsecond] at hkeeps
      exact ⟨i, hfirst, Or.inr ((keepsFields_second hother i).1 hkeeps)⟩
  · rintro ⟨i, hfirst, hlost⟩
    obtain ⟨hleft, hoverlap⟩ := value_of_first hfinished hfirst
    by_cases halone : Alone ((seoEditors calls).work (db.columnsOf type id) + 2) i picks
    · rw [hleft halone]
      exact keepsFields_both hother i
    · rw [hoverlap halone]
      exact (keepsFields_second hother i).2 (hlost.resolve_left halone)

/-- One request for the title of a topic, and one for its description. -/
def titleAndDescription : Bool → SeoCall
  | true => ⟨atFive, fun
    | .metaTitle => some (.str "Dogs")
    | _ => none⟩
  | false => ⟨⟨⟨"m3", by decide⟩, 6, 6⟩, fun
    | .metaDescription => some (.str "All about dogs")
    | _ => none⟩

theorem titleAndDescription_strings (i : Bool) : (titleAndDescription i).dto.Strings := by
  intro field value h
  cases i <;> cases field <;> first | exact ⟨_, (Option.some.inj h).symm⟩ | cases h

theorem titleAndDescription_unused (i : Bool) :
    catsDatabase.Unused (some catsMetadata.id) (titleAndDescription i).a.rowId := by
  cases i <;> exact ⟨by decide +kernel, by decide⟩

theorem titleAndDescription_disjoint (field : SeoField) :
    (titleAndDescription true).dto field = none ∨ (titleAndDescription false).dto field = none := by
  cases field with
  | metaTitle => exact Or.inr rfl
  | _ => exact Or.inl rfl

/-- The second request begins when the first has come to its end. -/
theorem updates_keep_fields_in_turn :
    KeepsFields titleAndDescription (catsDatabase.columnsOf .topic catsTopic.id)
      ((Pool.machine.run (twoUpdates catsDatabase .topic catsTopic.id titleAndDescription)
        [true, true, false, false]).2.shared.columnsOf .topic catsTopic.id) := by
  have hsteps : statements (catsDatabase.columnsOf .topic catsTopic.id) = 2 := by decide +kernel
  refine (updates_keep_fields_iff catsDatabase .topic catsTopic.id titleAndDescription
    (some catsMetadata.id) ⟨catsTopic, by decide +kernel, rfl, rfl⟩ titleAndDescription_strings
    titleAndDescription_disjoint titleAndDescription_unused (by decide) [true, true, false, false]
    fun i => ?_).2 ⟨true, ?_, Or.inl ?_⟩
  · cases i <;> exact ⟨_, rfl⟩
  · rw [hsteps]
    exact ⟨[true, true], ⟨_, rfl⟩, by decide, by decide⟩
  · rw [hsteps]
    exact ⟨_, rfl⟩

/-- Both read the row before either saves it: the title of the first is gone. -/
theorem title_overwritten :
    ¬∀ (db : SeoDatabase) (type : SeoEntityType) (id : Uuid) (calls : Bool → SeoCall)
      (link : Option Uuid) (picks : List Bool), db.Links type id link →
      (∀ i, (calls i).dto.Strings) →
      (∀ field, (calls true).dto field = none ∨ (calls false).dto field = none) →
      (∀ i, db.Unused link (calls i).a.rowId) → (calls true).a.rowId ≠ (calls false).a.rowId →
      (∀ i, ∃ r, (Pool.machine.run (twoUpdates db type id calls) picks).2.task i = .done r) →
      KeepsFields calls (db.columnsOf type id)
        ((Pool.machine.run (twoUpdates db type id calls) picks).2.shared.columnsOf type id) := by
  intro hkeeps
  have hdone : ∀ i, ∃ r, (Pool.machine.run (twoUpdates catsDatabase .topic catsTopic.id
      titleAndDescription) [true, false, true, false]).2.task i = .done r := by
    intro i
    cases i <;> exact ⟨_, rfl⟩
  obtain ⟨columns, hcolumns, hset, -, -⟩ := hkeeps catsDatabase .topic catsTopic.id
    titleAndDescription (some catsMetadata.id) [true, false, true, false]
    ⟨catsTopic, by decide +kernel, rfl, rfl⟩ titleAndDescription_strings
    titleAndDescription_disjoint titleAndDescription_unused (by decide) hdone
  have htitle : ((Pool.machine.run (twoUpdates catsDatabase .topic catsTopic.id titleAndDescription)
      [true, false, true, false]).2.shared.columnsOf .topic catsTopic.id).map
        (fun columns => columns.seo .metaTitle) = some (some "Cats") := by
    decide +kernel
  have hdogs : columns.seo .metaTitle = some "Dogs" :=
    (hset true .metaTitle "Dogs" rfl).trans (by decide +kernel)
  rw [hcolumns, Option.map_some, hdogs] at htitle
  exact absurd htitle (by decide)

end SeoService

end VetHealth
