import VetHealth.Common.Collation
import VetHealth.Files.ImageWords

/-!
# VetHealth.Files.Migration

**A second run changes nothing.** After a run of the migration every reference is the public base
and a key. Rewriting such a text again finds the inserted base: it begins with a scheme, nothing
before it can be taken for one together with it, and no key begins in it. So the same key is put
after the same base again (`rewriteImageRefs_idempotent`).
-/

namespace VetHealth

open Js Matching Matching.Regex ImageRefs

/-- A public base of the object storage: what is put before a key. Because of its scheme the pattern
finds the base again before the key and takes it off with it; its characters are those that the
pattern runs over; a `$` would be read as a directive of the replacement; and a directory of images
in the base would itself be taken for the beginning of the key. -/
structure IsPublicBase (publicBase : String) : Prop where
  scheme : "http://".toList <+: publicBase.toList ∨ "https://".toList <+: publicBase.toList
  chars : ∀ c ∈ publicBase.toList, isKeyChar c = true
  no_dollar : '$' ∉ publicBase.toList
  noDirectory : NoDirectory (publicBase.toList ++ ['/'])

namespace ImageRefs

/-- The characters of a public base. -/
structure IsBase (base : List Char) : Prop where
  url : IsUrl (base ++ ['/'])
  letter : ∃ tail, base = 'h' :: tail
  chars : ∀ c ∈ base, isKeyChar c = true
  plain : isPlain 1 base = true

theorem IsBase.of_publicBase {publicBase : String} (h : IsPublicBase publicBase) :
    IsBase publicBase.toList := by
  have hscheme : ∃ s rest, publicBase.toList = s ++ rest ∧ s.head? = some 'h' ∧
      afterScheme s = some [] := by
    rcases h.scheme with ⟨rest, hrest⟩ | ⟨rest, hrest⟩
    · exact ⟨_, rest, hrest.symm, by decide, by decide⟩
    · exact ⟨_, rest, hrest.symm, by decide, by decide⟩
  obtain ⟨s, rest, hbase, hhead, hafter⟩ := hscheme
  refine ⟨⟨?_, ⟨_, rfl⟩, h.noDirectory⟩, ?_, h.chars, isPlain_of_not_mem h.no_dollar⟩
  · rw [hbase, List.append_assoc, (afterScheme_eq_some hafter).2]
    rfl
  · obtain ⟨tail, rfl⟩ := List.head?_eq_some_iff.1 hhead
    exact ⟨tail ++ rest, hbase⟩

/-! ### A word -/

theorem firstKey_isSome {cs key : List Char} (hkey : isKey key = true) (hsuffix : key <:+ cs) :
    (firstKey cs).isSome = true :=
  List.find?_isSome.2 ⟨key, (List.mem_tails _ _).2 hsuffix, hkey⟩

theorem refAt_eq_none {cs : List Char} (h : refAt cs = none) :
    (afterScheme cs).bind firstKey = none ∧ isKey cs = false ∧
      (begins "/" cs && isKey (cs.drop 1)) = false := by
  rw [refAt, Option.or_eq_none_iff, keyHere] at h
  obtain ⟨hscheme, hhere⟩ := h
  cases hkey : isKey cs with
  | true =>
      rw [hkey] at hhere
      cases hhere
  | false =>
      rw [hkey] at hhere
      cases hslash : begins "/" cs && isKey (cs.drop 1) with
      | true =>
          rw [hslash] at hhere
          cases hhere
      | false => exact ⟨hscheme, rfl, rfl⟩

/-- No key reaches into a text that begins with `h`: a directory of the keys would have to go on
with that letter. -/
theorem isKey_of_append_h {u v rest : List Char} (h : isKey (u ++ 'h' :: v) = true)
    (hrest : rest ≠ []) : isKey (u ++ rest) = true := by
  have hpos := List.length_pos_of_ne_nil hrest
  rw [isKey, begins_append_h (by decide), begins_append_h (by decide)] at h
  rcases Bool.or_eq_true_iff.1 h with h | h
  · have hbegins := (Bool.and_eq_true_iff.1 h).1
    have hlength : 13 ≤ u.length := startsWith_length hbegins
    have happend := (begins_append_of 13 (by decide) hbegins rest).1
    have hlong : 13 < (u ++ rest).length := by
      rw [List.length_append]
      omega
    rw [isKey, happend, decide_eq_true hlong]
    rfl
  · have hbegins := (Bool.and_eq_true_iff.1 h).1
    have hlength : 14 ≤ u.length := startsWith_length hbegins
    have happend := (begins_append_of 14 (by decide) hbegins rest).1
    have hlong : 14 < (u ++ rest).length := by
      rw [List.length_append]
      omega
    rw [isKey, happend, decide_eq_true hlong, Bool.and_true, Bool.or_true]

/-- Where no match begins before a match of the word, none begins there before a text that begins
with `h` either. -/
theorem refAt_append_h {c : Char} {u rest v key : List Char} (hrest : refAt rest = some key)
    (h : refAt (c :: u ++ rest) = none) : refAt (c :: u ++ 'h' :: v) = none := by
  obtain ⟨hkey, hsuffix⟩ := refAt_eq_some hrest
  obtain ⟨hscheme, hhere, hslash⟩ := refAt_eq_none h
  have hne : rest ≠ [] := by
    rintro rfl
    exact isKey_ne_nil hkey (List.suffix_nil.1 hsuffix)
  -- A scheme in what stands before would make the match begin there, as there is a key behind it.
  have hnoScheme : afterScheme (c :: u) = none := by
    cases hafter : afterScheme (c :: u) with
    | none => rfl
    | some r =>
        rw [(afterScheme_eq_some hafter).2 rest, Option.bind_some] at hscheme
        have hsome := firstKey_isSome hkey (hsuffix.trans ( List.suffix_append r rest))
        rw [hscheme] at hsome
        cases hsome
  -- A key or a slash and a key would have to reach into the text that begins with `h`, and none
  -- does.
  have hnoKey : isKey (c :: u ++ 'h' :: v) = false := by
    by_contra hnot
    rw [isKey_of_append_h (by simpa only [Bool.not_eq_false] using hnot) hne] at hhere
    cases hhere
  have hnoSlash : (begins "/" (c :: u ++ 'h' :: v) && isKey ((c :: u ++ 'h' :: v).drop 1)) =
      false := by
    by_contra hnot
    obtain ⟨hbegins, hinner⟩ := Bool.and_eq_true_iff.1 (by simpa only [Bool.not_eq_false] using hnot)
    have hbefore : begins "/" (c :: u ++ rest) = true := by
      rw [begins_append_h (by decide)] at hbegins
      exact startsWith_mono hbegins rest
    have hkeyBefore : isKey ((c :: u ++ rest).drop 1) = true := isKey_of_append_h hinner hne
    rw [hbefore, hkeyBefore] at hslash
    cases hslash
  rw [refAt, afterScheme_append_h, hnoScheme, keyHere, hnoKey, hnoSlash]
  rfl

/-- What becomes of a word: nothing, or all from a match on is replaced. At most one replacement is
made in a word. -/
theorem rewriteWord_cases (base cs : List Char) :
    rewriteWord base cs = cs ∨ ∃ u rest key, cs = u ++ rest ∧ refAt rest = some key ∧
      rewriteWord base cs = u ++ (base ++ '/' :: key) := by
  induction cs with
  | nil => exact Or.inl rfl
  | cons c cs ih =>
      rw [rewriteWord]
      cases hmatch : refAt (c :: cs) with
      | some key => exact Or.inr ⟨[], c :: cs, key, rfl, hmatch, rfl⟩
      | none =>
          rcases ih with hsame | ⟨u, rest, key, rfl, hrest, hword⟩
          · exact Or.inl (congrArg _ hsame)
          · exact Or.inr ⟨c :: u, rest, key, rfl, hrest, congrArg _ hword⟩

section

variable {base : List Char} (hbase : IsBase base)

include hbase

/-- The base is found before its key, and nothing else is: this is why a rewritten word settles. -/
theorem refAt_base {key : List Char} (hkey : isKey key = true) :
    refAt (base ++ '/' :: key) = some key := by
  have hmatch := hbase.url.refAt hkey
  rwa [List.append_assoc, List.singleton_append] at hmatch

/-- A rewritten word is not rewritten again. The match that is found in it is the base and the key
that were put there. -/
theorem rewriteWord_rewriteWord (cs : List Char) :
    rewriteWord base (rewriteWord base cs) = rewriteWord base cs := by
  induction cs with
  | nil => rfl
  | cons c cs ih =>
      cases hmatch : refAt (c :: cs) with
      | some key =>
          rw [rewriteWord_of_refAt base hmatch]
          exact rewriteWord_of_refAt base (refAt_base hbase (refAt_eq_some hmatch).1)
      | none =>
          have hstep : rewriteWord base (c :: cs) = c :: rewriteWord base cs := by
            rw [rewriteWord, hmatch]
          have hnone : refAt (c :: rewriteWord base cs) = none := by
            rcases rewriteWord_cases base cs with hsame | ⟨u, rest, key, rfl, hrest, hword⟩
            · rw [hsame, hmatch]
            · obtain ⟨tail, htail⟩ := hbase.letter
              rw [hword, htail]
              exact refAt_append_h hrest hmatch
          rw [hstep, rewriteWord, hnone]
          exact congrArg _ ih

theorem rewriteWord_chars {cs : List Char} (h : ∀ c ∈ cs, isKeyChar c = true) :
    ∀ c ∈ rewriteWord base cs, isKeyChar c = true := by
  rcases rewriteWord_cases base cs with hsame | ⟨u, rest, key, rfl, hrest, hword⟩
  · rwa [hsame]
  · obtain ⟨hu, hchars⟩ := List.forall_mem_append.1 h
    have hkey : ∀ c ∈ key, isKeyChar c = true :=
      fun c hc => hchars c ((refAt_eq_some hrest).2.subset hc)
    rw [hword]
    exact List.forall_mem_append.2
      ⟨hu, List.forall_mem_append.2 ⟨hbase.chars, List.forall_mem_cons.2 ⟨by decide, hkey⟩⟩⟩

/-! ### A text -/

/-- A rewritten text is not rewritten again: word by word. -/
theorem replaceRefs_replaceRefs (cs : List Char) :
    replaceRefs base (replaceRefs base cs) = replaceRefs base cs := by
  have hwords : ∀ word : List Char, (∀ c ∈ word, isKeyChar c = true) →
      replaceRefs base (replaceRefs base word) = replaceRefs base word := by
    intro word hword
    rw [replaceRefs_word hbase.plain hword,
      replaceRefs_word hbase.plain (rewriteWord_chars hbase hword), rewriteWord_rewriteWord hbase]
  induction cs using words_induction isKeyChar with
  | word u hu => exact hwords u hu
  | cut u d v hu hd ih =>
      rw [replaceRefs_append_cons hbase.plain hd, replaceRefs_append_cons hbase.plain hd,
        hwords u hu, ih]

end

end ImageRefs

/-- A rewritten value is not rewritten again, whichever of the two forms it has been rewritten from.
-/
theorem rewriteImageRefs_rewriteImageRefs {publicBase : String} (h : IsPublicBase publicBase)
    (value : String) :
    rewriteImageRefs (rewriteImageRefs value publicBase) publicBase =
      rewriteImageRefs value publicBase := by
  rw [rewriteImageRefs, rewriteImageRefs, String.toList_ofList,
    replaceRefs_replaceRefs (IsBase.of_publicBase h)]

/-! ### The column of a table

A column of JSON is read and written as its text. The whole script goes through eight columns with
the same two functions, `urlChange` and `sendUpdates`; here they stand for one column by itself. -/

/-- A row of a table with a column that may hold references. The other columns are neither read nor
written. -/
structure UrlRow where
  id : String
  value : Option String
  deriving DecidableEq

structure UrlChange where
  id : String
  before : String
  after : String
  deriving DecidableEq

/-- `UPDATE … SET value = ? WHERE id = ?`. -/
def UrlChange.update (rows : List UrlRow) (change : UrlChange) : List UrlRow :=
  rows.map fun row => if row.id = change.id then { row with value := some change.after } else row

/-- The updates for the changes, up to the first that fails. Those before it have been made. -/
def sendUpdates (fails : UrlChange → Bool) : List UrlChange → List UrlRow → Bool × List UrlRow
  | [], rows => (true, rows)
  | change :: changes, rows =>
      if fails change then (false, rows) else sendUpdates fails changes (change.update rows)

/-- No update gives a row another id. -/
theorem map_id_sendUpdates (fails : UrlChange → Bool) (changes : List UrlChange)
    (rows : List UrlRow) :
    (sendUpdates fails changes rows).2.map UrlRow.id = rows.map UrlRow.id := by
  induction changes generalizing rows with
  | nil => rfl
  | cons change changes ih =>
      rw [sendUpdates]
      split
      · rfl
      · rw [ih, UrlChange.update, List.map_map]
        refine List.map_congr_left fun row _ => ?_
        rw [Function.comp_apply]
        split <;> rfl

/-- A row after the updates holds what one of them wrote, or was not updated. -/
theorem mem_sendUpdates {changes : List UrlChange} {rows : List UrlRow} {row : UrlRow}
    (h : row ∈ (sendUpdates (fun _ => false) changes rows).2) :
    (∃ change ∈ changes, row.value = some change.after) ∨
      row ∈ rows ∧ ∀ change ∈ changes, row.id ≠ change.id := by
  induction changes generalizing rows with
  | nil => exact Or.inr ⟨h, by simp⟩
  | cons change changes ih =>
      rw [sendUpdates, if_neg Bool.false_ne_true] at h
      rcases ih h with ⟨written, hwritten, hvalue⟩ | ⟨hrow, hother⟩
      · exact Or.inl ⟨written, List.mem_cons_of_mem _ hwritten, hvalue⟩
      · obtain ⟨old, hold, rfl⟩ := List.mem_map.1 hrow
        by_cases hid : old.id = change.id
        · exact Or.inl ⟨change, List.mem_cons_self, by rw [if_pos hid]⟩
        · rw [if_neg hid] at hother ⊢
          exact Or.inr ⟨hold, List.forall_mem_cons.2 ⟨hid, hother⟩⟩

section

variable [Collation]

/-- `value LIKE '%images/posts/%' OR value LIKE '%images/topics/%'`. -/
def embedsKey (value : String) : Bool :=
  Collation.like "%images/posts/%" value || Collation.like "%images/topics/%" value

/-- The change that `migrateUrlField` finds for a row. The query selects no row without a value: a
comparison with `NULL` does not hold. -/
def urlChange (publicBase : String) (row : UrlRow) : Option UrlChange :=
  (row.value.filter embedsKey).bind fun before =>
    let after := rewriteImageRefs before publicBase
    if before ≠ after then some ⟨row.id, before, after⟩ else none

theorem urlChange_eq_some {publicBase : String} {row : UrlRow} {change : UrlChange} :
    urlChange publicBase row = some change ↔ ∃ before, row.value = some before ∧
      embedsKey before = true ∧ before ≠ rewriteImageRefs before publicBase ∧
      change = ⟨row.id, before, rewriteImageRefs before publicBase⟩ := by
  rw [urlChange, Option.bind_eq_some_iff]
  refine exists_congr fun before => ?_
  rw [Option.filter_eq_some_iff]
  dsimp only
  split
  · rename_i hne
    rw [Option.some.injEq, @eq_comm _ _ change]
    exact ⟨fun h => ⟨h.1.1, h.1.2, hne, h.2⟩, fun h => ⟨⟨h.1, h.2.1⟩, h.2.2.2⟩⟩
  · rename_i hsame
    exact iff_of_false (fun h => by cases h.2) fun h => hsame h.2.2.1

/-- There is no change for a row that holds a rewritten value, so that a second run does not report
it. -/
theorem urlChange_rewritten {publicBase : String} (h : IsPublicBase publicBase) {row : UrlRow}
    {value : String} (hvalue : row.value = some (rewriteImageRefs value publicBase)) :
    urlChange publicBase row = none := by
  rw [← Option.not_isSome_iff_eq_none, Option.isSome_iff_exists]
  rintro ⟨change, hchange⟩
  obtain ⟨before, hbefore, -, hne, -⟩ := urlChange_eq_some.1 hchange
  obtain rfl := Option.some.inj (hvalue.symm.trans hbefore)
  exact hne (rewriteImageRefs_rewriteImageRefs h value).symm

/-- `migrateUrlField`: how many rows are to be changed, and the rows it leaves. -/
def migrateUrlField (publicBase : String) (execute : Bool) (rows : List UrlRow) :
    Nat × List UrlRow :=
  let changes := rows.filterMap (urlChange publicBase)
  (changes.length, if execute then (sendUpdates (fun _ => false) changes rows).2 else rows)

/-- **The migration is idempotent.** A rewritten text is not changed by another rewriting, so that
after a run of the migration another one finds no row to change. -/
theorem rewriteImageRefs_idempotent {publicBase : String} (h : IsPublicBase publicBase) :
    (∀ value, rewriteImageRefs (rewriteImageRefs value publicBase) publicBase =
      rewriteImageRefs value publicBase) ∧
    ∀ execute rows,
      (migrateUrlField publicBase execute (migrateUrlField publicBase true rows).2).1 = 0 := by
  refine ⟨rewriteImageRefs_rewriteImageRefs h, fun execute rows => ?_⟩
  rw [migrateUrlField, migrateUrlField, if_pos rfl]
  dsimp only
  rw [List.length_eq_zero_iff, List.filterMap_eq_nil_iff]
  intro row hrow
  rcases mem_sendUpdates hrow with ⟨written, hwritten, hholds⟩ | ⟨hold, hother⟩
  · -- the row holds a rewritten text
    obtain ⟨old, -, hchange⟩ := List.mem_filterMap.1 hwritten
    obtain ⟨before, -, -, -, rfl⟩ := urlChange_eq_some.1 hchange
    exact urlChange_rewritten h hholds
  · -- the first run would have changed the row
    rw [← Option.not_isSome_iff_eq_none, Option.isSome_iff_exists]
    rintro ⟨change, hchange⟩
    obtain ⟨before, -, -, -, rfl⟩ := urlChange_eq_some.1 hchange
    exact hother _ (List.mem_filterMap.2 ⟨row, hold, hchange⟩) rfl

end

/-- A second run on a row with a doubled domain. -/
theorem doubled_domain_settles :
    rewriteImageRefs (rewriteImageRefs "https//old.vethealth.testhttps://cdn.test/images/topics/cat.svg"
        "https://cdn.vethealth.test") "https://cdn.vethealth.test" =
      rewriteImageRefs "https//old.vethealth.testhttps://cdn.test/images/topics/cat.svg"
        "https://cdn.vethealth.test" :=
  letI := Collation.ascii
  (rewriteImageRefs_idempotent ⟨by decide, by decide, by decide, by decide⟩).1 _

end VetHealth
