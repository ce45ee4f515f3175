import VetHealth.Js.Stringify

/-!
# VetHealth.Js.Masks

**Values that differ in hidden places.** A string of a JSON value stands under the nearest key
around it, through however many arrays. Given which keys are hidden, `Alike` relates two values that
differ only in strings under hidden keys, and `mask` puts one text in the place of all of these. A
masked value is still one that can be written and read back.
-/

namespace Js.Json

variable (hidden : String → Bool)

mutual

/-- The second value is the first up to strings under hidden keys; `key` is the nearest one around
them. A function that skips those strings cannot tell the two apart. -/
def Alike (key : Option String) : Json → Json → Prop
  | .str s, other => ∃ t, other = .str t ∧ (key.any hidden = false → t = s)
  | .arr items, other => ∃ items', other = .arr items' ∧ itemsAlike key items items'
  | .obj fields, other => ∃ fields', other = .obj fields' ∧ fieldsAlike fields fields'
  | j, other => other = j

def itemsAlike (key : Option String) : List Json → List Json → Prop
  | [], others => others = []
  | item :: items, others =>
      ∃ item' items', others = item' :: items' ∧ Alike key item item' ∧ itemsAlike key items items'

def fieldsAlike : List (String × Json) → List (String × Json) → Prop
  | [], others => others = []
  | (name, value) :: fields, others =>
      ∃ value' fields', others = (name, value') :: fields' ∧ Alike (some name) value value' ∧
        fieldsAlike fields fields'

end

mutual

/-- Every string under a hidden key becomes `t`. Masking by two texts shows whether what is computed
depends on what is hidden. -/
def mask (t : String) (key : Option String) : Json → Json
  | .str s => .str (if key.any hidden then t else s)
  | .arr items => .arr (maskItems t key items)
  | .obj fields => .obj (maskFields t fields)
  | j => j

def maskItems (t : String) (key : Option String) : List Json → List Json
  | [] => []
  | item :: items => mask t key item :: maskItems t key items

def maskFields (t : String) : List (String × Json) → List (String × Json)
  | [] => []
  | (name, value) :: fields => (name, mask t (some name) value) :: maskFields t fields

end

variable {hidden} {t : String}

/-! ### Properties of alike values -/

theorem fieldsAlike.get {fields fields' : List (String × Json)}
    (h : fieldsAlike hidden fields fields') (name : String) :
    Option.Rel (Alike hidden (some name)) (Json.get name (.obj fields))
      (Json.get name (.obj fields')) := by
  induction fields generalizing fields' with
  | nil =>
      rw [fieldsAlike] at h
      rw [h]
      exact .none
  | cons field fields ih =>
      obtain ⟨key, value⟩ := field
      rw [fieldsAlike] at h
      obtain ⟨value', rest, rfl, hvalue, hrest⟩ := h
      rw [get_cons, get_cons]
      by_cases hkey : key = name
      · rw [if_pos hkey, if_pos hkey, ← hkey]
        exact .some hvalue
      · rw [if_neg hkey, if_neg hkey]
        exact ih hrest

/-- Alike values have alike properties. -/
theorem Alike.get {key : Option String} {j j' : Json} (h : Alike hidden key j j') (name : String) :
    Option.Rel (Alike hidden (some name)) (j.get name) (j'.get name) := by
  cases j with
  | obj fields =>
      rw [Alike] at h
      obtain ⟨fields', rfl, hfields⟩ := h
      exact hfields.get name
  | str s =>
      rw [Alike] at h
      obtain ⟨t, rfl, -⟩ := h
      exact .none
  | arr items =>
      rw [Alike] at h
      obtain ⟨items', rfl, -⟩ := h
      exact .none
  | _ =>
      simp only [Alike] at h
      rw [h]
      exact .none

/-- What is no string is alike to what is no string. -/
theorem Alike.asString? {key : Option String} {j j' : Json} (h : Alike hidden key j j')
    (hj : j.asString? = none) : j'.asString? = none := by
  cases j with
  | str s => cases hj
  | arr items =>
      rw [Alike] at h
      obtain ⟨items', rfl, -⟩ := h
      rfl
  | obj fields =>
      rw [Alike] at h
      obtain ⟨fields', rfl, -⟩ := h
      rfl
  | _ =>
      simp only [Alike] at h
      rw [h]
      rfl

/-! ### Masked values -/

mutual

theorem alike_mask (key : Option String) : ∀ j : Json, Alike hidden key j (mask hidden t key j)
  | .str s => by
      rw [mask, Alike]
      refine ⟨_, rfl, fun hkey => ?_⟩
      rw [hkey]
      rfl
  | .arr items => by
      rw [mask, Alike]
      exact ⟨_, rfl, itemsAlike_mask key items⟩
  | .obj fields => by
      rw [mask, Alike]
      exact ⟨_, rfl, fieldsAlike_mask fields⟩
  | .null | .bool _ | .num _ => by simp [mask, Alike]

theorem itemsAlike_mask (key : Option String) :
    ∀ items : List Json, itemsAlike hidden key items (maskItems hidden t key items)
  | [] => by simp [maskItems, itemsAlike]
  | item :: items => by
      rw [maskItems, itemsAlike]
      exact ⟨_, _, rfl, alike_mask key item, itemsAlike_mask key items⟩

theorem fieldsAlike_mask :
    ∀ fields : List (String × Json), fieldsAlike hidden fields (maskFields hidden t fields)
  | [] => by simp [maskFields, fieldsAlike]
  | (name, value) :: fields => by
      rw [maskFields, fieldsAlike]
      exact ⟨_, _, rfl, alike_mask (some name) value, fieldsAlike_mask fields⟩

end

/-- The property of a masked value is the masked property, with the name of the property as the
nearest key. -/
theorem get_mask (key : Option String) (j : Json) (name : String) :
    (mask hidden t key j).get name = (j.get name).map (mask hidden t (some name)) := by
  cases j with
  | obj fields =>
      rw [mask]
      induction fields with
      | nil => rfl
      | cons field fields ih =>
          obtain ⟨other, value⟩ := field
          rw [maskFields, get_cons, get_cons, ih]
          by_cases hother : other = name
          · rw [if_pos hother, if_pos hother, hother]
            rfl
          · rw [if_neg hother, if_neg hother]
  | _ => simp [mask, Json.get]

theorem keys_maskFields (fields : List (String × Json)) :
    (maskFields hidden t fields).map Prod.fst = fields.map Prod.fst := by
  induction fields with
  | nil => rfl
  | cons field fields ih => rw [maskFields, List.map_cons, List.map_cons, ih]

/-- `P` asks the same of the parts of a value, and of the names of an object's properties what `Q`
says. Such a property does not look at the strings, so a mask cannot break it. -/
structure Structural (P : Json → Prop) (Q : List String → Prop) : Prop where
  str : ∀ s, P (.str s)
  arr : ∀ items, P (.arr items) ↔ ∀ j ∈ items, P j
  obj : ∀ fields, P (.obj fields) ↔ Q (fields.map Prod.fst) ∧ ∀ field ∈ fields, P field.2

theorem structural_distinctKeys : Structural DistinctKeys List.Nodup where
  str _ := by simp [DistinctKeys]
  arr _ := by rw [DistinctKeys, itemsDistinct_iff]
  obj _ := by rw [DistinctKeys, fieldsDistinct_iff]

theorem structural_printable : Structural Printable fun _ => True where
  str _ := by simp [Printable]
  arr _ := by rw [Printable, itemsPrintable_iff]
  obj _ := by rw [Printable, fieldsPrintable_iff, true_and]

section

variable {P : Json → Prop} {Q : List String → Prop}

mutual

/-- A mask keeps what is asked of the parts. -/
theorem Structural.mask (hP : Structural P Q) (key : Option String) :
    ∀ {j : Json}, P j → P (Json.mask hidden t key j)
  | .str _, _ => by
      rw [Json.mask]
      exact hP.str _
  | .arr items, h => by
      rw [Json.mask, hP.arr]
      exact hP.maskItems key ((hP.arr items).1 h)
  | .obj fields, h => by
      rw [hP.obj] at h
      rw [Json.mask, hP.obj, keys_maskFields]
      exact ⟨h.1, hP.maskFields h.2⟩
  | .null, h | .bool _, h | .num _, h => by
      rw [Json.mask]
      · exact h
      all_goals simp

theorem Structural.maskItems (hP : Structural P Q) (key : Option String) :
    ∀ {items : List Json}, (∀ j ∈ items, P j) → ∀ j ∈ Json.maskItems hidden t key items, P j
  | [], _ => by simp [Json.maskItems]
  | item :: items, h => by
      rw [List.forall_mem_cons] at h
      rw [Json.maskItems, List.forall_mem_cons]
      exact ⟨hP.mask key h.1, hP.maskItems key h.2⟩

theorem Structural.maskFields (hP : Structural P Q) :
    ∀ {fields : List (String × Json)}, (∀ field ∈ fields, P field.2) →
      ∀ field ∈ Json.maskFields hidden t fields, P field.2
  | [], _ => by simp [Json.maskFields]
  | (name, value) :: fields, h => by
      rw [List.forall_mem_cons] at h
      rw [Json.maskFields, List.forall_mem_cons]
      exact ⟨hP.mask (some name) h.1, hP.maskFields h.2⟩

end

end

/-- **A masked text**: what is read, masked and written is read back. So the masked content is a
content that the backend can hold, stored as text. -/
theorem parse_mask {text : String} {j : Json} (h : JSON.parse text = some j) (key : Option String) :
    JSON.parse (JSON.stringify (mask hidden t key j)) = some (mask hidden t key j) :=
  JSON.parse_stringify (structural_distinctKeys.mask key (JSON.parse_distinctKeys h))
    (structural_printable.mask key (JSON.parse_printable h))

end Js.Json
