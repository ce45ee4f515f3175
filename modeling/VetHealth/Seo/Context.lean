import Mathlib.Data.List.Forall2
import Mathlib.Data.Rat.Floor
import VetHealth.Js.Units
import VetHealth.Lib.Excerpts
import VetHealth.Lib.Words

/-!
# VetHealth.Seo.Context

**A bounded sample of a long text.** A model reads a text of limited length. `prepareSeoContext` hands over
a text that is short enough. Of a longer one it takes the beginning and the end of every section, or
of sixteen of them; without sections, the beginning, the middle and the end.

The sections share what the outline and the markers leave (`budget`). Half of the share is taken from the
end of a section by a negative place, which would stand for the whole section if it were zero.
-/

namespace VetHealth

open Js Excerpting

structure SeoTextContext where
  text : Units
  sourceTruncated : Bool

/-- `/^#{1,6}\s/`, where a line begins. -/
def beginsHeading (line : Units) : Bool :=
  let marks := (line.takeWhile (· = 0x23)).length
  1 ≤ marks && marks ≤ 6 && (line.drop marks).head?.any Units.isSpace

/-- A unit after which `^` matches. -/
def isLineTerminator (u : Nat) : Bool := u ∈ [0xa, 0xd, 0x2028, 0x2029]

namespace SeoTextContext

def headings (text : Units) : List Units := (text.splitOn 0xa).filter beginsHeading

def outline (text : Units) (maxChars : ℚ) : Units :=
  if headings text = [] then []
  else Units.ofString "Структура матеріалу:\n" ++
    Units.slice ([0xa].intercalate (headings text)) 0 (some ⌊maxChars / 5⌋) ++
      Units.ofString "\n\n"

def marker : Units := Units.ofString "\n[… пропущено частину тексту …]\n"

/-- `text.split(/(?=^#{1,6}\s)/m).filter((part) => part.trim())`. -/
def sections (text : Units) : List Units :=
  (Units.splitBefore (fun u rest => isLineTerminator u && beginsHeading rest) text).filter
    fun part => part.trim ≠ []

/-- `Math.round(a / b)`. -/
def roundedQuotient (a b : Nat) : Nat := (2 * a + b) / (2 * b)

def selected (sections : List Units) : List Units :=
  if sections.length > 16 then
    (List.range 16).map fun i => sections.getD (roundedQuotient (i * (sections.length - 1)) 15) []
  else sections

/-- What every section may take: the outline and the markers are taken off first, and the rest is
divided evenly. -/
def budget (outline : Units) (maxChars : ℚ) (count : Nat) : ℤ :=
  ⌊(maxChars - outline.length - marker.length * (count * 2 - 1)) / count⌋

def excerpt (budget : ℤ) (part : Units) : Units :=
  if part.length ≤ budget then part
  else part.slice 0 (some ⌈(budget : ℚ) / 2⌉) ++ marker ++ part.slice (-⌊(budget : ℚ) / 2⌋) none

end SeoTextContext

open SeoTextContext in
def prepareSeoContext (text : Units) (maxChars : ℚ) : SeoTextContext :=
  let text := text.trim
  if text.length ≤ maxChars then ⟨text, false⟩
  else
    let outline := outline text maxChars
    let selected := selected (sections text)
    if selected.length > 1 then
      let excerpts := selected.map (excerpt (budget outline maxChars selected.length))
      ⟨outline ++ marker.intercalate excerpts, true⟩
    else
      let budget := maxChars - outline.length - marker.length * 2
      let size := ⌊budget / 3⌋
      let middleStart := ⌊(text.length - size : ℚ) / 2⌋
      ⟨outline ++ text.slice 0 (some size) ++ marker ++
        text.slice middleStart (some (middleStart + size)) ++ marker ++ text.slice (-size) none, true⟩

namespace SeoTextContext

/-! ### Sections -/

theorem head_of_beginsHeading {u : Nat} {text : Units} (h : beginsHeading (u :: text) = true) :
    u = 0x23 := by
  by_contra hu
  simp [beginsHeading, hu] at h

/-- No section of a text without white ends is blank, so none is left out, and the sections make up
the text. -/
theorem sections_spec {u : Nat} (hu : Units.isSpace u = false) (text : Units) :
    sections (u :: text) ≠ [] ∧ (sections (u :: text)).flatten = u :: text ∧
      ∀ part ∈ sections (u :: text), part ≠ [] := by
  obtain ⟨rest, parts, hparts, hheads⟩ :=
    @Units.splitBefore_cons (fun u rest => isLineTerminator u && beginsHeading rest) (· = 0x23)
      (fun u v text hcut => head_of_beginsHeading (Bool.and_eq_true_iff.1 hcut).2) u text
  have hblank : ∀ part ∈ (u :: rest) :: parts, Units.trim part ≠ [] ∧ part ≠ [] := by
    intro part hpart
    rcases List.mem_cons.1 hpart with rfl | hpart
    · exact ⟨Units.trim_ne_nil hu rest, List.cons_ne_nil _ _⟩
    · obtain ⟨v, rest, rfl, rfl⟩ := hheads part hpart
      exact ⟨Units.trim_ne_nil (by decide) rest, List.cons_ne_nil _ _⟩
  have hall : sections (u :: text) = (u :: rest) :: parts := by
    rw [sections, hparts, List.filter_eq_self]
    exact fun part hpart => decide_eq_true (hblank part hpart).1
  have hflatten := Units.flatten_splitBefore
    (fun u rest => isLineTerminator u && beginsHeading rest) (u :: text)
  rw [hparts] at hflatten
  rw [hall]
  exact ⟨List.cons_ne_nil _ _, hflatten, fun part hpart => (hblank part hpart).2⟩

theorem length_selected (sections : List Units) :
    (selected sections).length = min sections.length 16 := by
  rw [selected]
  split
  · rw [List.length_map, List.length_range]
    omega
  · omega

/-- The sections that are taken: all of them, or sixteen with the first and the last, spread over
the text. -/
theorem selected_spec {sections : List Units} (h : sections ≠ []) :
    Sample (selected sections) sections ∧
      (sections.length ≤ 16 → selected sections = sections) := by
  rw [selected]
  split
  · rename_i hlength
    refine ⟨?_, fun hle => absurd hlength (Nat.not_lt.2 hle)⟩
    have hmono : ∀ i < 0 + 15, roundedQuotient (i * (sections.length - 1)) 15 <
        roundedQuotient ((i + 1) * (sections.length - 1)) 15 := by
      intro i _
      have hstep : (i + 1) * (sections.length - 1) =
          i * (sections.length - 1) + (sections.length - 1) := Nat.succ_mul _ _
      rw [roundedQuotient, roundedQuotient, hstep]
      omega
    have hlast : roundedQuotient ((0 + 15) * (sections.length - 1)) 15 + 1 = sections.length := by
      rw [roundedQuotient]
      omega
    have hsample := @Sample.of_indices _ [] (fun i => roundedQuotient (i * (sections.length - 1)) 15)
      sections 0 15 hmono hlast
    have hfirst : roundedQuotient (0 * (sections.length - 1)) 15 = 0 := by
      rw [Nat.zero_mul]
      rfl
    rwa [hfirst, List.drop_zero, ← List.range_eq_range'] at hsample
  · rename_i hlength
    exact ⟨.self h, fun _ => rfl⟩

/-! ### What each of them gives -/

theorem length_marker : marker.length = 32 := by decide

/-- The excerpts of a section: all of it if it is short enough, else its beginning and its end. -/
def parts (budget : ℤ) (part : Units) : List Units :=
  if part.length ≤ budget then [part]
  else [part.take ⌈(budget : ℚ) / 2⌉.toNat, part.drop (part.length - ⌊(budget : ℚ) / 2⌋.toNat)]

theorem halves (budget : ℤ) : ⌊(budget : ℚ) / 2⌋ = budget / 2 ∧
    ⌈(budget : ℚ) / 2⌉ + ⌊(budget : ℚ) / 2⌋ = budget := by
  have hfloor : ⌊(budget : ℚ) / 2⌋ = budget / 2 := by
    exact_mod_cast Rat.floor_intCast_div_natCast budget 2
  have hle : budget ≤ 2 * ⌈(budget : ℚ) / 2⌉ := by
    have hceil := Int.le_ceil ((budget : ℚ) / 2)
    rw [div_le_iff₀ (by norm_num)] at hceil
    rw [mul_comm]
    exact_mod_cast hceil
  have hlt : 2 * ⌈(budget : ℚ) / 2⌉ < budget + 2 := by
    have hceil := Int.ceil_lt_add_one ((budget : ℚ) / 2)
    have hdouble : (2 : ℚ) * ⌈(budget : ℚ) / 2⌉ < budget + 2 := by linarith
    exact_mod_cast hdouble
  refine ⟨hfloor, ?_⟩
  rw [hfloor]
  omega

section

variable {budget : ℤ} (hbudget : 2 ≤ budget)

include hbudget

theorem excerpt_eq (part : Units) :
    excerpt budget part = marker.intercalate (parts budget part) := by
  obtain ⟨hfloor, hsum⟩ := halves budget
  rw [excerpt, parts]
  split
  · rw [List.intercalate_singleton]
  · rename_i hlong
    rw [Units.slice_front part (by omega), Units.slice_back part (by omega) (by omega),
      List.intercalate_cons_of_ne_nil (List.cons_ne_nil _ _), List.intercalate_singleton,
      List.append_assoc]

theorem parts_excerpts (part : Units) : Excerpts (parts budget part) part := by
  obtain ⟨hfloor, hsum⟩ := halves budget
  rw [parts]
  split
  · exact .last part
  · refine .cons_take ?_ (.last _)
    omega

theorem parts_ne_nil {part : Units} (hpart : part ≠ []) : ∀ e ∈ parts budget part, e ≠ [] := by
  obtain ⟨hfloor, hsum⟩ := halves budget
  have hlength : 0 < part.length := List.length_pos_of_ne_nil hpart
  rw [parts]
  split
  · simpa using hpart
  · intro e he
    rcases List.mem_pair.1 he with rfl | rfl
    · refine List.ne_nil_of_length_pos ?_
      rw [List.length_take]
      omega
    · refine List.ne_nil_of_length_pos ?_
      rw [List.length_drop]
      omega

theorem length_excerpt_le (part : Units) : (excerpt budget part).length ≤ budget + 32 := by
  obtain ⟨hfloor, hsum⟩ := halves budget
  rw [excerpt_eq hbudget, parts]
  split
  · rw [List.intercalate_singleton]
    omega
  · rw [List.intercalate_cons_of_ne_nil (List.cons_ne_nil _ _), List.intercalate_singleton]
    simp only [List.length_append, List.length_take, List.length_drop, length_marker]
    omega

end

/-- The excerpts of a text without sections: its beginning, its middle and its end. -/
def thirds (size : Nat) (text : Units) : List Units :=
  [text.take size, (text.drop ((text.length - size) / 2)).take size, text.drop (text.length - size)]

theorem thirds_excerpts {size : Nat} {text : Units} (hlength : 3 * size ≤ text.length) :
    Excerpts (thirds size text) text := by
  have hend : (text.drop ((text.length - size) / 2)).drop
      (text.length - size - (text.length - size) / 2) = text.drop (text.length - size) := by
    rw [List.drop_drop]
    congr 1
    omega
  refine .cons_take (j := (text.length - size) / 2) (by omega) ?_
  refine .cons_take (j := text.length - size - (text.length - size) / 2) (by omega) ?_
  rw [hend]
  exact .last _

theorem length_thirds {size : Nat} {text : Units} (hlength : size ≤ text.length) :
    ∀ e ∈ thirds size text, e.length = size := by
  simp only [thirds, List.forall_mem_cons, List.not_mem_nil, false_imp_iff, implies_true, and_true,
    List.length_take, List.length_drop]
  omega

/-! ### The budget -/

theorem length_outline_le (text : Units) {maxChars : ℚ} (h : 0 ≤ maxChars) :
    (outline text maxChars).length ≤ 23 + maxChars / 5 := by
  have hfifth : 0 ≤ maxChars / 5 := by positivity
  have hfloor : 0 ≤ ⌊maxChars / 5⌋ := Int.floor_nonneg.2 hfifth
  have htitle : (Units.ofString "Структура матеріалу:\n").length = 21 := by decide
  have hbreaks : (Units.ofString "\n\n").length = 2 := by decide
  rw [outline]
  split
  · rw [List.length_nil]
    push_cast
    linarith
  · rw [Units.slice_front _ hfloor]
    simp only [List.length_append, htitle, hbreaks]
    have htake : (([0xa].intercalate (headings text)).take ⌊maxChars / 5⌋.toNat).length ≤
        ⌊maxChars / 5⌋.toNat := List.length_take_le _ _
    have hcast : ((⌊maxChars / 5⌋.toNat : ℤ) : ℚ) ≤ maxChars / 5 := by
      rw [Int.toNat_of_nonneg hfloor]
      exact Int.floor_le _
    have hlength : (([0xa].intercalate (headings text)).take ⌊maxChars / 5⌋.toNat).length ≤
        maxChars / 5 := (Nat.cast_le.2 htake).trans (by exact_mod_cast hcast)
    push_cast
    linarith

/-- What the sections take together, with all markers, is within the limit. The markers are counted
with two excerpts for a section. -/
theorem budget_spec {outline : Units} {maxChars : ℚ} (h : 2000 ≤ maxChars)
    (houtline : outline.length ≤ 23 + maxChars / 5) {count : Nat} (hpos : 0 < count)
    (hcount : count ≤ 16) :
    2 ≤ budget outline maxChars count ∧
      outline.length + (count * (budget outline maxChars count + 64) - 32 : ℚ) ≤ maxChars := by
  have hpos' : (0 : ℚ) < count := Nat.cast_pos.2 hpos
  have hcount' : (count : ℚ) ≤ 16 := by exact_mod_cast hcount
  rw [budget, length_marker]
  constructor
  · rw [Int.le_floor, le_div_iff₀ hpos']
    push_cast
    linarith
  · have hfloor := Int.floor_le ((maxChars - outline.length - (32 : Nat) * (count * 2 - 1)) / count)
    rw [le_div_iff₀ hpos'] at hfloor
    push_cast at hfloor ⊢
    linarith

/-- What a text without sections gives: three parts of one size. -/
theorem thirds_spec {outline : Units} {maxChars : ℚ} (h : 2000 ≤ maxChars)
    (houtline : outline.length ≤ 23 + maxChars / 5) :
    1 ≤ ⌊(maxChars - outline.length - marker.length * 2) / 3⌋ ∧
      outline.length + 64 + 3 * (⌊(maxChars - outline.length - marker.length * 2) / 3⌋ : ℚ) ≤
        maxChars := by
  rw [length_marker]
  constructor
  · rw [Int.le_floor]
    push_cast
    linarith
  · have hfloor := Int.floor_le ((maxChars - outline.length - (32 : Nat) * 2) / 3)
    push_cast at hfloor ⊢
    linarith

/-! ### The sample -/

/-- The text of a context is an outline and excerpts of a text, with markers between them. The
excerpts are as they stand in the text, in its order. -/
structure IsSample (text outline context : Units) (excerpts : List Units) : Prop where
  text_eq : context = outline ++ marker.intercalate excerpts
  nonempty : ∀ e ∈ excerpts, e ≠ []
  inOrder : Excerpts excerpts text
  first : ∃ e, excerpts.head? = some e ∧ e <+: text
  last : ∃ e, excerpts.getLast? = some e ∧ e <:+ text
  /-- Every section that is taken gives excerpts, the first of which it begins with. -/
  sections : 2 ≤ (sections text).length → ∃ chosen given,
    Sample chosen (SeoTextContext.sections text) ∧
      ((SeoTextContext.sections text).length ≤ 16 → chosen = SeoTextContext.sections text) ∧
      chosen.length = min (SeoTextContext.sections text).length 16 ∧
      given.flatten = excerpts ∧
      List.Forall₂ (fun part es => ∃ e, es.head? = some e ∧ e <+: part) chosen given

end SeoTextContext

open SeoTextContext

/-- A text with sections. -/
theorem sample_sections {text : Units} {u : Nat} {rest : Units} (htext : text = u :: rest)
    (hu : Units.isSpace u = false) (hsections : 2 ≤ (sections text).length) (outline : Units)
    {budget : ℤ} (hbudget : 2 ≤ budget) :
    IsSample text outline
      (outline ++ marker.intercalate ((selected (sections text)).map (excerpt budget)))
      ((selected (sections text)).flatMap (parts budget)) := by
  subst htext
  obtain ⟨hne, hflatten, hparts⟩ := sections_spec hu rest
  obtain ⟨hsample, hall⟩ := selected_spec hne
  have hexcerpts := hsample.flatMap (parts_excerpts hbudget)
  rw [hflatten] at hexcerpts
  refine ⟨?_, ?_, hexcerpts, hexcerpts.head, hexcerpts.getLast, fun _ =>
    ⟨_, (selected (sections (u :: rest))).map (parts budget), hsample, hall,
      length_selected _, ?_, ?_⟩⟩
  · have hjoined := Words.intercalate_map_intercalate marker
      (fun part => (parts_excerpts hbudget part).ne_nil) (selected (sections (u :: rest)))
    rw [← hjoined]
    exact congrArg (fun f => outline ++ marker.intercalate ((selected (sections (u :: rest))).map f))
      (funext (excerpt_eq hbudget))
  · intro e he
    obtain ⟨part, hpart, he⟩ := List.mem_flatMap.1 he
    exact parts_ne_nil hbudget (hparts part (hsample.subset hpart)) e he
  · exact (List.flatMap_def ..).symm
  · rw [List.forall₂_map_right_iff, List.forall₂_same]
    exact fun part _ => (parts_excerpts hbudget part).head

theorem length_sample_sections {sections : List Units} (hne : sections ≠ []) {outline : Units}
    {maxChars : ℚ} (h : 2000 ≤ maxChars) (houtline : outline.length ≤ 23 + maxChars / 5) :
    ((outline ++ marker.intercalate ((selected sections).map
      (excerpt (budget outline maxChars (selected sections).length)))).length : ℚ) ≤ maxChars := by
  have hlength := length_selected sections
  have hpos : 0 < sections.length := List.length_pos_of_ne_nil hne
  obtain ⟨hbudget, htotal⟩ :=
    @budget_spec outline maxChars h houtline (selected sections).length (by omega) (by omega)
  -- Every excerpt has the length that the budget allows, with the marker in its middle.
  have hexcerpt : ∀ part ∈ (selected sections).map
      (excerpt (budget outline maxChars (selected sections).length)), part.length ≤
        (budget outline maxChars (selected sections).length + 32).toNat := by
    intro part hpart
    obtain ⟨part, -, rfl⟩ := List.mem_map.1 hpart
    have hle := length_excerpt_le hbudget part
    omega
  have hselected : (selected sections).map
      (excerpt (budget outline maxChars (selected sections).length)) ≠ [] := by
    refine List.ne_nil_of_length_pos ?_
    rw [List.length_map]
    omega
  have hjoined := @Words.length_intercalate_le _ marker _ _ hselected hexcerpt
  rw [length_marker, List.length_map] at hjoined
  -- The budget is an integer that may be negative, and 32 more than it is not.
  have hcast : ((budget outline maxChars (selected sections).length + 32).toNat : ℚ) =
      budget outline maxChars (selected sections).length + 32 := by
    have hnonneg : 0 ≤ budget outline maxChars (selected sections).length + 32 := by omega
    exact_mod_cast congrArg (fun n : ℤ => (n : ℚ)) (Int.toNat_of_nonneg hnonneg)
  have hjoined' : ((marker.intercalate ((selected sections).map
      (excerpt (budget outline maxChars (selected sections).length)))).length : ℚ) + 32 ≤
      (selected sections).length * (budget outline maxChars (selected sections).length + 32 + 32) := by
    rw [← hcast]
    exact_mod_cast hjoined
  rw [List.length_append]
  push_cast
  linarith

/-- A text without sections. -/
theorem sample_thirds {text : Units} {size : ℤ} (hsize : 1 ≤ size) (hlength : 3 * size ≤ text.length)
    (hsections : (sections text).length ≤ 1) (outline : Units) :
    IsSample text outline
      (outline ++ text.slice 0 (some size) ++ marker ++
        text.slice ⌊(text.length - size : ℚ) / 2⌋ (some (⌊(text.length - size : ℚ) / 2⌋ + size)) ++
        marker ++ text.slice (-size) none)
      (thirds size.toNat text) := by
  have hmiddle : ⌊(text.length - size : ℚ) / 2⌋ = ((text.length - size.toNat) / 2 : Nat) := by
    have hfloor := Rat.floor_intCast_div_natCast (text.length - size) 2
    push_cast at hfloor
    rw [hfloor]
    omega
  have hpart : (((text.length - size.toNat) / 2 : Nat) + size).toNat -
      (((text.length - size.toNat) / 2 : Nat) : ℤ).toNat = size.toNat := by omega
  have hexcerpts := @thirds_excerpts size.toNat text (by omega)
  have hlengths := @length_thirds size.toNat text (by omega)
  rw [hmiddle, Units.slice_front text (by omega), Units.slice_from_to text (by omega) (by omega)
    (by omega), Units.slice_back text (by omega) (by omega), hpart, Int.toNat_natCast]
  refine ⟨?_, fun e he => ?_, hexcerpts, hexcerpts.head, hexcerpts.getLast, fun htwo => by omega⟩
  · simp [thirds, List.intercalate_cons_cons]
  · refine List.ne_nil_of_length_pos ?_
    rw [hlengths e he]
    omega

theorem length_sample_thirds {text outline context : Units} {size : ℤ} (hsize : 1 ≤ size)
    (hlength : 3 * size ≤ text.length) {maxChars : ℚ}
    (htotal : outline.length + 64 + 3 * (size : ℚ) ≤ maxChars)
    (h : IsSample text outline context (thirds size.toNat text)) :
    (context.length : ℚ) ≤ maxChars := by
  have hlengths := @length_thirds size.toNat text (by omega)
  have hjoined := @Words.length_intercalate_le _ marker size.toNat (thirds size.toNat text)
    (List.cons_ne_nil _ _) fun e he => (hlengths e he).le
  rw [length_marker] at hjoined
  have hcast : (size.toNat : ℚ) = size := by
    exact_mod_cast congrArg (fun n : ℤ => (n : ℚ)) (Int.toNat_of_nonneg (by omega : 0 ≤ size))
  have hjoined' : ((marker.intercalate (thirds size.toNat text)).length : ℚ) + 32 ≤
      3 * (size + 32) := by
    rw [← hcast]
    exact_mod_cast hjoined
  rw [h.text_eq, List.length_append]
  push_cast
  linarith

/-- **The context is a bounded sample of the text.** -/
theorem prepareSeoContext_spec (text : Units) {maxChars : ℚ} (h : 2000 ≤ maxChars) :
    (prepareSeoContext text maxChars).text.length ≤ maxChars ∧
      ((prepareSeoContext text maxChars).sourceTruncated = false ↔ text.trim.length ≤ maxChars) ∧
      (text.trim.length ≤ maxChars → (prepareSeoContext text maxChars).text = text.trim) ∧
      (¬text.trim.length ≤ maxChars → ∃ excerpts, IsSample text.trim (outline text.trim maxChars)
        (prepareSeoContext text maxChars).text excerpts) := by
  by_cases hfits : (text.trim.length : ℚ) ≤ maxChars
  · simp [prepareSeoContext, hfits]
  -- The text is too long and therefore not blank; trimmed, it begins with no white space.
  · obtain ⟨u, rest, htext⟩ := List.exists_cons_of_ne_nil (l := text.trim) (by
      intro hnil
      rw [hnil, List.length_nil] at hfits
      exact hfits (by push_cast; linarith))
    have hu := Units.head_trim htext
    have houtline := length_outline_le text.trim (by linarith : 0 ≤ maxChars)
    have hlength := length_selected (sections text.trim)
    obtain ⟨hne, -, -⟩ := sections_spec hu rest
    rw [← htext] at hne
    rw [prepareSeoContext]
    dsimp only
    rw [if_neg hfits]
    -- With more than one section the excerpts are of sections, else of thirds of the text.
    by_cases hsections : (selected (sections text.trim)).length > 1
    · rw [if_pos hsections]
      have hbudget := (@budget_spec (outline text.trim maxChars) maxChars h houtline
        (selected (sections text.trim)).length (by omega) (by omega)).1
      exact ⟨length_sample_sections hne h houtline, by simp [hfits], fun hle => absurd hle hfits,
        fun _ => ⟨_, sample_sections htext hu (by omega) _ hbudget⟩⟩
    · rw [if_neg hsections]
      obtain ⟨hsize, htotal⟩ := thirds_spec h houtline
      have hthirds : 3 * ⌊(maxChars - (outline text.trim maxChars).length - marker.length * 2) / 3⌋ ≤
          (text.trim.length : ℤ) := by
        have hnonneg : (0 : ℚ) ≤ (outline text.trim maxChars).length := Nat.cast_nonneg _
        have hle : (3 : ℚ) * ⌊(maxChars - (outline text.trim maxChars).length -
            marker.length * 2) / 3⌋ ≤ text.trim.length := by linarith
        exact_mod_cast hle
      have hsample := sample_thirds hsize hthirds (by omega) (outline text.trim maxChars)
      exact ⟨length_sample_thirds hsize hthirds htotal hsample, by simp [hfits], fun hle => absurd hle hfits,
        fun _ => ⟨_, hsample⟩⟩

/-- A text that is kept, and one of a single word that is not. -/
theorem long_word_sampled :
    (prepareSeoContext (Units.ofString "Вступ\n## Розділ ") 12000).text =
        Units.ofString "Вступ\n## Розділ" ∧
      (prepareSeoContext (List.replicate 2001 0x430) 2000).text.length ≤ (2000 : ℚ) ∧
      (prepareSeoContext (List.replicate 2001 0x430) 2000).sourceTruncated ≠ false := by
  have hshort : (Units.ofString "Вступ\n## Розділ ").trim = Units.ofString "Вступ\n## Розділ" := by
    decide +kernel
  have hfits : (Units.ofString "Вступ\n## Розділ").length = 15 := by decide +kernel
  have hlong : (Units.trim (List.replicate 2001 0x430)).length = 2001 := by decide +kernel
  refine ⟨?_, (prepareSeoContext_spec _ le_rfl).1, ?_⟩
  · rw [← hshort]
    refine (prepareSeoContext_spec _ (by norm_num)).2.2.1 ?_
    rw [hshort, hfits]
    norm_num
  · rw [Ne, (prepareSeoContext_spec _ le_rfl).2.1, hlong]
    norm_num

end VetHealth
