import VetHealth.Files.Keys
import VetHealth.Js.Bytes

/-!
# VetHealth.Files.Sniffing

**Signatures.** `sniffImageType` looks for the signatures of its types one after the other. Most of
them it reads as text, which drops the highest bit of each byte, and of the two versions of GIF it
reads the common beginning only. So bytes may pass for a signature that they do not carry.

Two signatures exclude each other, but for that of JPEG and those behind `ftyp`, which begins at the
fifth byte. `signatures_iff` says when a buffer is taken for what its signature says.
-/

namespace VetHealth

open Js Matching Matching.Regex ImageRefs

def asciiAt (buffer : List UInt8) (offset length : Nat) : List Char :=
  Bytes.toAscii ((buffer.drop offset).take length)

/-- `/<svg[\s>]/i`. -/
def SVG_RE : Regex Char := .seq (word "<svg") (.one fun c => isSpace c || c = '>')

def sniffImageType (buffer : List UInt8) : Option SniffedImage :=
  if buffer.length < 12 then none
  else if buffer[0]? = some 0xFF ∧ buffer[1]? = some 0xD8 ∧ buffer[2]? = some 0xFF then some .jpeg
  else if buffer[0]? = some 0x89 ∧ asciiAt buffer 1 3 = "PNG".toList ∧ buffer[4]? = some 0x0D ∧
      buffer[5]? = some 0x0A ∧ buffer[6]? = some 0x1A ∧ buffer[7]? = some 0x0A then some .png
  else if asciiAt buffer 0 3 = "GIF".toList then some .gif
  else if asciiAt buffer 0 4 = "RIFF".toList ∧ asciiAt buffer 8 4 = "WEBP".toList then some .webp
  else
    let brand := asciiAt buffer 8 4
    if asciiAt buffer 4 4 = "ftyp".toList ∧ (brand = "avif".toList ∨ brand = "avis".toList) then
      some .avif
    else if asciiAt buffer 4 4 = "ftyp".toList ∧
        (brand = "heic".toList ∨ brand = "heix".toList ∨ brand = "mif1".toList) then some .heic
    else
      -- a text, which has no signature
      let head := (Bytes.toUtf8 (buffer.take 1024)).dropWhile isSpace
      if ("<?xml".toList <+: head ∨ "<svg".toList <+: head) ∧ (SVG_RE.find head).isSome then
        some .svg
      else none

/-- The signature that the comments give for a type. -/
def HasSignature (buffer : List UInt8) : SniffedImage → Prop
  | .jpeg => [0xFF, 0xD8, 0xFF] <+: buffer
  | .png => [0x89, 0x50, 0x4E, 0x47, 0x0D, 0x0A, 0x1A, 0x0A] <+: buffer
  | .gif => Bytes.ascii "GIF87a".toList <+: buffer ∨ Bytes.ascii "GIF89a".toList <+: buffer
  | .webp =>
      Bytes.ascii "RIFF".toList <+: buffer ∧ Bytes.ascii "WEBP".toList <+: buffer.drop 8
  | .avif =>
      Bytes.ascii "ftyp".toList <+: buffer.drop 4 ∧
        ∃ brand ∈ ["avif".toList, "avis".toList], Bytes.ascii brand <+: buffer.drop 8
  | .heic =>
      Bytes.ascii "ftyp".toList <+: buffer.drop 4 ∧
        ∃ brand ∈ ["heic".toList, "heix".toList, "mif1".toList],
          Bytes.ascii brand <+: buffer.drop 8
  | .svg => False

/-! ### The tests -/

/-- What the function compares for a type. -/
def Passes (buffer : List UInt8) : SniffedImage → Prop
  | .jpeg => buffer[0]? = some 0xFF ∧ buffer[1]? = some 0xD8 ∧ buffer[2]? = some 0xFF
  | .png =>
      buffer[0]? = some 0x89 ∧ asciiAt buffer 1 3 = "PNG".toList ∧ buffer[4]? = some 0x0D ∧
        buffer[5]? = some 0x0A ∧ buffer[6]? = some 0x1A ∧ buffer[7]? = some 0x0A
  | .gif => asciiAt buffer 0 3 = "GIF".toList
  | .webp => asciiAt buffer 0 4 = "RIFF".toList ∧ asciiAt buffer 8 4 = "WEBP".toList
  | .avif =>
      asciiAt buffer 4 4 = "ftyp".toList ∧
        (asciiAt buffer 8 4 = "avif".toList ∨ asciiAt buffer 8 4 = "avis".toList)
  | .heic =>
      asciiAt buffer 4 4 = "ftyp".toList ∧ (asciiAt buffer 8 4 = "heic".toList ∨
        asciiAt buffer 8 4 = "heix".toList ∨ asciiAt buffer 8 4 = "mif1".toList)
  | .svg => False

/-- No byte of a part of a buffer has its highest bit set. -/
def IsLow (buffer : List UInt8) (offset length : Nat) : Prop :=
  ∀ b ∈ (buffer.drop offset).take length, b < 128

/-- What is read as text is there in the bytes, and GIF comes with its version. -/
def IsExact (buffer : List UInt8) : SniffedImage → Prop
  | .png => IsLow buffer 1 3
  | .gif => Bytes.ascii "GIF87a".toList <+: buffer ∨ Bytes.ascii "GIF89a".toList <+: buffer
  | .webp => IsLow buffer 0 4 ∧ IsLow buffer 8 4
  | .avif | .heic => IsLow buffer 4 4 ∧ IsLow buffer 8 4
  | .jpeg | .svg => True

/-- The types of ISO base media files. -/
def SniffedImage.IsContainer (image : SniffedImage) : Prop := image = .avif ∨ image = .heic

theorem asciiAt_head {buffer : List UInt8} {offset length : Nat} {c : Char} {cs : List Char}
    (h : asciiAt buffer offset length = c :: cs) :
    buffer[offset]?.map Bytes.asciiChar = some c := by
  rw [← List.head?_drop]
  rw [asciiAt, Bytes.toAscii, List.map_eq_cons_iff] at h
  obtain ⟨b, rest, htake, rfl, -⟩ := h
  cases hdrop : buffer.drop offset with
  | nil => simp [hdrop] at htake
  | cons d bytes =>
      rw [hdrop] at htake
      cases length with
      | zero => cases htake
      | succ length => exact congrArg (some ∘ Bytes.asciiChar) (List.cons.inj htake).1

/-- A word at a place, as text and as bytes. -/
theorem ascii_at_iff (text : List Char) (h : ∀ c ∈ text, c.toNat < 128) (buffer : List UInt8)
    (offset : Nat) :
    Bytes.ascii text <+: buffer.drop offset ↔
      asciiAt buffer offset text.length = text ∧ IsLow buffer offset text.length :=
  Bytes.ascii_isPrefix_iff h

/-- One of the brands of a type stands behind `ftyp`. -/
theorem brand_iff (buffer : List UInt8) (brands : List (List Char))
    (h : ∀ brand ∈ brands, brand.length = 4 ∧ ∀ c ∈ brand, c.toNat < 128) :
    (∃ brand ∈ brands, Bytes.ascii brand <+: buffer.drop 8) ↔
      asciiAt buffer 8 4 ∈ brands ∧ IsLow buffer 8 4 := by
  constructor
  · intro ⟨brand, hbrand, hbytes⟩
    obtain ⟨hlength, hchars⟩ := h brand hbrand
    obtain ⟨htext, hlow⟩ := (ascii_at_iff _ hchars buffer 8).1 hbytes
    rw [hlength] at htext hlow
    exact ⟨htext ▸ hbrand, hlow⟩
  · intro ⟨hbrand, hlow⟩
    obtain ⟨hlength, hchars⟩ := h _ hbrand
    refine ⟨_, hbrand, (ascii_at_iff _ hchars buffer 8).2 ?_⟩
    rw [hlength]
    exact ⟨rfl, hlow⟩

/-- The bytes of a signature are what is compared, without the highest bits that are dropped. -/
theorem hasSignature_iff {buffer : List UInt8} {image : SniffedImage} :
    HasSignature buffer image ↔ Passes buffer image ∧ IsExact buffer image := by
  have hftyp := ascii_at_iff "ftyp".toList (by decide) buffer 4
  cases image with
  | jpeg =>
      have hbytes : [0xFF, 0xD8, 0xFF] <+: buffer ↔
          [0xFF] ++ ([0xD8] ++ [0xFF]) <+: buffer.drop 0 := Iff.rfl
      simp only [HasSignature, Passes, IsExact, hbytes, Bytes.append_isPrefix_iff, List.drop_drop,
        Bytes.singleton_isPrefix_drop, List.length_singleton, and_true]
  | png =>
      have hbytes : [0x89, 0x50, 0x4E, 0x47, 0x0D, 0x0A, 0x1A, 0x0A] <+: buffer ↔
          [0x89] ++ (Bytes.ascii "PNG".toList ++ ([0x0D] ++ ([0x0A] ++ ([0x1A] ++ [0x0A])))) <+:
            buffer.drop 0 := Iff.rfl
      -- The text `PNG` is compared as text, the other bytes as bytes.
      have hpng := ascii_at_iff "PNG".toList (by decide) buffer 1
      have hlength : (Bytes.ascii "PNG".toList).length = 3 := rfl
      simp only [HasSignature, Passes, IsExact, hbytes, Bytes.append_isPrefix_iff, List.drop_drop,
        Bytes.singleton_isPrefix_drop, List.length_singleton, hlength]
      rw [hpng]
      tauto
  | gif =>
      -- Either version of GIF begins with the three letters that are compared.
      refine ⟨fun h => ⟨?_, h⟩, And.right⟩
      have hlead : Bytes.ascii "GIF".toList <+: buffer.drop 0 := by
        rcases h with h | h
        · exact (Bytes.append_isPrefix_iff (v := Bytes.ascii "87a".toList).1 h).1
        · exact (Bytes.append_isPrefix_iff (v := Bytes.ascii "89a".toList).1 h).1
      exact ((ascii_at_iff _ (by decide) buffer 0).1 hlead).1
  | webp =>
      have hriff := ascii_at_iff "RIFF".toList (by decide) buffer 0
      have hwebp := ascii_at_iff "WEBP".toList (by decide) buffer 8
      rw [HasSignature, hwebp]
      exact (and_congr_left' hriff).trans and_and_and_comm
  | avif =>
      have hbrand := brand_iff buffer ["avif".toList, "avis".toList] (by decide)
      rw [HasSignature, hftyp, hbrand]
      simp only [List.mem_cons, List.not_mem_nil, or_false]
      exact and_and_and_comm
  | heic =>
      have hbrand := brand_iff buffer ["heic".toList, "heix".toList, "mif1".toList] (by decide)
      rw [HasSignature, hftyp, hbrand]
      simp only [List.mem_cons, List.not_mem_nil, or_false]
      exact and_and_and_comm
  | svg => simp [HasSignature, Passes]

/-! ### Which tests exclude each other -/

/-- With what the parts begin that are compared for a type, as they are read. -/
def SniffedImage.marks : SniffedImage → List (Nat × List Char)
  | .jpeg => [(0, [Char.ofNat 0x7F])]
  | .png => [(0, [Char.ofNat 0x09]), (4, [Char.ofNat 0x0D])]
  | .gif => [(0, ['G'])]
  | .webp => [(0, ['R']), (8, ['W'])]
  | .avif => [(4, ['f']), (8, ['a'])]
  | .heic => [(4, ['f']), (8, ['h', 'm'])]
  | .svg => []

theorem Passes.marks {buffer : List UInt8} {image : SniffedImage} (h : Passes buffer image) :
    ∀ mark ∈ image.marks, ∃ c ∈ mark.2, buffer[mark.1]?.map Bytes.asciiChar = some c := by
  have hmark : ∀ {offset : Nat} {c : Char}, buffer[offset]?.map Bytes.asciiChar = some c →
      ∃ d ∈ [c], buffer[offset]?.map Bytes.asciiChar = some d :=
    fun hat => ⟨_, List.mem_singleton_self _, hat⟩
  cases image with
  | jpeg =>
      have hfirst := congrArg (Option.map Bytes.asciiChar) h.1
      exact List.forall_mem_singleton.2 (hmark hfirst)
  | png =>
      obtain ⟨hfirst, -, hbreak, -⟩ := h
      have hfirst := congrArg (Option.map Bytes.asciiChar) hfirst
      have hbreak := congrArg (Option.map Bytes.asciiChar) hbreak
      exact List.forall_mem_cons.2 ⟨hmark hfirst, List.forall_mem_singleton.2 (hmark hbreak)⟩
  | gif => exact List.forall_mem_singleton.2 (hmark (asciiAt_head h))
  | webp =>
      exact List.forall_mem_cons.2
        ⟨hmark (asciiAt_head h.1), List.forall_mem_singleton.2 (hmark (asciiAt_head h.2))⟩
  | avif =>
      have hbrand : buffer[8]?.map Bytes.asciiChar = some 'a' := by
        rcases h.2 with hbrand | hbrand
        · exact asciiAt_head hbrand
        · exact asciiAt_head hbrand
      exact List.forall_mem_cons.2
        ⟨hmark (asciiAt_head h.1), List.forall_mem_singleton.2 (hmark hbrand)⟩
  | heic =>
      have hbrand : ∃ c ∈ ['h', 'm'], buffer[8]?.map Bytes.asciiChar = some c := by
        rcases h.2 with hbrand | hbrand | hbrand
        · exact ⟨'h', by simp, asciiAt_head hbrand⟩
        · exact ⟨'h', by simp, asciiAt_head hbrand⟩
        · exact ⟨'m', by simp, asciiAt_head hbrand⟩
      exact List.forall_mem_cons.2
        ⟨hmark (asciiAt_head h.1), List.forall_mem_singleton.2 hbrand⟩
  | svg => cases h

/-- Two types are told apart by a byte that is compared for both. -/
def SniffedImage.clash (image other : SniffedImage) : Bool :=
  image.marks.any fun mark => other.marks.any fun mark' =>
    mark.1 = mark'.1 && mark.2.all fun c => !mark'.2.contains c

theorem Passes.not_of_clash {buffer : List UInt8} {image other : SniffedImage}
    (h : Passes buffer image) (hclash : image.clash other = true) : ¬Passes buffer other := by
  intro hother
  obtain ⟨mark, hmark, hany⟩ := List.any_eq_true.1 hclash
  obtain ⟨mark', hmark', hapart⟩ := List.any_eq_true.1 hany
  obtain ⟨hplace, hall⟩ := Bool.and_eq_true_iff.1 hapart
  obtain ⟨c, hc, hat⟩ := h.marks mark hmark
  obtain ⟨c', hc', hat'⟩ := hother.marks mark' hmark'
  rw [← of_decide_eq_true hplace, hat] at hat'
  obtain rfl := Option.some.inj hat'
  have hnot := List.all_eq_true.1 hall c hc
  rw [List.contains_iff_mem.2 hc'] at hnot
  cases hnot

/-- **What is recognised.** Only the test for JPEG and that for GIF come before one that may succeed on
the same buffer. -/
theorem sniffImageType_eq_some {buffer : List UInt8} {image : SniffedImage} (hsvg : image ≠ .svg) :
    sniffImageType buffer = some image ↔
      12 ≤ buffer.length ∧ Passes buffer image ∧
        (image.IsContainer → ¬Passes buffer .jpeg ∧ ¬Passes buffer .gif) := by
  constructor
  · intro h
    rw [sniffImageType] at h
    split at h
    · cases h
    rename_i hlength
    refine ⟨Nat.le_of_not_lt hlength, ?_⟩
    split at h
    · rename_i hjpeg
      obtain rfl := Option.some.inj h
      exact ⟨hjpeg, by simp [SniffedImage.IsContainer]⟩
    rename_i hjpeg
    split at h
    · rename_i hpng
      obtain rfl := Option.some.inj h
      exact ⟨hpng, by simp [SniffedImage.IsContainer]⟩
    split at h
    · rename_i hgif
      obtain rfl := Option.some.inj h
      exact ⟨hgif, by simp [SniffedImage.IsContainer]⟩
    rename_i hgif
    split at h
    · rename_i hwebp
      obtain rfl := Option.some.inj h
      exact ⟨hwebp, by simp [SniffedImage.IsContainer]⟩
    dsimp only at h
    split at h
    · rename_i havif
      obtain rfl := Option.some.inj h
      exact ⟨havif, fun _ => ⟨hjpeg, hgif⟩⟩
    split at h
    · rename_i hheic
      obtain rfl := Option.some.inj h
      exact ⟨hheic, fun _ => ⟨hjpeg, hgif⟩⟩
    split at h
    · exact absurd (Option.some.inj h).symm hsvg
    · cases h
  · intro ⟨hlength, hpasses, hearlier⟩
    have hnot : ∀ other : SniffedImage, image.clash other = true → ¬Passes buffer other :=
      fun _ => hpasses.not_of_clash
    rw [sniffImageType, if_neg (Nat.not_lt.2 hlength)]
    cases image with
    | jpeg => exact if_pos hpasses
    | png =>
        have hjpeg := hnot .jpeg (by decide)
        exact (if_neg hjpeg).trans (if_pos hpasses)
    | gif =>
        have hjpeg := hnot .jpeg (by decide)
        have hpng := hnot .png (by decide)
        exact (if_neg hjpeg).trans ((if_neg hpng).trans (if_pos hpasses))
    | webp =>
        have hjpeg := hnot .jpeg (by decide)
        have hpng := hnot .png (by decide)
        have hgif := hnot .gif (by decide)
        exact (if_neg hjpeg).trans ((if_neg hpng).trans ((if_neg hgif).trans (if_pos hpasses)))
    | avif =>
        obtain ⟨hjpeg, hgif⟩ := hearlier (Or.inl rfl)
        have hpng := hnot .png (by decide)
        have hwebp := hnot .webp (by decide)
        exact (if_neg hjpeg).trans ((if_neg hpng).trans ((if_neg hgif).trans
          ((if_neg hwebp).trans (if_pos hpasses))))
    | heic =>
        obtain ⟨hjpeg, hgif⟩ := hearlier (Or.inr rfl)
        have hpng := hnot .png (by decide)
        have hwebp := hnot .webp (by decide)
        have havif := hnot .avif (by decide)
        exact (if_neg hjpeg).trans ((if_neg hpng).trans ((if_neg hgif).trans
          ((if_neg hwebp).trans ((if_neg havif).trans (if_pos hpasses)))))
    | svg => exact absurd rfl hsvg

/-! ### SVG -/

theorem sniffImageType_of_not_passes {buffer : List UInt8} (hlength : 12 ≤ buffer.length)
    (h : ∀ image : SniffedImage, ¬Passes buffer image) :
    sniffImageType buffer =
      let head := (Bytes.toUtf8 (buffer.take 1024)).dropWhile isSpace
      if ("<?xml".toList <+: head ∨ "<svg".toList <+: head) ∧ (SVG_RE.find head).isSome then
        some .svg
      else none := by
  rw [sniffImageType, if_neg (Nat.not_lt.2 hlength)]
  exact (if_neg (h .jpeg)).trans ((if_neg (h .png)).trans ((if_neg (h .gif)).trans
    ((if_neg (h .webp)).trans ((if_neg (h .avif)).trans (if_neg (h .heic))))))

theorem find_SVG_RE {c : Char} (h : isSpace c = true ∨ c = '>') (rest : List Char) :
    (SVG_RE.find ("<svg".toList ++ c :: rest)).isSome = true := by
  have hword : startsWith ignoreCase "<svg".toList ("<svg".toList ++ c :: rest) = true :=
    startsWith_mono (u := "<svg".toList) (by decide) _
  have hdrop : ("<svg".toList ++ c :: rest).drop "<svg".toList.length = c :: rest := List.drop_left
  have hexec : (SVG_RE.exec ("<svg".toList ++ c :: rest)).isSome = true := by
    rw [SVG_RE, word, exec_text_seq, if_pos hword, hdrop]
    simp [exec, outcomes, h]
  obtain ⟨o, ho⟩ := Option.isSome_iff_exists.1 hexec
  have hfind : SVG_RE.find ("<svg".toList ++ c :: rest) =
      (SVG_RE.exec ("<svg".toList ++ c :: rest)).or (SVG_RE.find ("svg".toList ++ c :: rest)) := rfl
  rw [hfind, ho]
  rfl

/-- **A file that begins with the tag is an SVG**, wherever its first kilobyte ends. -/
theorem sniffImageType_svg {buffer rest : List UInt8} {c : Char} (hascii : c.toNat < 128)
    (hc : isSpace c = true ∨ c = '>') (hlength : 12 ≤ buffer.length)
    (hbuffer : buffer = Bytes.ascii ("<svg".toList ++ [c]) ++ rest) :
    sniffImageType buffer = some .svg := by
  have htag : ∀ d ∈ "<svg".toList ++ [c], d.toNat < 128 :=
    List.forall_mem_append.2 ⟨by decide, List.forall_mem_singleton.2 hascii⟩
  have hfirst : buffer[0]?.map Bytes.asciiChar = some '<' := by
    rw [hbuffer]
    rfl
  have hafter : buffer[4]?.map Bytes.asciiChar = some c := by
    rw [hbuffer]
    exact congrArg some (Bytes.asciiChar_ofNat hascii).1
  -- no signature begins with this byte, and none of a container goes on with the other one
  have hnot : ∀ image : SniffedImage, ¬Passes buffer image := by
    intro image hpasses
    have hat : ∀ mark ∈ image.marks, (mark.1 = 0 → '<' ∈ mark.2) ∧ (mark.1 = 4 → c ∈ mark.2) := by
      intro mark hmark
      obtain ⟨d, hd, hbyte⟩ := hpasses.marks mark hmark
      constructor
      · intro hplace
        rw [hplace, hfirst] at hbyte
        exact Option.some.inj hbyte ▸ hd
      · intro hplace
        rw [hplace, hafter] at hbyte
        exact Option.some.inj hbyte ▸ hd
    have hbrand : ¬c ∈ ['f'] := by
      intro hf
      rw [List.mem_singleton.1 hf] at hc
      exact absurd hc (by decide)
    cases image with
    | jpeg | png | gif | webp => exact absurd ((hat _ List.mem_cons_self).1 rfl) (by decide)
    | avif | heic => exact hbrand ((hat _ List.mem_cons_self).2 rfl)
    | svg => exact hpasses
  have hcut : buffer.take 1024 = Bytes.ascii ("<svg".toList ++ [c]) ++ rest.take 1019 := by
    rw [hbuffer, List.take_append]
    rfl
  have hhead : (Bytes.toUtf8 (buffer.take 1024)).dropWhile isSpace =
      "<svg".toList ++ c :: Bytes.toUtf8 (rest.take 1019) := by
    rw [hcut, Bytes.toUtf8_ascii_append htag, List.append_assoc]
    rfl
  rw [sniffImageType_of_not_passes hlength hnot]
  dsimp only
  rw [hhead]
  exact if_pos ⟨Or.inr ( List.prefix_append _ _), find_SVG_RE hc _⟩

/-! ### Signatures -/

/-- The signature of a type is there wherever its test succeeds and no earlier one, and there is no
JPEG that a container's signature is in too. -/
structure IsUnambiguous (buffer : List UInt8) : Prop where
  exact : ∀ image : SniffedImage, Passes buffer image →
    (image.IsContainer → ¬Passes buffer .jpeg) → IsExact buffer image
  single : ∀ image : SniffedImage, image.IsContainer → Passes buffer .jpeg →
    Passes buffer image → ¬IsExact buffer image

/-- A container has no version of GIF. -/
theorem not_gif_of_container {buffer : List UInt8} {image : SniffedImage}
    (hcontainer : image.IsContainer) (hpasses : Passes buffer image) : ¬IsExact buffer .gif := by
  intro hgif
  have hbox : buffer[4]?.map Bytes.asciiChar = some 'f' := by
    rcases hcontainer with rfl | rfl
    · exact asciiAt_head hpasses.1
    · exact asciiAt_head hpasses.1
  have hversion : ∃ b rest, 'f' ≠ Bytes.asciiChar b ∧ b :: rest <+: buffer.drop 4 := by
    rcases hgif with hgif | hgif
    · have hbytes := Bytes.append_isPrefix_iff (u := Bytes.ascii "GIF8".toList)
        (v := Bytes.ascii "7a".toList).1 hgif
      exact ⟨0x37, [0x61], by decide, hbytes.2⟩
    · have hbytes := Bytes.append_isPrefix_iff (u := Bytes.ascii "GIF8".toList)
        (v := Bytes.ascii "9a".toList).1 hgif
      exact ⟨0x39, [0x61], by decide, hbytes.2⟩
  obtain ⟨b, rest, hne, hbytes⟩ := hversion
  obtain ⟨tail, hdrop⟩ := hbytes
  rw [← List.head?_drop, ← hdrop] at hbox
  exact hne (Option.some.inj hbox).symm

/-- **When a buffer is what its signature says**, in both directions, and for each type that has a
signature. -/
theorem signatures_iff (buffer : List UInt8) :
    (∀ image : SniffedImage, image ≠ .svg →
      (sniffImageType buffer = some image → HasSignature buffer image) ∧
        (12 ≤ buffer.length → HasSignature buffer image →
          sniffImageType buffer = some image)) ↔
    buffer.length < 12 ∨ IsUnambiguous buffer := by
  constructor
  · intro h
    refine (Nat.lt_or_ge buffer.length 12).imp_right fun hlength => ⟨?_, ?_⟩
    · intro image hpasses hjpeg
      by_cases hsvg : image = .svg
      · rw [hsvg]
        trivial
      by_cases hgif : image.IsContainer ∧ Passes buffer .gif
      -- taken for a GIF, which it is not
      · have htaken := (sniffImageType_eq_some (by simp)).2
          ⟨hlength, hgif.2, by simp [SniffedImage.IsContainer]⟩
        have hexact := (hasSignature_iff.1 ((h .gif (by simp)).1 htaken)).2
        exact absurd hexact (not_gif_of_container hgif.1 hpasses)
      · have htaken := (sniffImageType_eq_some hsvg).2
          ⟨hlength, hpasses, fun hc => ⟨hjpeg hc, fun hg => hgif ⟨hc, hg⟩⟩⟩
        exact (hasSignature_iff.1 ((h image hsvg).1 htaken)).2
    · intro image hcontainer hjpeg hpasses hexact
      have hsvg : image ≠ .svg := by rcases hcontainer with rfl | rfl <;> simp
      have htaken := (h image hsvg).2 hlength (hasSignature_iff.2 ⟨hpasses, hexact⟩)
      exact (((sniffImageType_eq_some hsvg).1 htaken).2.2 hcontainer).1 hjpeg
  · intro h image hsvg
    rw [sniffImageType_eq_some hsvg]
    constructor
    · intro ⟨hlength, hpasses, hearlier⟩
      have hplain := h.resolve_left (Nat.not_lt.2 hlength)
      exact hasSignature_iff.2 ⟨hpasses, hplain.exact image hpasses fun hc => (hearlier hc).1⟩
    · intro hlength hsignature
      have hplain := h.resolve_left (Nat.not_lt.2 hlength)
      obtain ⟨hpasses, hexact⟩ := hasSignature_iff.1 hsignature
      refine ⟨hlength, hpasses, fun hc => ⟨fun hjpeg => ?_, fun hgif => ?_⟩⟩
      · exact hplain.single image hc hjpeg hpasses hexact
      · exact not_gif_of_container hc hpasses
          (hplain.exact .gif hgif (by simp [SniffedImage.IsContainer]))

/-- A text is taken for a GIF. -/
theorem gifts_taken_for_gif :
    (sniffImageType (Bytes.ascii "GIFTS FOR CATS".toList) = some .gif ∧
      ¬HasSignature (Bytes.ascii "GIFTS FOR CATS".toList) .gif) ∧
    ¬∀ buffer image, image ≠ .svg →
      (sniffImageType buffer = some image → HasSignature buffer image) ∧
        (12 ≤ buffer.length → HasSignature buffer image → sniffImageType buffer = some image) := by
  have htaken : sniffImageType (Bytes.ascii "GIFTS FOR CATS".toList) = some .gif := rfl
  have hnot : ¬HasSignature (Bytes.ascii "GIFTS FOR CATS".toList) .gif := by
    show ¬(_ ∨ _)
    decide
  exact ⟨⟨htaken, hnot⟩, fun h => hnot ((h _ _ (by simp)).1 htaken)⟩

end VetHealth
