import VetHealth.Js.Number
import VetHealth.Common.Domain
import Mathlib.Data.List.TakeDrop
import Mathlib.Data.List.TakeWhile

/-!
# VetHealth.Auth.PasswordHash

**Stored passwords.** A password is stored as `salt.key`: sixteen random bytes and the 32 bytes
that `scrypt` derives from the password and the salt's text, both in hexadecimal.
`comparePassword` takes a stored text apart again. On a stored text that `hashPassword` made it
succeeds, and answers whether the two derived keys agree (`comparePassword_hashPassword`).
-/

namespace VetHealth

open Js

/-- `scrypt(password, salt, 32)`. -/
class Scrypt where
  scrypt : String → String → Vector UInt8 32

/-! ### Hexadecimal texts -/

/-- The two digits of a byte. -/
def hexOfByte (b : UInt8) : List Char := [Nat.digitChar (b.toNat / 16), Nat.digitChar (b.toNat % 16)]

/-- `buffer.toString('hex')`. -/
def toHex (bytes : List UInt8) : List Char := bytes.flatMap hexOfByte

/-- `Buffer.from(text, 'hex')`: whole bytes, up to the first pair that is none. -/
def fromHex : List Char → List UInt8
  | c :: d :: cs =>
      match digitValue 16 c, digitValue 16 d with
      | some high, some low => UInt8.ofNat (16 * high + low) :: fromHex cs
      | _, _ => []
  | _ => []

theorem digitValue_digitChar {n : Nat} (h : n < 16) : digitValue 16 (Nat.digitChar n) = some n := by
  have hall : ∀ k : Fin 16, digitValue 16 (Nat.digitChar k) = some k.val := by decide
  exact hall ⟨n, h⟩

theorem fromHex_toHex (bytes : List UInt8) : fromHex (toHex bytes) = bytes := by
  induction bytes with
  | nil => rfl
  | cons b bytes ih =>
      have hb : b.toNat < 256 := b.toNat_lt
      have hhigh := digitValue_digitChar (n := b.toNat / 16) (by omega)
      have hlow := digitValue_digitChar (n := b.toNat % 16) (by omega)
      have hsum : 16 * (b.toNat / 16) + b.toNat % 16 = b.toNat := by omega
      show fromHex (_ :: _ :: toHex bytes) = _
      rw [fromHex, hhigh, hlow]
      dsimp only
      rw [hsum, ih, UInt8.ofNat_toNat]

theorem digitChar_ne_dot {n : Nat} (h : n < 16) : Nat.digitChar n ≠ '.' := by
  have hall : ∀ k : Fin 16, Nat.digitChar k ≠ '.' := by decide
  exact hall ⟨n, h⟩

theorem dot_not_mem_toHex (bytes : List UInt8) : '.' ∉ toHex bytes := by
  intro hmem
  obtain ⟨b, -, hb⟩ := List.mem_flatMap.1 hmem
  have hlt : b.toNat < 256 := b.toNat_lt
  rcases List.mem_cons.1 hb with h | h
  · exact digitChar_ne_dot (by omega) h.symm
  · exact digitChar_ne_dot (by omega) (List.mem_singleton.1 h).symm

/-! ### `hashPassword` and `comparePassword` -/

/-- The part before the first point, and the part after it when there is one. -/
abbrev cutAtDot (cs : List Char) : List Char × Option (List Char) := cutAt (fun c => c = '.') cs

theorem cutAtDot_of_not_mem {cs : List Char} (h : '.' ∉ cs) : cutAtDot cs = (cs, none) := by
  have hall : ∀ c ∈ cs, (!decide (c = '.')) = true := by
    intro c hc
    have hne : c ≠ '.' := fun heq => h (heq ▸ hc)
    simp [hne]
  have hspan : cs.span (fun c => !decide (c = '.')) = (cs, []) := by
    rw [List.span_eq_takeWhile_dropWhile, List.takeWhile_eq_self_iff.2 hall,
      List.dropWhile_eq_nil_iff.2 hall]
  rw [cutAtDot, cutAt, hspan]

theorem cutAtDot_append {cs rest : List Char} (h : '.' ∉ cs) :
    cutAtDot (cs ++ '.' :: rest) = (cs, some rest) := by
  have hall : ∀ c ∈ cs, (!decide (c = '.')) = true := by
    intro c hc
    have hne : c ≠ '.' := fun heq => h (heq ▸ hc)
    simp [hne]
  have hspan : (cs ++ '.' :: rest).span (fun c => !decide (c = '.')) = (cs, '.' :: rest) := by
    rw [List.span_eq_takeWhile_dropWhile, List.takeWhile_append_of_pos hall,
      List.dropWhile_append_of_pos hall]
    simp
  rw [cutAtDot, cutAt, hspan]

/-- A well-formed stored password that nobody's password was hashed to. -/
def DUMMY_PASSWORD_HASH : String :=
  "6647e67b1fac0cc0f1d3ff5481c9e0e0.d297166ebb2070ca44ab100278a91fbba173771e90047cf49879cee178729750"

variable [Scrypt]

/-- `hashPassword`, with the sixteen random bytes of its salt. -/
def hashPassword (password : String) (bytes : Vector UInt8 16) : String :=
  let salt := toHex bytes.toList
  String.ofList (salt ++ '.' :: toHex (Scrypt.scrypt password (String.ofList salt)).toList)

/-- `comparePassword`. A stored text without a point makes `Buffer.from` throw, and one whose key
has not 32 bytes makes `timingSafeEqual` throw. -/
def comparePassword (password : String) (hash : Option String) : Except Failure Bool :=
  match hash with
  | none => .error (.internal .typeError)
  | some hash =>
      match cutAtDot hash.toList with
      | (_, none) => .error (.internal .typeError)
      | (salt, some rest) =>
          let hashKey := fromHex (cutAtDot rest).1
          if hashKey.length ≠ 32 then .error (.internal .rangeError)
          else .ok (hashKey = (Scrypt.scrypt password (String.ofList salt)).toList)

/-- **Comparing with a stored password compares derived keys**, under the stored salt. -/
theorem comparePassword_hashPassword (password stored : String) (bytes : Vector UInt8 16) :
    comparePassword password (some (hashPassword stored bytes)) =
      .ok (Scrypt.scrypt stored (String.ofList (toHex bytes.toList)) =
        Scrypt.scrypt password (String.ofList (toHex bytes.toList))) := by
  have hkey := cutAtDot_of_not_mem
    (dot_not_mem_toHex (Scrypt.scrypt stored (String.ofList (toHex bytes.toList))).toList)
  rw [comparePassword, hashPassword]
  dsimp only
  rw [String.toList_ofList, cutAtDot_append (dot_not_mem_toHex _)]
  dsimp only
  rw [hkey, fromHex_toHex, if_neg (by simp)]
  simp only [Vector.toList_inj]

end VetHealth
