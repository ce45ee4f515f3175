import Mathlib.Algebra.GroupWithZero.Nat
import Mathlib.Data.Rat.Defs

/-!
# VetHealth.Js.Number

**JavaScript numbers.** A number that JSON can carry is a finite double, so it is
a rational; `NaN` and the infinities are the `none` of `stringToNumber`, which is
all that a comparison with a finite number needs of them.

`stringToNumber` is the conversion behind `Number(text)`: it trims, reads an
empty text as `0`, reads `0x`/`0o`/`0b` literals, and otherwise reads a signed
decimal literal, whose exact value is rounded to the nearest double
(`roundToDouble`, ties to even).
-/

namespace Js

/-! ### Rounding to a double -/

/-- `n / d` rounded to an integer, ties to even. -/
def roundHalfEven (n d : Nat) : Nat :=
  let q := n / d
  if 2 * (n % d) < d then q
  else if d < 2 * (n % d) then q + 1
  else q + q % 2

/-- The exponent `k` with `2 ^ k ≤ n / d < 2 ^ (k + 1)`. The two logarithms give it up to one, and a
comparison decides. -/
def binaryExponent (n d : Nat) : Int :=
  let k : Int := (Nat.log2 n : Int) - Nat.log2 d
  let fits := if 0 ≤ k then d * 2 ^ k.toNat ≤ n else d ≤ n * 2 ^ (-k).toNat
  if fits then k else k - 1

/-- The double nearest to `q`; `none` when that is an infinity. A number of a body has been rounded
before any check sees it. -/
def roundToDouble (q : ℚ) : Option ℚ :=
  if q = 0 then some 0 else
    let n := q.num.natAbs
    -- the unit in the last place: 53 significant bits, never below `2 ^ -1074`
    let u := max (binaryExponent n q.den - 52) (-1074)
    let m := if 0 ≤ u then roundHalfEven n (q.den * 2 ^ u.toNat)
      else roundHalfEven (n * 2 ^ (-u).toNat) q.den
    let rounded : ℚ := if 0 ≤ u then m * 2 ^ u.toNat else mkRat m (2 ^ (-u).toNat)
    if (2 : ℚ) ^ 1024 ≤ rounded then none
    else some (if q < 0 then -rounded else rounded)

/-! ### Reading numeric literals -/

/-- A property of every character of a text is decided along the text, not over all characters.
Without it a test on one text would go through a million characters. -/
instance (priority := high) decidableForallChars (p : Char → Prop) [DecidablePred p]
    (text : List Char) : Decidable (∀ c ∈ text, p c) :=
  List.decidableBAll p text

/-- White space and line terminators of the language. -/
def isSpace (c : Char) : Bool :=
  c.toNat ∈ [0x9, 0xa, 0xb, 0xc, 0xd, 0x20, 0xa0, 0x1680, 0x2028, 0x2029, 0x202f, 0x205f,
    0x3000, 0xfeff] || (0x2000 ≤ c.toNat && c.toNat ≤ 0x200a)

/-- Drop white space at both ends. -/
def trim (cs : List Char) : List Char :=
  ((cs.dropWhile isSpace).reverse.dropWhile isSpace).reverse

/-- The value of a digit in a base of at most 16, in either case of its letter. -/
def digitValue (base : Nat) (c : Char) : Option Nat :=
  let v :=
    if '0' ≤ c ∧ c ≤ '9' then c.toNat - '0'.toNat
    else if 'a' ≤ c ∧ c ≤ 'f' then c.toNat - 'a'.toNat + 10
    else if 'A' ≤ c ∧ c ≤ 'F' then c.toNat - 'A'.toNat + 10
    else base
  if v < base then some v else none

/-- Read digits onto `acc`; anything else makes the literal malformed. -/
def readDigits (base acc : Nat) : List Char → Option Nat
  | [] => some acc
  | c :: cs => (digitValue base c).bind fun v => readDigits base (acc * base + v) cs

/-- At least one digit. -/
def readDigits1 (base : Nat) (cs : List Char) : Option Nat :=
  if cs.isEmpty then none else readDigits base 0 cs

/-- An optional sign, then what it stands before. -/
def readSign : List Char → Int × List Char
  | '+' :: cs => (1, cs)
  | '-' :: cs => (-1, cs)
  | cs => (1, cs)

/-- The part of `cs` before the first `c` that `p` accepts, and the part after it
when there is one. -/
def cutAt (p : Char → Bool) (cs : List Char) : List Char × Option (List Char) :=
  match cs.span fun c => !p c with
  | (before, []) => (before, none)
  | (before, _ :: rest) => (before, some rest)

/-- The exact value of an unsigned decimal literal: digits, optionally a point and a fraction,
optionally an exponent. It is rounded to a double once, at the end. -/
def readDecimal (cs : List Char) : Option ℚ := do
  let (mantissa, exponent) := cutAt (fun c => c = 'e' || c = 'E') cs
  let (whole, fraction) := cutAt (fun c => c = '.') mantissa
  let digits ← readDigits1 10 (whole ++ fraction.getD [])
  let exp ← match exponent with
    | none => some 0
    | some e =>
        let (sign, ds) := readSign e
        (readDigits1 10 ds).map fun v => sign * (v : Int)
  let scale : Int := exp - (fraction.getD []).length
  return if 0 ≤ scale then (digits * 10 ^ scale.toNat : Nat) else mkRat digits (10 ^ (-scale).toNat)

/-- `Number(text)`; `none` is `NaN` or an infinity. White space around the numeral is skipped, and a
text of white space is `0`. -/
def stringToNumber (text : String) : Option ℚ :=
  match trim text.toList with
  | [] => some 0
  | '0' :: 'x' :: ds | '0' :: 'X' :: ds => (readDigits1 16 ds).bind fun n => roundToDouble n
  | '0' :: 'o' :: ds | '0' :: 'O' :: ds => (readDigits1 8 ds).bind fun n => roundToDouble n
  | '0' :: 'b' :: ds | '0' :: 'B' :: ds => (readDigits1 2 ds).bind fun n => roundToDouble n
  | cs =>
      let (sign, ds) := readSign cs
      (readDecimal ds).bind fun q => roundToDouble (sign * q)

/-- A number of a JSON text: the double, and the text `String` prints it as. The
printed text reads back as the number. -/
structure Number where
  value : ℚ
  text : String
  reads_back : stringToNumber text = some value

instance : DecidableEq Number := fun x y =>
  decidable_of_iff (x.value = y.value ∧ x.text = y.text) <| by
    cases x; cases y; simp

theorem stringToNumber_one : stringToNumber "1" = some 1 := by decide +kernel

theorem stringToNumber_two : stringToNumber "2" = some 2 := by decide +kernel

end Js
