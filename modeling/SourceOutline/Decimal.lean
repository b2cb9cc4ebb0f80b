/-!
# Decimal numbers and double precision

A decimal literal is a natural number times a power of ten. Its value in double precision is the
nearest `Binary64`, with a tie going to the even significand, and is infinite past the largest one.
The other way, `Binary64.shortest` is the decimal with the fewest digits that is read back as the
same number, and of those the one nearest to it.

A `Binary64` has 53 binary digits and an exponent in range, and carries the proof: **what rounding
leaves is of that form** (`Ratio.isRounded_rounded`), unless it is too large. Infinity is no
`Binary64`; what may be infinite is an `Option`, with nothing in place of it. All arithmetic is
exact, on natural numbers; nothing here depends on a floating-point unit.
-/

namespace SourceOutline

/-- The number `significand · 10 ^ exponent`. -/
structure Decimal where
  significand : Nat
  exponent : Int
  deriving Repr, DecidableEq, Inhabited

/-- A fraction. -/
structure Ratio where
  num : Nat
  den : Nat

namespace Ratio

/-- The fraction times a power of the base. -/
def scale (base : Nat) (power : Int) (r : Ratio) : Ratio :=
  if 0 ≤ power then ⟨r.num * base.pow power.toNat, r.den⟩
  else ⟨r.num, r.den * base.pow (-power).toNat⟩

/-- The largest natural number at or below the fraction. -/
def floor (r : Ratio) : Nat :=
  r.num / r.den

/-- The nearest natural number; of two, the even one. -/
def roundToEven (r : Ratio) : Nat :=
  let below := r.floor
  let twice := 2 * (r.num % r.den)
  if twice < r.den then below
  else if r.den < twice then below + 1
  else if below % 2 = 0 then below else below + 1

/-- Rounds to 53 binary digits, fewer at the exponent `-1074`, and gives them with the exponent. The
exponent that leaves so many is found from the lengths of the numerator and the denominator, which
give it up to one. -/
def rounded (r : Ratio) : Nat × Int :=
  let guess : Int := max (Int.ofNat r.num.log2 - Int.ofNat r.den.log2 - 53) (-1074)
  let exponent := if (r.scale 2 (-guess)).floor < 1 <<< 53 then guess else guess + 1
  let significand := (r.scale 2 (-exponent)).roundToEven
  if significand = 1 <<< 53 then (1 <<< 52, exponent + 1) else (significand, exponent)

end Ratio

/-! ### Rounding -/

/-- Whether these are the digits and the exponent of a number in double precision that may be too
large: the significand has 53 binary digits, and fewer only at the least exponent. -/
structure IsRounded (significand : Nat) (exponent : Int) : Prop where
  short : significand < 1 <<< 53
  full : 1 <<< 52 ≤ significand ∨ exponent = -1074
  least : -1074 ≤ exponent

namespace Ratio

variable {r : Ratio} {power : Int}

private theorem exists_eq_sub (power : Int) : ∃ a b : Nat, power = a - b :=
  ⟨power.toNat, (-power).toNat, by omega⟩

/-- A power with a positive and a negative part scales the numerator and the denominator. -/
theorem floor_scale {base : Nat} (hbase : 0 < base) (r : Ratio) (a b : Nat) :
    (r.scale base (a - b)).floor = r.num * base.pow a / (r.den * base.pow b) := by
  unfold scale floor
  split
  · have hle : b ≤ a := by omega
    have hpower : ((a : Int) - b).toNat = a - b := by omega
    rw [hpower]
    calc r.num * base ^ (a - b) / r.den
      _ = r.num * base ^ (a - b) * base ^ b / (r.den * base ^ b) :=
        (Nat.mul_div_mul_right _ _ (Nat.pow_pos hbase)).symm
      _ = r.num * base ^ a / (r.den * base ^ b) := by
        rw [Nat.mul_assoc, Nat.pow_sub_mul_pow base hle]
  · have hle : a ≤ b := by omega
    have hpower : (-((a : Int) - b)).toNat = b - a := by omega
    rw [hpower]
    calc r.num / (r.den * base ^ (b - a))
      _ = r.num * base ^ a / (r.den * base ^ (b - a) * base ^ a) :=
        (Nat.mul_div_mul_right _ _ (Nat.pow_pos hbase)).symm
      _ = r.num * base ^ a / (r.den * base ^ b) := by
        rw [Nat.mul_assoc, Nat.pow_sub_mul_pow base hle]

/-- One power of two less leaves one binary digit less. -/
theorem floor_scale_sub_one (r : Ratio) (power : Int) :
    (r.scale 2 (power - 1)).floor = (r.scale 2 power).floor / 2 := by
  obtain ⟨a, b, rfl⟩ := exists_eq_sub power
  have hnext : (a : Int) - b - 1 = a - (b + 1 : Nat) := by omega
  calc (r.scale 2 (a - b - 1)).floor
    _ = r.num * 2 ^ a / (r.den * 2 ^ (b + 1)) := by
      rw [hnext]
      exact floor_scale Nat.two_pos r a (b + 1)
    _ = r.num * 2 ^ a / (r.den * 2 ^ b) / 2 := by
      rw [Nat.div_div_eq_div_mul, Nat.mul_assoc, Nat.pow_succ]
    _ = (r.scale 2 (a - b)).floor / 2 := congrArg (· / 2) (floor_scale Nat.two_pos r a b).symm

/-- The lengths of the numerator and the denominator bound the number of binary digits. -/
theorem floor_scale_lt (hden : r.den ≠ 0) (h : r.num.log2 + power ≤ r.den.log2 + 52) :
    (r.scale 2 power).floor < 1 <<< 53 := by
  obtain ⟨a, b, rfl⟩ := exists_eq_sub power
  have hnum : r.num < 2 ^ (r.num.log2 + 1) := Nat.lt_log2_self
  have hlog : 2 ^ r.den.log2 ≤ r.den := Nat.log2_self_le hden
  have hpos : 0 < r.den * 2 ^ b := Nat.mul_pos (Nat.pos_of_ne_zero hden) (Nat.two_pow_pos b)
  have hpower : r.num.log2 + 1 + a ≤ 53 + (r.den.log2 + b) := by omega
  rw [floor_scale Nat.two_pos]
  refine (Nat.div_lt_iff_lt_mul hpos).mpr ?_
  calc r.num * 2 ^ a
    _ < 2 ^ (r.num.log2 + 1) * 2 ^ a := Nat.mul_lt_mul_of_pos_right hnum (Nat.two_pow_pos a)
    _ = 2 ^ (r.num.log2 + 1 + a) := (Nat.pow_add 2 _ _).symm
    _ ≤ 2 ^ (53 + (r.den.log2 + b)) := Nat.pow_le_pow_right Nat.two_pos hpower
    _ = 2 ^ 53 * (2 ^ r.den.log2 * 2 ^ b) := by rw [← Nat.pow_add, ← Nat.pow_add]
    _ ≤ 2 ^ 53 * (r.den * 2 ^ b) := Nat.mul_le_mul_left _ (Nat.mul_le_mul_right _ hlog)

theorem le_floor_scale (hnum : r.num ≠ 0) (hden : r.den ≠ 0)
    (h : r.den.log2 + 53 ≤ r.num.log2 + power) : 1 <<< 52 ≤ (r.scale 2 power).floor := by
  obtain ⟨a, b, rfl⟩ := exists_eq_sub power
  have hlog : 2 ^ r.num.log2 ≤ r.num := Nat.log2_self_le hnum
  have hlt : r.den < 2 ^ (r.den.log2 + 1) := Nat.lt_log2_self
  have hpos : 0 < r.den * 2 ^ b := Nat.mul_pos (Nat.pos_of_ne_zero hden) (Nat.two_pow_pos b)
  have hpower : 52 + (r.den.log2 + 1 + b) ≤ r.num.log2 + a := by omega
  rw [floor_scale Nat.two_pos]
  refine (Nat.le_div_iff_mul_le hpos).mpr ?_
  calc 2 ^ 52 * (r.den * 2 ^ b)
    _ ≤ 2 ^ 52 * (2 ^ (r.den.log2 + 1) * 2 ^ b) :=
      Nat.mul_le_mul_left _ (Nat.mul_le_mul_right _ (Nat.le_of_lt hlt))
    _ = 2 ^ (52 + (r.den.log2 + 1 + b)) := by rw [← Nat.pow_add, ← Nat.pow_add]
    _ ≤ 2 ^ (r.num.log2 + a) := Nat.pow_le_pow_right Nat.two_pos hpower
    _ = 2 ^ r.num.log2 * 2 ^ a := Nat.pow_add 2 _ _
    _ ≤ r.num * 2 ^ a := Nat.mul_le_mul_right _ hlog

/-- Rounding goes to one of the two natural numbers around the fraction. -/
theorem roundToEven_mem_Icc (r : Ratio) :
    r.floor ≤ r.roundToEven ∧ r.roundToEven ≤ r.floor + 1 := by
  unfold roundToEven
  dsimp only
  split
  · exact ⟨Nat.le_refl _, Nat.le_succ _⟩
  split
  · exact ⟨Nat.le_succ _, Nat.le_refl _⟩
  split
  · exact ⟨Nat.le_refl _, Nat.le_succ _⟩
  · exact ⟨Nat.le_succ _, Nat.le_refl _⟩

/-- **Rounding leaves 53 binary digits**, and fewer only at the least exponent. -/
theorem isRounded_rounded (hnum : r.num ≠ 0) (hden : r.den ≠ 0) :
    IsRounded r.rounded.1 r.rounded.2 := by
  unfold rounded
  extract_lets guess exponent significand
  have hguess : guess = max ((r.num.log2 : Int) - r.den.log2 - 53) (-1074) := rfl
  obtain ⟨hleast, hlow, hhigh⟩ : -1074 ≤ exponent ∧
      (1 <<< 52 ≤ (r.scale 2 (-exponent)).floor ∨ exponent = -1074) ∧
      (r.scale 2 (-exponent)).floor < 1 <<< 53 := by
    by_cases hsmall : (r.scale 2 (-guess)).floor < 1 <<< 53
    · rw [show exponent = guess from if_pos hsmall]
      refine ⟨by omega, ?_, hsmall⟩
      by_cases hleast : guess = -1074
      · exact .inr hleast
      · exact .inl (le_floor_scale hnum hden (by omega))
    · -- One digit too many is left, and the next exponent takes it away.
      have hnext : (r.scale 2 (-(guess + 1))).floor = (r.scale 2 (-guess)).floor / 2 := by
        rw [Int.neg_add, ← Int.sub_eq_add_neg]
        exact r.floor_scale_sub_one (-guess)
      rw [show exponent = guess + 1 from if_neg hsmall]
      refine ⟨by omega, .inl ?_, floor_scale_lt hden (by omega)⟩
      rw [hnext]
      exact (Nat.le_div_iff_mul_le Nat.two_pos).mpr (Nat.le_of_not_lt hsmall)
  obtain ⟨hbelow, habove⟩ : (r.scale 2 (-exponent)).floor ≤ significand ∧
      significand ≤ (r.scale 2 (-exponent)).floor + 1 := roundToEven_mem_Icc _
  split
  · have hnext : -1074 ≤ exponent + 1 := by omega
    exact ⟨(by decide : 1 <<< 52 < 1 <<< 53), .inl (Nat.le_refl _), hnext⟩
  · next hne =>
    exact ⟨Nat.lt_of_le_of_ne (Nat.le_trans habove hhigh) hne,
      hlow.imp_left fun hfull => Nat.le_trans hfull hbelow, hleast⟩

end Ratio

/-! ### Double precision -/

/-- A finite number in double precision, `significand · 2 ^ exponent`, in its only form. -/
structure Binary64 where
  significand : Nat
  exponent : Int
  isRounded : IsRounded significand exponent
  isFinite : exponent ≤ 971
  deriving Repr, DecidableEq

/-! ### Decimals -/

/-- The number of decimal digits of a natural number. -/
def digitCount (n : Nat) : Nat :=
  (Nat.toDigits 10 n).length

/-- A whole number in decimal digits. -/
def signedDigits : Int → List Char
  | .ofNat n => Nat.toDigits 10 n
  | .negSucc n => '-' :: Nat.toDigits 10 (n + 1)

namespace Binary64

/-- Zero, with the least exponent. -/
def zero : Binary64 :=
  ⟨0, -1074, ⟨by decide, .inr rfl, by decide⟩, by decide⟩

/-- The nearest number in double precision, or nothing where that is infinite, as it is where
something is divided by zero. -/
def nearest (r : Ratio) : Option Binary64 :=
  if hnum : r.num = 0 then some zero
  else if hden : r.den = 0 then none
  else if hfinite : r.rounded.2 ≤ 971 then
    some ⟨r.rounded.1, r.rounded.2, Ratio.isRounded_rounded hnum hden, hfinite⟩
  else none

/-- The number as a fraction. -/
def toRatio (x : Binary64) : Ratio :=
  Ratio.scale 2 x.exponent ⟨x.significand, 1⟩

/-- The product, rounded. -/
def times (x y : Binary64) : Option Binary64 :=
  nearest (Ratio.scale 2 (x.exponent + y.exponent) ⟨x.significand * y.significand, 1⟩)

/-- The quotient, rounded. -/
def dividedBy (x y : Binary64) : Option Binary64 :=
  nearest (Ratio.scale 2 (x.exponent - y.exponent) ⟨x.significand, y.significand⟩)

end Binary64

namespace Decimal

/-- The decimal as a fraction. -/
def toRatio (d : Decimal) : Ratio :=
  Ratio.scale 10 d.exponent ⟨d.significand, 1⟩

/-- The nearest number in double precision, or nothing where that is infinite. A number with far
too many or far too few digits before the point is decided without computing it. -/
def nearest (d : Decimal) : Option Binary64 :=
  let magnitude := Int.ofNat (digitCount d.significand) + d.exponent
  if d.significand = 0 || magnitude < -400 then some .zero
  else if 400 < magnitude then none
  else Binary64.nearest d.toRatio

/-- The digits, most significant first. -/
def digits (d : Decimal) : List Char :=
  Nat.toDigits 10 d.significand

/-- The number of digits before the point; negative if as many zeros follow it. -/
def places (d : Decimal) : Int :=
  Int.ofNat d.digits.length + d.exponent

/-- The decimal without exponent, and without a point if it is whole. -/
def positional (d : Decimal) : List Char :=
  if 0 ≤ d.exponent then d.digits ++ List.replicate d.exponent.toNat '0'
  else if 0 < d.places then
    d.digits.take d.places.toNat ++ '.' :: d.digits.drop d.places.toNat
  else '0' :: '.' :: (List.replicate (-d.places).toNat '0' ++ d.digits)

/-- The decimal with one digit before the point, and an exponent. A single digit has no point. -/
def scientific (d : Decimal) : List Char :=
  let fraction := d.digits.tail
  d.digits.take 1 ++ (if fraction.isEmpty then [] else '.' :: fraction) ++
    'e' :: signedDigits (d.places - 1)

end Decimal

/-! ### Shortest decimals -/

/-- Which of two decimals is taken that are equally near to a number. -/
inductive Tie where
  | larger
  | even
  deriving Repr, DecidableEq

namespace Binary64

/-- Whether a decimal lies among the numbers that round to this one. Its two ends do so exactly if
the significand is even; below a power of two the gap is half as wide. -/
def attracts (x : Binary64) (d : Decimal) : Bool :=
  let r := d.toRatio
  let upper := Ratio.scale 2 (x.exponent - 1) ⟨2 * x.significand + 1, 1⟩
  let lower :=
    if x.significand = 1 <<< 52 && -1074 < x.exponent then
      Ratio.scale 2 (x.exponent - 2) ⟨4 * x.significand - 1, 1⟩
    else Ratio.scale 2 (x.exponent - 1) ⟨2 * x.significand - 1, 1⟩
  if x.significand % 2 = 0 then
    r.num * upper.den ≤ upper.num * r.den && lower.num * r.den ≤ r.num * lower.den
  else r.num * upper.den < upper.num * r.den && lower.num * r.den < r.num * lower.den

/-- The power of ten at or below the number. -/
def magnitude (x : Binary64) : Int :=
  let r := x.toRatio
  let guess := Int.ofNat (digitCount r.num) - Int.ofNat (digitCount r.den)
  if 1 ≤ (r.scale 10 (-guess)).floor then guess else guess - 1

/-- The neighbours of the number among the decimals with the given last place, in the order they are
tried: the nearer one first. -/
def neighbours (tie : Tie) (x : Binary64) (place : Int) : List Decimal :=
  let r := x.toRatio.scale 10 (-place)
  let below := r.floor
  let twice := 2 * (r.num % r.den)
  if twice < r.den || (twice = r.den && tie = .even && below % 2 = 0) then
    [⟨below, place⟩, ⟨below + 1, place⟩]
  else [⟨below + 1, place⟩, ⟨below, place⟩]

/-- Tries the given number of last places, from `place` downwards. -/
def shortestFrom (tie : Tie) (x : Binary64) : (rounds : Nat) → (place : Int) → Decimal
  | 0, place => ⟨(x.toRatio.scale 10 (-place)).roundToEven, place⟩
  | rounds + 1, place =>
    match (x.neighbours tie place).find? x.attracts with
    | some d => d
    | none => shortestFrom tie x rounds (place - 1)

/-- The decimal with the fewest digits that is read back as the number, and the nearest of these.
It may be the power of ten above the number; seventeen digits are always enough. -/
def shortest (tie : Tie) (x : Binary64) : Decimal :=
  if x.significand = 0 then ⟨0, 0⟩ else x.shortestFrom tie 17 (x.magnitude + 1)

end Binary64

/-- The decimal that double precision makes of a decimal, written without exponent; `inf` where
it is infinite. -/
def Decimal.roundedText (d : Decimal) : String :=
  match d.nearest with
  | some x => String.ofList (x.shortest .larger).positional
  | none => "inf"

end SourceOutline
