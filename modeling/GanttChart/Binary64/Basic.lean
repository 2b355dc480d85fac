/-
  Binary64 numbers and their arithmetic.

  `Binary64` holds exactly the values of IEEE 754 binary64: a not-a-number, two infinities, and
  finite numbers with a sign (zero has one too) and a magnitude in quanta of 2 ^ -1074.  The
  proof field says that the magnitude is one of the format's, so two values are equal as terms
  when they are the same number with the same sign.

  Each operation is the exact operation on fractions followed by one rounding (`rounded`), to
  nearest with ties to even; past the last finite magnitude it gives an infinity.  All of it is
  arithmetic on naturals, so closed cases evaluate in the kernel.
-/
import GanttChart.Binary64.Rounding

namespace GanttChart

/-- A binary64 number; a finite one is its sign and its magnitude in quanta. -/
inductive Binary64 where
  | nan
  | infinite (negative : Bool)
  | finite (negative : Bool) (quanta : Nat) (isMagnitude : Binary64.IsMagnitude quanta)
  deriving DecidableEq

namespace Binary64

/-! ## Building numbers -/

/-- The number nearest to the fraction of quanta `a / b`, with a sign. -/
def rounded (negative : Bool) (a b : Nat) : Binary64 :=
  if h : nearest a b < limit then .finite negative (nearest a b) ⟨nearest_onGrid a b, h⟩
  else .infinite negative

/-- Zero, with a sign. -/
def signedZero (negative : Bool) : Binary64 := .finite negative 0 isMagnitude_zero

instance : Inhabited Binary64 := ⟨signedZero false⟩

/-- The number nearest to a natural. -/
def ofNat (n : Nat) : Binary64 := rounded false (n * unit) 1

/-- The number nearest to an integer. -/
def ofInt (n : Int) : Binary64 := rounded (decide (n < 0)) (n.natAbs * unit) 1

/--
  The number nearest to `mantissa * 10 ^ exponent`.  Any mantissa but zero is past every finite
  number from 10 ^ 400 on, and below half a quantum once the exponent outweighs its bits by 400;
  a power beyond either bound is not computed, for it cannot change the result.
-/
def ofDecimal (negative : Bool) (mantissa : Nat) : (exponent : Int) → Binary64
  | .ofNat e => rounded negative (mantissa * Nat.pow 10 (min e 400) * unit) 1
  | .negSucc e =>
    rounded negative (mantissa * unit) (Nat.pow 10 (min (e + 1) (mantissa.log2 + 400)))

/-- Past the last finite magnitude a decimal is an infinity, and below half a quantum it is zero. -/
example : ofDecimal true 18 307 = .infinite true ∧ ofDecimal false 2 (-324) = signedZero false := by
  decide +kernel

instance : NatCast Binary64 := ⟨ofNat⟩

instance (n : Nat) : OfNat Binary64 n := ⟨ofNat n⟩

instance : OfScientific Binary64 :=
  ⟨fun mantissa negative e => ofDecimal false mantissa (if negative then -(e : Int) else e)⟩

/-! ## Sign and order -/

/-- The quanta of a number with its sign. -/
def signed (negative : Bool) (quanta : Nat) : Int := if negative then -(quanta : Int) else quanta

/-- Neither infinite nor not-a-number. -/
def isFinite : Binary64 → Bool
  | .finite .. => true
  | _ => false

/-- The number with the other sign. -/
def neg : Binary64 → Binary64
  | .nan => .nan
  | .infinite s => .infinite !s
  | .finite s m h => .finite (!s) m h

/-- Two changes of sign cancel. -/
theorem neg_neg (x : Binary64) : neg (neg x) = x := by
  cases x <;> simp [neg]

/-- The number without its sign. -/
def abs : Binary64 → Binary64
  | .nan => .nan
  | .infinite _ => .infinite false
  | .finite _ m h => .finite false m h

/-- The sign plays no part in the absolute value. -/
theorem abs_neg (x : Binary64) : abs (neg x) = abs x := by
  cases x <;> rfl

/-- Strictly less; false of a not-a-number, and of two zeros of either sign. -/
def lt : Binary64 → Binary64 → Bool
  | .finite s m _, .finite t n _ => decide (signed s m < signed t n)
  | .infinite s, .infinite t => s && !t
  | .infinite s, .finite .. => s
  | .finite .., .infinite t => !t
  | _, _ => false

/-- No number is less than itself. -/
theorem lt_irrefl (x : Binary64) : lt x x = false := by
  cases x with
  | nan => rfl
  | infinite s => cases s <;> rfl
  | finite s m h => simp [lt]

/-- The smaller of two numbers, the first of equal ones; a not-a-number gives way to the other. -/
def min (a b : Binary64) : Binary64 :=
  match a with
  | .nan => b
  | _ => if lt b a then b else a

/-! ## Arithmetic -/

/-- The sum; equal magnitudes of opposite sign cancel to positive zero. -/
def add : Binary64 → Binary64 → Binary64
  | .finite s m _, .finite t n _ =>
    if s = t then rounded s (m + n) 1
    else if n < m then rounded s (m - n) 1
    else if m < n then rounded t (n - m) 1
    else signedZero false
  | .infinite s, .infinite t => if s = t then .infinite s else .nan
  | .infinite s, .finite .. => .infinite s
  | .finite .., .infinite t => .infinite t
  | _, _ => .nan

/-- The difference. -/
def sub (a b : Binary64) : Binary64 := add a (neg b)

/-- The product. -/
def mul : Binary64 → Binary64 → Binary64
  | .finite s m _, .finite t n _ => rounded (s != t) (m * n) unit
  | .infinite s, .infinite t => .infinite (s != t)
  | .infinite s, .finite t n _ => if n = 0 then .nan else .infinite (s != t)
  | .finite s m _, .infinite t => if m = 0 then .nan else .infinite (s != t)
  | _, _ => .nan

/-- The quotient; dividing by zero gives an infinity, and zero by zero is not a number. -/
def div : Binary64 → Binary64 → Binary64
  | .finite s m _, .finite t n _ =>
    if n = 0 then (if m = 0 then .nan else .infinite (s != t))
    else rounded (s != t) (m * unit) n
  | .infinite s, .finite t _ _ => .infinite (s != t)
  | .finite s _ _, .infinite t => signedZero (s != t)
  | _, _ => .nan

instance : Neg Binary64 := ⟨neg⟩

instance : Add Binary64 := ⟨add⟩

instance : Sub Binary64 := ⟨sub⟩

instance : Mul Binary64 := ⟨mul⟩

instance : Div Binary64 := ⟨div⟩

/-- Decimals are rounded before they are added, and the sum is rounded again. -/
example : (0.1 + 0.2 : Binary64) = 0.30000000000000004 := by decide +kernel

/-! ## Whole numbers -/

/-- The nearest whole number, halves away from zero. -/
def round : Binary64 → Binary64
  | .finite s m _ => rounded s ((2 * m + unit) / (2 * unit) * unit) 1
  | x => x

example : round (-2.5) = (-3 : Binary64) := by decide +kernel

/-- The whole number next to `x` on the side of zero. -/
def trunc : Binary64 → Binary64
  | .finite s m _ => rounded s (m / unit * unit) 1
  | x => x

/-- The greatest whole number that is at most `x`. -/
def floor : Binary64 → Binary64
  | .finite false m _ => rounded false (m / unit * unit) 1
  | .finite true m _ => rounded true ((m + (unit - 1)) / unit * unit) 1
  | x => x

/-- The integer part; zero for what is not finite. -/
def toInt : Binary64 → Int
  | .finite s m _ => signed s (m / unit)
  | _ => 0

/-- The integer part, held between two bounds; zero for a not-a-number. -/
def toIntWithin (low high : Int) : Binary64 → Int
  | .nan => 0
  | .infinite s => if s then low else high
  | .finite s m _ => max low (Min.min high (signed s (m / unit)))

end Binary64

end GanttChart
