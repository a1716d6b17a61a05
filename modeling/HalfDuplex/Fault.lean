/-!
# Faults and checked arithmetic

Every counter of the transmitter has a fixed width.  An operation whose result
does not fit its width stops with a `Fault` and has no value; nothing wraps
around.  Quantities are natural numbers throughout, so a checked operation is
the plain operation behind one comparison, and the lemmas below say exactly
when it succeeds.

Counters that are meant to stick at their bound are deliberately kept separate:
`saturatingSucc` counts one more and never faults.
-/

namespace HalfDuplex

/-- A point in time, or a span of time, in ticks of the engine clock. -/
abbrev Tick := Nat

/-- Why an operation stopped without a value. -/
inductive Fault where
  | additionOverflow
  | subtractionOverflow
  | multiplicationOverflow
  | shiftOverflow
  | divisionByZero
  | remainderByZero
  /-- Something was inserted at `index`, past the end of a list of `length` entries. -/
  | insertionPastEnd (index length : Nat)
  deriving DecidableEq, Repr

def Fault.message : Fault → String
  | .additionOverflow => "attempt to add with overflow"
  | .subtractionOverflow => "attempt to subtract with overflow"
  | .multiplicationOverflow => "attempt to multiply with overflow"
  | .shiftOverflow => "attempt to shift left with overflow"
  | .divisionByZero => "attempt to divide by zero"
  | .remainderByZero => "attempt to calculate the remainder with a divisor of zero"
  | .insertionPastEnd index length =>
      s!"insertion index (is {index}) should be <= len (is {length})"

/-- Bound of tick counts and of lengths, which are 64 bits wide. -/
def wideLimit : Nat := 0x10000000000000000

/-- Bound of nibble counts and of statistics, which are 32 bits wide. -/
def countLimit : Nat := 0x100000000

def checkedAdd (limit left right : Nat) : Except Fault Nat :=
  if left + right < limit then .ok (left + right) else .error .additionOverflow

def checkedMul (limit left right : Nat) : Except Fault Nat :=
  if left * right < limit then .ok (left * right) else .error .multiplicationOverflow

def checkedSub (left right : Nat) : Except Fault Nat :=
  if right ≤ left then .ok (left - right) else .error .subtractionOverflow

def checkedDiv (left right : Nat) : Except Fault Nat :=
  if right = 0 then .error .divisionByZero else .ok (left / right)

def checkedMod (left right : Nat) : Except Fault Nat :=
  if right = 0 then .error .remainderByZero else .ok (left % right)

/-- A power of two, whose exponent has to stay below the 64 bits it is shifted in. -/
def checkedPowerOfTwo (exponent : Nat) : Except Fault Nat :=
  if exponent < 64 then .ok (1 <<< exponent) else .error .shiftOverflow

/-- One more than `count`, except that the largest number below `limit` stays as it is. -/
def saturatingSucc (limit count : Nat) : Nat :=
  min (count + 1) (limit - 1)

@[simp]
theorem checkedAdd_eq_ok_iff {limit left right sum : Nat} :
    checkedAdd limit left right = .ok sum ↔
      left + right < limit ∧ left + right = sum := by
  by_cases fits : left + right < limit <;> simp [checkedAdd, fits]

@[simp]
theorem checkedMul_eq_ok_iff {limit left right product : Nat} :
    checkedMul limit left right = .ok product ↔
      left * right < limit ∧ left * right = product := by
  by_cases fits : left * right < limit <;> simp [checkedMul, fits]

@[simp]
theorem checkedSub_eq_ok_iff {left right difference : Nat} :
    checkedSub left right = .ok difference ↔
      right ≤ left ∧ left - right = difference := by
  by_cases fits : right ≤ left <;> simp [checkedSub, fits]

@[simp]
theorem checkedDiv_eq_ok_iff {left right quotient : Nat} :
    checkedDiv left right = .ok quotient ↔
      right ≠ 0 ∧ left / right = quotient := by
  by_cases zero : right = 0 <;> simp [checkedDiv, zero]

@[simp]
theorem checkedMod_eq_ok_iff {left right remainder : Nat} :
    checkedMod left right = .ok remainder ↔
      right ≠ 0 ∧ left % right = remainder := by
  by_cases zero : right = 0 <;> simp [checkedMod, zero]

@[simp]
theorem checkedPowerOfTwo_eq_ok_iff {exponent power : Nat} :
    checkedPowerOfTwo exponent = .ok power ↔
      exponent < 64 ∧ 1 <<< exponent = power := by
  by_cases fits : exponent < 64 <;> simp [checkedPowerOfTwo, fits]

end HalfDuplex
