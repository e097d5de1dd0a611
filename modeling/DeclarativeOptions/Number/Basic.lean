namespace DeclarativeOptions

-- A non-negative binary64 number or infinity. It is its rank in increasing order, which is its bit
-- pattern without the sign as well: the numbers below infinity take the ranks from zero upwards,
-- with `2 ^ 52` of them from each power of two to the next.
structure Magnitude where
  rank : Nat
  rank_le : rank ≤ 2047 * Nat.pow 2 52
deriving DecidableEq

namespace Magnitude

def infinityRank : Nat := 2047 * Nat.pow 2 52

def zero : Magnitude := ⟨0, by decide⟩

def infinity : Magnitude := ⟨infinityRank, by decide⟩

def isInfinite (m : Magnitude) : Bool := m.rank == infinityRank

-- The magnitude of a rank, infinity for every rank beyond it
def ofRank (rank : Nat) : Magnitude := ⟨min rank infinityRank, Nat.min_le_right ..⟩

-- How many times the least positive number fits into one
def unitsPerOne : Nat := Nat.pow 2 1074

-- A finite magnitude counted in least positive numbers: the first two runs of `2 ^ 52` ranks are
-- one unit apart, and each later run is twice as wide as the run before
def units (m : Magnitude) : Nat :=
  let run := m.rank / Nat.pow 2 52
  if run = 0 then m.rank else (Nat.pow 2 52 + m.rank % Nat.pow 2 52) * Nat.pow 2 (run - 1)

end Magnitude

-- The two zeros differ in their sign, and there is one NaN
inductive Number where
  | nan
  | signed (negative : Bool) (magnitude : Magnitude)
deriving DecidableEq

namespace Number

def zero : Number := .signed false .zero

def isFinite : Number → Bool
  | .nan => false
  | .signed _ m => !m.isInfinite

def negate : Number → Number
  | .nan => .nan
  | .signed negative m => .signed (!negative) m

def withSign (negative : Bool) (n : Number) : Number := if negative then n.negate else n

-- Numeric equality: NaN differs from everything, and the two zeros are equal
def equal : Number → Number → Bool
  | .signed s m, .signed t n => m == n && (s == t || m.rank == 0)
  | _, _ => false

-- The number of a 64-bit pattern: the top bit is the sign, and what lies above infinity is NaN
def ofBits (bits : UInt64) : Number :=
  let rank := bits.toNat % Nat.pow 2 63
  if h : rank ≤ 2047 * Nat.pow 2 52 then .signed (Nat.pow 2 63 ≤ bits.toNat) ⟨rank, h⟩ else .nan

-- The pattern of a number, none for NaN, which has many
def toBits? : Number → Option UInt64
  | .nan => none
  | .signed negative m => some (UInt64.ofNat (m.rank + if negative then Nat.pow 2 63 else 0))

end Number

end DeclarativeOptions
