namespace DeclarativeOptions.Text

-- The UTF-16 units of a character: one, or a high and a low surrogate
def charUnits (c : Char) : List Nat :=
  if c.toNat < 0x10000 then [c.toNat]
  else [0xD800 + (c.toNat - 0x10000) / 0x400, 0xDC00 + (c.toNat - 0x10000) % 0x400]

def isHighSurrogate (unit : Nat) : Bool := 0xD800 ≤ unit && unit < 0xDC00

def isLowSurrogate (unit : Nat) : Bool := 0xDC00 ≤ unit && unit < 0xE000

-- The character of a unit that stands alone: half of a pair is U+FFFD
def unitChar (unit : Nat) : Char :=
  if isHighSurrogate unit || isLowSurrogate unit then '\uFFFD' else Char.ofNat unit

-- The character of a high and a low surrogate
def pairChar (high low : Nat) : Char :=
  Char.ofNat (0x10000 + (high - 0xD800) * 0x400 + (low - 0xDC00))

def units (text : List Char) : List Nat := text.flatMap charUnits

-- The measure of offsets and of string indexes
def unitCount (text : List Char) : Nat := (units text).length

end DeclarativeOptions.Text
