import DeclarativeOptions.Text.Ranges.Alphabetic
import DeclarativeOptions.Text.Ranges.Numeric
import DeclarativeOptions.Text.Ranges.GraphemeExtend
import DeclarativeOptions.Text.Ranges.Unprintable

namespace DeclarativeOptions.Text

def isAlphabetic (c : Char) : Bool := Ranges.alphabetic.contains c.toNat

def isAlphanumeric (c : Char) : Bool := isAlphabetic c || Ranges.numeric.contains c.toNat

-- Marks that are drawn on the character before them. The halfwidth voicing marks U+FF9E and U+FF9F
-- extend a grapheme too, but they are letters with a place of their own.
def isCombining (c : Char) : Bool :=
  Ranges.graphemeExtend.contains c.toNat && c != '\uFF9E' && c != '\uFF9F'

def isPrintable (c : Char) : Bool := !Ranges.unprintable.contains c.toNat

-- The Unicode property `White_Space`
def isWhitespace (c : Char) : Bool :=
  Ranges.contains
    [(0x9, 0xD), (0x20, 0x20), (0x85, 0x85), (0xA0, 0xA0), (0x1680, 0x1680), (0x2000, 0x200A),
     (0x2028, 0x2029), (0x202F, 0x202F), (0x205F, 0x205F), (0x3000, 0x3000)] c.toNat

-- The Unicode category `Cc`
def isControl (c : Char) : Bool := c.toNat < 0x20 || (0x7F ≤ c.toNat && c.toNat < 0xA0)

end DeclarativeOptions.Text
