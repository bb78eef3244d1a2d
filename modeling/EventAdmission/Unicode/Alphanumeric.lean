import EventAdmission.Unicode.Trait

/-!
# Letters and digits

The characters with the property Alphabetic and the numbers of every kind.
-/

namespace EventAdmission.Unicode

def alphabetic : Trait := namedTrait "alphabetic"

def numberCodes : CodeSet := ["nd", "nl", "no"].flatMap categoryCodes

def isAlphabetic (c : Char) : Bool := alphabetic.holds c.toNat

def isAlphanumeric (c : Char) : Bool := isAlphabetic c || numberCodes.contains c.toNat

end EventAdmission.Unicode
