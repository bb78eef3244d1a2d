import EventAdmission.Unicode.Trait

/-!
# Characters that do not print by themselves

Controls, format characters, unassigned and private code points, all
separators but the space, and the marks that extend the character before them.
-/

namespace EventAdmission.Unicode

def invisibleCodes : CodeSet := ["cc", "cf", "cn", "co", "zl", "zp", "zs"].flatMap categoryCodes

def extendingMarks : Trait := namedTrait "graphemeextend"

def isUnprintable (c : Char) : Bool :=
  c != ' ' && (invisibleCodes.contains c.toNat || extendingMarks.holds c.toNat)

end EventAdmission.Unicode
