/-!
# Names without case

Names are compared with the ASCII letters folded to lower case; every other character counts as
it stands.
-/

namespace TileRealm

namespace Text

/-- The text with its ASCII capitals in lower case. -/
def fold (s : String) : String := String.ofList (s.toList.map Char.toLower)

/-- Whether two names differ at most in the case of ASCII letters. -/
def sameName (a b : String) : Bool := fold a == fold b

theorem sameName_iff {a b : String} : sameName a b = true ↔ fold a = fold b := by
  simp [sameName]

@[simp] theorem sameName_self (a : String) : sameName a a = true := by simp [sameName]

theorem sameName_comm (a b : String) : sameName a b = sameName b a := by
  rw [sameName, sameName]
  exact BEq.comm

end Text

end TileRealm
