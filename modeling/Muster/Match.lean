import Muster.Glob
import Muster.Text.Case

/-! How well an argument fits one field of a resource. -/

namespace Muster

inductive Strength where
  | none
  | wildcard
  | caseless
  | exact
  deriving DecidableEq, Repr, Inhabited

def Strength.rank : Strength → Nat
  | .none => 0
  | .wildcard => 1
  | .caseless => 2
  | .exact => 3

instance : LE Strength := ⟨fun a b => a.rank ≤ b.rank⟩

instance (a b : Strength) : Decidable (a ≤ b) := inferInstanceAs (Decidable (a.rank ≤ b.rank))

instance : Max Strength := maxOfLe

namespace Strength

/-- An argument against a name that people chose: equal, equal but for case, or a pattern for it. -/
def ofName (arg name : String) : Strength :=
  if arg = name then .exact
  else if Text.lower arg = Text.lower name then .caseless
  else if Glob.isPattern arg.toList &&
      Glob.isMatch (Text.lower arg).toList (Text.lower name).toList then .wildcard
  else .none

/-- An argument against an identifier, which only itself fits. -/
def ofIdentifier (arg uuid : String) : Strength :=
  if arg = uuid then .exact else .none

end Strength

end Muster
