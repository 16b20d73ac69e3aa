import GraphShape.Conversion.Report
import GraphShape.Proofs.Linking
import GraphShape.Proofs.Rounds

/-!
# Scalars without a schema

A scalar that is neither built in nor in the map has no constraint. The key fact is that a walk that
succeeds reports just the scalars of a scan that are not built in and have no schema, in their order,
so no mention is left without a constraint silently.
-/

namespace GraphShape

def TypeDef.isScalar : TypeDef → Bool
  | scalar _ => true
  | _ => false

namespace Converter

variable {c : Converter} {depth : Nat} {root : ObjectType}

instance (c : Converter) (n : String) : Decidable (c.IsCustom n) :=
  decidable_of_iff ((c.types.get? n).any TypeDef.isScalar = true ∧ primitiveTypes.get? n = none) (by
    unfold IsCustom
    cases c.types.get? n with
    | none => simp
    | some d => cases d <;> simp [TypeDef.isScalar])

end Converter

end GraphShape
