import ShapingTables.Classification.Refinement
import ShapingTables.Classification.RolePredicate

/-! From attributes to a category: syllabic corrections, the one role that matches,
positional corrections, and the position of that role. -/
namespace ShapingTables

def classify (attributes : Attributes) : Except Fault Category :=
  let corrected := Correction.beforeRole attributes
  match Role.resolve corrected with
  | .error fault => .error fault
  | .ok role =>
    match Position.resolve role (Correction.afterRole corrected) with
    | .error fault => .error fault
    | .ok position => .ok ⟨role, position⟩

end ShapingTables
