import ShapingTables.Text.Outline

/-! Every generated file begins with the same line. -/
namespace ShapingTables

def generatedNotice : Text.Outline :=
  .line "// WARNING: this file was generated by fos-ucd-gen, do not edit"

end ShapingTables
