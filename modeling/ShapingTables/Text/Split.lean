import ShapingTables.Text.Blank

/-! Fields are separated by single characters, so that a text has one field more than
separators, empty fields included. Words are the fields between blanks that hold
something. -/
namespace ShapingTables.Text

/-- The first field and the others. -/
def splitWhere (separates : Char → Bool) : List Char → List Char × List (List Char)
  | [] => ([], [])
  | c :: rest =>
    let (field, fields) := splitWhere separates rest
    if separates c then ([], field :: fields) else (c :: field, fields)

theorem splitWhere_append (separates : Char → Bool) {separator : Char}
    (separate : separates separator = true) (front back : List Char) :
    splitWhere separates (front ++ separator :: back) =
      ((splitWhere separates front).1,
        (splitWhere separates front).2 ++
          (splitWhere separates back).1 :: (splitWhere separates back).2) := by
  induction front with
  | nil => simp [splitWhere, separate]
  | cons c front ih =>
    simp only [List.cons_append, splitWhere, ih]
    cases separates c <;> simp

theorem splitWhere_of_forall_not {separates : Char → Bool} {text : List Char}
    (none : ∀ c ∈ text, separates c = false) : splitWhere separates text = (text, []) := by
  induction text with
  | nil => rfl
  | cons c text ih =>
    rw [List.forall_mem_cons] at none
    simp [splitWhere, none.1, ih none.2]

def words (text : List Char) : List (List Char) :=
  let (field, fields) := splitWhere isBlank text
  (field :: fields).filter (!·.isEmpty)

/-- The text in front of the first `stop`, all of it where there is none. -/
def before (stop : Char) (text : List Char) : List Char := text.takeWhile (· != stop)

/-- The parts around the first two dots in a row. -/
def splitAtDots? : List Char → Option (List Char × List Char)
  | '.' :: '.' :: rest => some ([], rest)
  | c :: rest => (splitAtDots? rest).map fun (left, right) => (c :: left, right)
  | [] => none

/-- Whether `part` stands somewhere in the text. -/
def occursIn (part : List Char) : List Char → Bool
  | [] => part.isEmpty
  | c :: rest => part.isPrefixOf (c :: rest) || occursIn part rest

end ShapingTables.Text
