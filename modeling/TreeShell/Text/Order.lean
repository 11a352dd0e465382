/-! # Sorted texts

Texts in the order of their code points.
-/

namespace TreeShell.Text

/-- Whether a text comes before another or is the same, by code points. -/
def notAfter (a b : String) : Bool :=
  !decide (b < a)

/-- A list of texts in ascending order. -/
def sort (texts : List String) : List String :=
  texts.mergeSort notAfter

end TreeShell.Text
