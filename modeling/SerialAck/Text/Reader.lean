/-
Readers take a value off the front of a text, or refuse it.
-/
namespace SerialAck

abbrev Reader (α : Type) := List Char → Option (α × List Char)

end SerialAck
