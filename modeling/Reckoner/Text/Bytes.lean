/-!
# Bytes of a text

Places in a text are given in bytes of its UTF-8 form where a reader of the file needs them.
-/

namespace Reckoner.Text

/-- How many bytes of UTF-8 characters take. -/
def byteCount : List Char → Nat
  | [] => 0
  | c :: cs => c.utf8Size + byteCount cs

@[simp] theorem byteCount_append (cs ds : List Char) :
    byteCount (cs ++ ds) = byteCount cs + byteCount ds := by
  induction cs with
  | nil => simp [byteCount]
  | cons c cs ih => simp [byteCount, ih, Nat.add_assoc]

end Reckoner.Text
