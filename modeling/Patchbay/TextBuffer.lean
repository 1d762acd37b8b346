import Patchbay.Text.Utf8
/-!
The text that an owner's editor holds, as bytes.
-/
namespace Patchbay

open Text.Utf8

structure TextBuffer where
  bytes : Bytes := []
  deriving DecidableEq, Inhabited, Repr

namespace TextBuffer

def setText (_ : TextBuffer) (text : Bytes) : TextBuffer := ⟨text⟩

def length (b : TextBuffer) : Nat := b.bytes.length

def isEmpty (b : TextBuffer) : Bool := b.bytes.isEmpty

def withoutTerminators (b : Bytes) : Bytes :=
  (b.reverse.dropWhile (· == 0)).reverse

/-- The text as source: without terminators, and with a mark for each invalid part. -/
def toSource (b : TextBuffer) : String := lossyString (withoutTerminators b.bytes)

end TextBuffer

end Patchbay
