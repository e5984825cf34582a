/-
# Text that may be damaged

File names and file contents are bytes. Here they are text with the damage kept apart: characters,
and between them the stretches of bytes that spell none. Two byte strings are equal when their
pieces are, so nothing is lost; a text is a damaged text without damage.
-/

namespace CardInventory

/-- A character, or bytes that spell none. -/
inductive Piece where
  | char (c : Char)
  | junk (bytes : List UInt8)
  deriving DecidableEq, Repr

namespace Piece

/-- The character to show for a piece: U+FFFD stands for bytes that spell none. -/
def shown : Piece → Char
  | char c => c
  | junk _ => '\ufffd'

/-- How many bytes a piece has, a character being spelled in UTF-8. -/
def size : Piece → Nat
  | char c => c.utf8Size
  | junk bytes => bytes.length

/-- The character of a piece, if it is one. -/
def char? : Piece → Option Char
  | char c => some c
  | junk _ => none

end Piece

/-- Bytes, read as text as far as they are text. -/
structure RawText where
  pieces : List Piece
  deriving DecidableEq, Repr

namespace RawText

/-- A text as raw text. -/
def ofChars (cs : List Char) : RawText := ⟨cs.map .char⟩

/-- A text as raw text. -/
def ofString (s : String) : RawText := ofChars s.toList

instance : Coe String RawText := ⟨ofString⟩

/-- How many bytes there are. -/
def size (t : RawText) : Nat := t.pieces.foldr (fun p n => p.size + n) 0

/-- The text, if nothing in it is damaged. -/
def toString? (t : RawText) : Option String := (t.pieces.mapM Piece.char?).map String.ofList

/-- The text with one U+FFFD for each damaged stretch. -/
def lossy (t : RawText) : String := String.ofList (t.pieces.map Piece.shown)

/-- The stretches between the occurrences of `sep`. -/
def splitAt (sep : Char) (t : RawText) : List RawText :=
  (t.pieces.splitOn (.char sep)).map RawText.mk

theorem lossy_ofString (s : String) : (ofString s).lossy = s := by
  simp [lossy, ofString, ofChars, Function.comp_def, Piece.shown]

end RawText
end CardInventory
