/-!
# Texts as they arrive

A body arrives as bytes that need not be valid UTF-8. `Symbol.ofBytes` cuts it
into symbols: the characters that its bytes encode, and each byte that belongs
to no character as a stray. A body is valid UTF-8 exactly when it has no stray,
and `Symbol.characters?` then gives its characters.
-/

namespace SearchWire

/-- One symbol of an incoming text: a character, or a byte that belongs to none. -/
inductive Symbol where
  | char (c : Char)
  | stray (byte : UInt8)
deriving DecidableEq

namespace Symbol

/-- The number of bytes a symbol takes. -/
def byteCount : Symbol → Nat
  | .char c => c.utf8Size
  | .stray _ => 1

/-- The symbols of the bytes from a position on. -/
def ofBytesFrom (bytes : ByteArray) (position : Nat) : List Symbol :=
  if h : position < bytes.size then
    match bytes.utf8DecodeChar? position with
    | some c => .char c :: ofBytesFrom bytes (position + c.utf8Size)
    | none => .stray bytes[position] :: ofBytesFrom bytes (position + 1)
  else []
termination_by bytes.size - position
decreasing_by
  · have := c.utf8Size_pos
    omega
  · omega

/-- The symbols of a body. -/
def ofBytes (bytes : ByteArray) : List Symbol :=
  ofBytesFrom bytes 0

/-- The symbols of a list of characters. -/
def ofChars (chars : List Char) : List Symbol :=
  chars.map .char

/-- The symbols of a string. -/
def ofString (text : String) : List Symbol :=
  ofChars text.toList

/-- The characters of a text without strays. -/
def characters? : List Symbol → Option (List Char)
  | [] => some []
  | .char c :: rest => (characters? rest).map (c :: ·)
  | .stray _ :: _ => none

@[simp] theorem characters?_ofChars (chars : List Char) :
    characters? (ofChars chars) = some chars := by
  induction chars with
  | nil => rfl
  | cons c rest ih =>
      have ih' : characters? (rest.map .char) = some rest := ih
      simp [ofChars, characters?, ih']

end Symbol

end SearchWire
