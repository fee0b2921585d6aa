/-!
# Texts of the operating system

The names and paths of the operating system are bytes. Most of them are the UTF-8 of a text, but nothing sees
to that. Where a text is wanted, the replacement character stands for each character that breaks off and for
each byte that begins none.
-/

namespace Templating

structure OsString where
  bytes : List UInt8
deriving DecidableEq, Repr

namespace OsString

def ofString (text : String) : OsString := ⟨text.toList.flatMap String.utf8EncodeChar⟩

instance : Coe String OsString := ⟨ofString⟩

/-! ### Characters from bytes -/

/-- The character that bytes begin with, if they begin with all bytes of one. -/
def first? (bytes : List UInt8) : Option Char := bytes.toByteArray.utf8DecodeChar? 0

def isTail (byte : UInt8) : Bool := 0x80 ≤ byte && byte ≤ 0xbf

/-- Whether a byte may be the second of the three or four bytes of a character that begins with `lead`. -/
def isSecond (lead byte : UInt8) : Bool :=
  if lead = 0xe0 then 0xa0 ≤ byte && byte ≤ 0xbf
  else if lead = 0xed then 0x80 ≤ byte && byte ≤ 0x9f
  else if lead = 0xf0 then 0x90 ≤ byte && byte ≤ 0xbf
  else if lead = 0xf4 then 0x80 ≤ byte && byte ≤ 0x8f
  else 0xe1 ≤ lead && lead ≤ 0xf3 && isTail byte

/-- How many bytes behind `lead` belong to the character that begins with it and breaks off. -/
def brokenOff (lead : UInt8) : List UInt8 → Nat
  | [] => 0
  | second :: rest =>
    if isSecond lead second then
      match rest with
      | [] => 1
      | third :: _ => if 0xf0 ≤ lead && isTail third then 2 else 1
    else 0

/-- The characters of bytes, the first `passed` of which belong to a character before. -/
def decode (passed : Nat) : List UInt8 → List Char
  | [] => []
  | byte :: bytes =>
    match passed with
    | more + 1 => decode more bytes
    | 0 =>
      match first? (byte :: bytes) with
      | some c => c :: decode (c.utf8Size - 1) bytes
      | none => '\ufffd' :: decode (brokenOff byte bytes) bytes

/-- The text, as far as the bytes are one. -/
def lossy (s : OsString) : String := String.ofList (decode 0 s.bytes)

end OsString

end Templating
