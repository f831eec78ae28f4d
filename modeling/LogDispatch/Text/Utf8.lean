/-! Reading bytes as UTF-8. Bytes that cannot be read show as replacement characters. -/

namespace LogDispatch.Text

def encodeUtf8 (s : String) : List UInt8 := s.toUTF8.toList

/-- The byte goes on a sequence of bytes. -/
def isContinuation (b : UInt8) : Bool := 0x80 ≤ b && b ≤ 0xbf

/-- How many bytes follow the first one of a sequence, and which the first of them can be. No sequence has
    another beginning. -/
def following? (b : UInt8) : Option (Nat × UInt8 × UInt8) :=
  if 0xc2 ≤ b && b ≤ 0xdf then some (1, 0x80, 0xbf)
  else if b = 0xe0 then some (2, 0xa0, 0xbf)
  else if b = 0xed then some (2, 0x80, 0x9f)
  else if 0xe1 ≤ b && b ≤ 0xef then some (2, 0x80, 0xbf)
  else if b = 0xf0 then some (3, 0x90, 0xbf)
  else if 0xf1 ≤ b && b ≤ 0xf3 then some (3, 0x80, 0xbf)
  else if b = 0xf4 then some (3, 0x80, 0x8f)
  else none

/-- The character in place of bytes that cannot be read. -/
def replacement : Char := Char.ofNat 0xfffd

/-- The character that starts with the byte `b`, and how many of the bytes after it belong to it. A sequence
    that breaks off counts as far as it goes. -/
def charAt (b : UInt8) (bs : List UInt8) : Char × Nat :=
  if b < 0x80 then (Char.ofNat b.toNat, 0)
  else match following? b, bs with
    | some (n, lo, hi), b' :: rest =>
      if lo ≤ b' && b' ≤ hi then
        let more := (rest.take (n - 1)).takeWhile isContinuation
        if more.length = n - 1 then
          let lead := b.toNat % Nat.pow 2 (6 - n)
          (Char.ofNat ((b' :: more).foldl (fun code b => code * 64 + b.toNat % 64) lead), n)
        else (replacement, more.length + 1)
      else (replacement, 0)
    | _, _ => (replacement, 0)

/-- The characters of bytes of which the first `skip` belong to the character before. -/
def decodeChars (skip : Nat) : List UInt8 → List Char
  | [] => []
  | b :: bs => match skip with
    | k + 1 => decodeChars k bs
    | 0 =>
      let (c, n) := charAt b bs
      c :: decodeChars n bs

def decodeUtf8 (bytes : List UInt8) : String := String.ofList (decodeChars 0 bytes)

end LogDispatch.Text
