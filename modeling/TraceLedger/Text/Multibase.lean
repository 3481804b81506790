import TraceLedger.Text.Base32
import TraceLedger.Text.Base64
import TraceLedger.Text.Hex
import TraceLedger.Text.Positional
import TraceLedger.Text.Utf8

/-! # Text of bytes in one of many bases

The first letter of a text names the base of what stands behind it. -/

namespace TraceLedger.Multibase

open Positional (Alphabet)

def base8 : Alphabet := "01234567".toList

def base10 : Alphabet := "0123456789".toList

/-- The symbols of base 32 in the order of hexadecimal digits. -/
def base32Hex : Alphabet := "0123456789abcdefghijklmnopqrstuv".toList

/-- The symbols of base 32 that are easy to tell apart when they are read out. -/
def base32Z : Alphabet := "ybndrfg8ejkmcpqxot1uwisza345h769".toList

/-- The symbols of base 58 with the small letters first. -/
def base58Flickr : Alphabet := "123456789abcdefghijkmnopqrstuvwxyzABCDEFGHJKLMNPQRSTUVWXYZ".toList

/-- The bytes of digits of a few bits each. -/
def bits? (width : Nat) (symbols : Alphabet) (digits : List Char) : Option (List UInt8) := do
  BitDigits.decode? width (← digits.mapM (symbols.idxOf? ·))

/-- Base 64 without padding; the alphabet for addresses has `-` and `_` as its last symbols. -/
def base64? (url : Bool) (digits : List Char) : Option (List UInt8) := do
  let plain ← digits.mapM fun c =>
    if url then
      if c = '-' then some '+' else if c = '_' then some '/'
      else if c = '+' ∨ c = '/' then none else some c
    else some c
  BitDigits.decode? 6 (← plain.mapM Base64.value?)

/-- Reads `count` groups of `size` symbols. Each group has at least one digit, and padding behind its
digits. -/
def groups? (size : Nat) (group? : List Char → Option (List UInt8)) :
    (count : Nat) → List Char → Option (List UInt8)
  | 0, text => if text.isEmpty then some [] else none
  | count + 1, text => do
    let digits := (text.take size).takeWhile (· ≠ '=')
    let padding := (text.take size).dropWhile (· ≠ '=')
    if ¬digits.isEmpty ∧ padding.all (· = '=') then
      return (← group? digits) ++ (← groups? size group? count (text.drop size))
    else none

/-- Reads a text that is padded to whole groups. -/
def padded? (size : Nat) (group? : List Char → Option (List UInt8)) (text : List Char) :
    Option (List UInt8) :=
  groups? size group? (text.length / size) text

/-- Decodes a text by the base that its first letter names. Where a base has no use for both
cases of a letter, either may be written. -/
def decode? : List Char → Option (List UInt8)
  | '\x00' :: text => some (Utf8.encode (String.ofList text))
  | '0' :: digits => bits? 1 ['0', '1'] digits
  | '7' :: digits => bits? 3 base8 digits
  | '9' :: digits => Positional.decode? base10 digits
  | 'f' :: digits | 'F' :: digits => Hex.decodeChars? digits
  | 'v' :: digits | 'V' :: digits => bits? 5 base32Hex (digits.map Char.toLower)
  | 't' :: text | 'T' :: text => padded? 8 (bits? 5 base32Hex) (text.map Char.toLower)
  | 'b' :: digits | 'B' :: digits => Base32.decode? (digits.map Char.toLower)
  | 'c' :: text | 'C' :: text => padded? 8 Base32.decode? (text.map Char.toLower)
  | 'h' :: digits => bits? 5 base32Z digits
  | 'k' :: digits | 'K' :: digits => Positional.decode? Positional.base36 (digits.map Char.toLower)
  | 'Z' :: digits => Positional.decode? base58Flickr digits
  | 'z' :: digits => Positional.decode? Positional.base58 digits
  | 'm' :: digits => base64? false digits
  | 'M' :: text => padded? 4 (base64? false) text
  | 'u' :: digits => base64? true digits
  | 'U' :: text => padded? 4 (base64? true) text
  | _ => none

end TraceLedger.Multibase
