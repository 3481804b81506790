/-! # Decimal text of machine words -/

namespace TraceLedger.Decimal

/-- The number with the given digits; at least one digit is needed. -/
def nat? : List Char → Option Nat
  | [] => none
  | text => text.foldlM (fun n c => if c.isDigit then some (10 * n + (c.toNat - 48)) else none) 0

/-- Reads a 64-bit word. One plus sign and leading zeros may stand before it. -/
def word? (text : List Char) : Option UInt64 := do
  let digits := match text with
    | '+' :: rest => rest
    | text => text
  let n ← nat? digits
  if n < UInt64.size then some (UInt64.ofNat n) else none

end TraceLedger.Decimal
