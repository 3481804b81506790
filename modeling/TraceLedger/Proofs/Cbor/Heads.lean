import TraceLedger.Cbor.Item
import TraceLedger.Proofs.Wire.Numbers

/-! # Heads read back

A head is the bits of its kind beside a number below 28, which tells how many bytes of argument
follow. Readers take the two apart, whatever the kind. -/

namespace TraceLedger.Cbor

/-! ## The bits of a head -/

namespace Kind

/-- A number below 32 leaves the bits of the kind as they are. -/
theorem shift_mask_or (kind : Kind) {low : UInt8} (h : low.toNat < 32) :
    (kind.mask ||| low) >>> 5 = kind.code := by
  have hall : ∀ i : Fin 32, (kind.mask ||| UInt8.ofNat i) >>> 5 = kind.code := by
    cases kind <;> decide
  simpa using hall ⟨low.toNat, h⟩

theorem low_mask_or (kind : Kind) {low : UInt8} (h : low.toNat < 32) :
    (kind.mask ||| low) &&& 0x1f = low := by
  have hall : ∀ i : Fin 32, (kind.mask ||| UInt8.ofNat i) &&& 0x1f = UInt8.ofNat i := by
    cases kind <;> decide
  simpa using hall ⟨low.toNat, h⟩

theorem low_openHead (kind : Kind) : kind.openHead &&& 0x1f = 0x1f := by
  cases kind <;> decide

/-- What a kind leaves of a head of its own is the number beside it. -/
theorem clear_mask_or (kind : Kind) {low : UInt8} (h : low.toNat < 32) :
    (kind.mask ||| low) &&& ~~~kind.mask = low := by
  have hall : ∀ i : Fin 32, (kind.mask ||| UInt8.ofNat i) &&& ~~~kind.mask = UInt8.ofNat i := by
    cases kind <;> decide
  simpa using hall ⟨low.toNat, h⟩

/-- An open head has the number 31 beside its kind, which no argument has. -/
theorem mask_or_ne_openHead (kind other : Kind) {low : UInt8} (h : low.toNat < 28) :
    kind.mask ||| low ≠ other.openHead := by
  intro heq
  have hbits := congrArg (· &&& 0x1f) heq
  simp only [kind.low_mask_or (Nat.lt_trans h (by decide)), other.low_openHead] at hbits
  simp [hbits] at h

end Kind

/-! ## Arguments -/

/-- The number beside the kind in the head of an argument. -/
def argumentLow (n : UInt64) : UInt8 :=
  if n < 24 then n.toUInt8
  else if n < 0x100 then 24
  else if n < 0x10000 then 25
  else if n < 0x100000000 then 26
  else 27

/-- The bytes behind the first byte of a head. -/
def argumentBytes (n : UInt64) : List UInt8 :=
  if n < 24 then []
  else if n < 0x100 then BigEndian.fixed 1 n.toNat
  else if n < 0x10000 then BigEndian.fixed 2 n.toNat
  else if n < 0x100000000 then BigEndian.fixed 4 n.toNat
  else BigEndian.fixed 8 n.toNat

theorem head_eq (kind : Kind) (n : UInt64) :
    head kind n = (kind.mask ||| argumentLow n) :: argumentBytes n := by
  unfold head argumentLow argumentBytes
  split
  · rfl
  · split
    · rfl
    · split
      · rfl
      · split <;> rfl

theorem argumentLow_lt (n : UInt64) : (argumentLow n).toNat < 28 := by
  unfold argumentLow
  split
  · next h =>
      have : n.toNat < 24 := UInt64.lt_iff_toNat_lt.mp h
      simp only [UInt64.toNat_toUInt8]
      omega
  · split
    · decide
    · split
      · decide
      · split <;> decide

theorem number?_fixed (width : Nat) {n : UInt64} (h : n.toNat < 256 ^ width)
    (rest : List UInt8) :
    number? width (BigEndian.fixed width n.toNat ++ rest) = some (n, rest) := by
  have htake := Octets.take?_append (BigEndian.fixed width n.toNat) rest
  rw [BigEndian.length_fixed] at htake
  simp [number?, htake, BigEndian.decode_fixed_of_lt h]

theorem argument?_argumentLow (n : UInt64) (rest : List UInt8) :
    argument? (argumentLow n) (argumentBytes n ++ rest) = some (n, rest) := by
  unfold argumentLow argumentBytes
  split
  · next h =>
      have hn : n.toNat < 24 := UInt64.lt_iff_toNat_lt.mp h
      have hnat : n.toUInt8.toNat = n.toNat := by
        rw [UInt64.toNat_toUInt8]
        omega
      have hbyte : n.toUInt8 < 24 := UInt8.lt_iff_toNat_lt.mpr (by rw [hnat]; exact hn)
      have hword : n.toUInt8.toUInt64 = n :=
        UInt64.toNat_inj.mp (by rw [UInt8.toNat_toUInt64, hnat])
      simp [argument?, hbyte, hword]
  · split
    · next h => exact number?_fixed 1 (by simpa using UInt64.lt_iff_toNat_lt.mp h) rest
    · split
      · next h => exact number?_fixed 2 (by simpa using UInt64.lt_iff_toNat_lt.mp h) rest
      · split
        · next h => exact number?_fixed 4 (by simpa using UInt64.lt_iff_toNat_lt.mp h) rest
        · exact number?_fixed 8 (by simpa using n.toNat_lt) rest

/-- A head tells its argument, and where it ends. -/
theorem head_append_inj {kind : Kind} {m n : UInt64} {rest rest' : List UInt8}
    (h : head kind m ++ rest = head kind n ++ rest') : m = n ∧ rest = rest' := by
  have hbelow (k : UInt64) : (argumentLow k).toNat < 32 :=
    Nat.lt_trans (argumentLow_lt k) (by decide)
  simp only [head_eq, List.cons_append] at h
  obtain ⟨hfirst, hbehind⟩ := List.cons.inj h
  have hlow : argumentLow m = argumentLow n := by
    rw [← kind.low_mask_or (hbelow m), hfirst, kind.low_mask_or (hbelow n)]
  have hread := argument?_argumentLow m rest
  rw [hlow, hbehind, argument?_argumentLow] at hread
  obtain ⟨hargument, hrest⟩ := Prod.mk.inj (Option.some.inj hread)
  exact ⟨hargument.symm, hrest.symm⟩

theorem length_head_pos (kind : Kind) (n : UInt64) : 0 < (head kind n).length := by
  simp [head_eq]

theorem length_head_append_pos (kind : Kind) (n : UInt64) (rest : List UInt8) :
    0 < (head kind n ++ rest).length := by
  simp [head_eq]

/-! ## Items behind their heads -/

namespace Item

/-- Reads what stands behind a head of the given kind and argument. -/
def body (fuel : Nat) (n : UInt64) (rest : Input) : Kind → Option (Item × Input)
  | .unsigned => some (int n.toNat, rest)
  | .negative => some (int (-1 - (n.toNat : Int)), rest)
  | .bytes => (Octets.take? n.toNat rest).map fun (value, rest) => (bytes true value, rest)
  | .text =>
    match Octets.take? n.toNat rest with
    | none => none
    | some (value, rest) => (Utf8.decode? value).map fun value => (text true value, rest)
  | .list => (items fuel n.toNat rest).map fun (items, rest) => (list items, rest)
  | .map => (entries fuel n.toNat rest).map fun (entries, rest) => (map entries, rest)
  | .tag => (read fuel rest).map fun (item, rest) => (tag n item, rest)

theorem read_head (kind : Kind) (fuel : Nat) (n : UInt64) (rest : Input) :
    read (fuel + 1) (head kind n ++ rest) = body fuel n rest kind := by
  have hlow : (argumentLow n).toNat < 32 := Nat.lt_trans (argumentLow_lt n) (by decide)
  have hopen (other : Kind) := kind.mask_or_ne_openHead other (argumentLow_lt n)
  rw [head_eq, List.cons_append, read]
  simp only [hopen, if_false, kind.shift_mask_or hlow, kind.low_mask_or hlow,
    argument?_argumentLow]
  cases kind <;> rfl

end Item
end TraceLedger.Cbor
