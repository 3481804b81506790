import TraceLedger.Proofs.Cbor.Heads
import TraceLedger.Proofs.Wire.Identifiers
import TraceLedger.Record.Datum

/-! # Written values as items

What a record writes is read back as the item that it stands for, whatever follows it. -/

namespace TraceLedger

namespace Datum

open Cbor

/-! ## What is written -/

theorem sizedHead?_eq_some {kind : Kind} {size : Nat} {out : List UInt8}
    (h : sizedHead? kind size = some out) :
    (UInt64.ofNat size).toNat = size ∧ out = head kind (UInt64.ofNat size) := by
  unfold sizedHead? at h
  split at h
  · next hlt => exact ⟨UInt64.toNat_ofNat_of_lt' hlt, (Option.some.inj h).symm⟩
  · cases h

theorem blob?_eq_some {kind : Kind} {value out : List UInt8} (h : blob? kind value = some out) :
    (UInt64.ofNat value.length).toNat = value.length ∧
      out = head kind (UInt64.ofNat value.length) ++ value := by
  obtain ⟨front, hfront, rfl⟩ := Option.map_eq_some_iff.mp h
  obtain ⟨hsize, rfl⟩ := sizedHead?_eq_some hfront
  exact ⟨hsize, rfl⟩

theorem linkToCbor?_eq_some {cid : Cid} {out : List UInt8} (h : linkToCbor? cid = some out) :
    ∃ blob, blob? .bytes (0 :: cid.toBytes) = some blob ∧ out = head .tag 42 ++ blob := by
  obtain ⟨blob, hblob, rfl⟩ := Option.map_eq_some_iff.mp h
  exact ⟨blob, hblob, rfl⟩

/-- The bytes of a list or of a map, given those of its content. -/
def sized? (kind : Kind) (size : Nat) (body? : Option (List UInt8)) : Option (List UInt8) :=
  (sizedHead? kind size).bind fun front => body?.map fun body => front ++ body

theorem sized?_eq_some {kind : Kind} {size : Nat} {body? : Option (List UInt8)}
    {out : List UInt8} (h : sized? kind size body? = some out) :
    ∃ body, body? = some body ∧ (UInt64.ofNat size).toNat = size ∧
      out = head kind (UInt64.ofNat size) ++ body := by
  obtain ⟨front, hfront, hrest⟩ := Option.bind_eq_some_iff.mp h
  obtain ⟨body, hbody, rfl⟩ := Option.map_eq_some_iff.mp hrest
  obtain ⟨hsize, rfl⟩ := sizedHead?_eq_some hfront
  exact ⟨body, hbody, hsize, rfl⟩

theorem list_toCbor? (items : List Datum) :
    (list items).toCbor? = sized? .list items.length (itemsToCbor? items) := by
  rw [toCbor?, sized?]
  cases itemsToCbor? items <;> rfl

theorem record_toCbor? (fields : List (String × Datum)) :
    (record fields).toCbor? = sized? .map fields.length (fieldsToCbor? fields) := by
  rw [toCbor?, sized?]
  cases fieldsToCbor? fields <;> rfl

theorem itemsToCbor?_cons_eq_some {item : Datum} {rest : List Datum} {out : List UInt8}
    (h : itemsToCbor? (item :: rest) = some out) :
    ∃ front back, item.toCbor? = some front ∧ itemsToCbor? rest = some back ∧
      out = front ++ back := by
  simp only [itemsToCbor?, Option.bind_eq_bind, Option.bind_eq_some_iff] at h
  obtain ⟨front, hfront, back, hback, hout⟩ := h
  exact ⟨front, back, hfront, hback, (Option.some.inj hout).symm⟩

theorem fieldsToCbor?_cons_eq_some {name : String} {item : Datum}
    {rest : List (String × Datum)} {out : List UInt8}
    (h : fieldsToCbor? ((name, item) :: rest) = some out) :
    ∃ label front back, blob? .text (Utf8.encode name) = some label ∧
      item.toCbor? = some front ∧ fieldsToCbor? rest = some back ∧
      out = label ++ (front ++ back) := by
  simp only [fieldsToCbor?, Option.bind_eq_bind, Option.bind_eq_some_iff] at h
  obtain ⟨label, hlabel, front, hfront, back, hback, hout⟩ := h
  refine ⟨label, front, back, hlabel, hfront, hback, ?_⟩
  rw [← List.append_assoc]
  exact (Option.some.inj hout).symm

theorem length_blob?_pos {kind : Kind} {value out : List UInt8}
    (h : blob? kind value = some out) : 0 < out.length := by
  obtain ⟨-, rfl⟩ := blob?_eq_some h
  exact length_head_append_pos _ _ _

theorem length_toCbor?_pos {d : Datum} {out : List UInt8} (h : d.toCbor? = some out) :
    0 < out.length := by
  cases d with
  | null => cases h; decide
  | bool value => cases value <;> cases h <;> decide
  | word value =>
      cases h
      exact length_head_pos _ _
  | integer value =>
      cases h
      split <;> exact length_head_pos _ _
  | text value => exact length_blob?_pos h
  | bytes value => exact length_blob?_pos h
  | address value => exact length_blob?_pos h
  | amount value =>
      obtain ⟨bytes, -, hblob⟩ := Option.bind_eq_some_iff.mp h
      exact length_blob?_pos hblob
  | link value =>
      obtain ⟨blob, -, rfl⟩ := linkToCbor?_eq_some h
      exact length_head_append_pos _ _ _
  | list items =>
      rw [list_toCbor?] at h
      obtain ⟨body, -, -, rfl⟩ := sized?_eq_some h
      exact length_head_append_pos _ _ _
  | record fields =>
      rw [record_toCbor?] at h
      obtain ⟨body, -, -, rfl⟩ := sized?_eq_some h
      exact length_head_append_pos _ _ _

theorem ne_nil_of_toCbor? {d : Datum} {out : List UInt8} (h : d.toCbor? = some out) : out ≠ [] :=
  List.ne_nil_of_length_pos (length_toCbor?_pos h)

/-! ## What can be written -/

mutual

/-- No amount is too large, and every length has a head. -/
def Fits : Datum → Prop
  | text value => (Utf8.encode value).length < UInt64.size
  | bytes value => value.length < UInt64.size
  | amount value => (SignedMagnitude.bytesOf value).length ≤ SignedMagnitude.maxSize
  | list items => items.length < UInt64.size ∧ itemsFit items
  | record fields => fields.length < UInt64.size ∧ fieldsFit fields
  | _ => True

def itemsFit : List Datum → Prop
  | [] => True
  | item :: rest => Fits item ∧ itemsFit rest

def fieldsFit : List (String × Datum) → Prop
  | [] => True
  | (name, item) :: rest => (Utf8.encode name).length < UInt64.size ∧ Fits item ∧ fieldsFit rest

end

theorem isSome_sizedHead? (kind : Kind) (size : Nat) :
    (sizedHead? kind size).isSome ↔ size < UInt64.size := by
  unfold sizedHead?
  split <;> simp [*]

theorem isSome_blob? (kind : Kind) (value : List UInt8) :
    (blob? kind value).isSome ↔ value.length < UInt64.size := by
  simp [blob?, isSome_sizedHead?]

theorem isSome_sized? (kind : Kind) (size : Nat) (body? : Option (List UInt8)) :
    (sized? kind size body?).isSome ↔ size < UInt64.size ∧ body?.isSome := by
  rw [sized?, ← isSome_sizedHead? kind size]
  cases sizedHead? kind size <;> simp

theorem isSome_amount (value : Int) : (amount value).toCbor?.isSome ↔ (amount value).Fits := by
  have hsmall : SignedMagnitude.maxSize < UInt64.size := by decide
  simp only [toCbor?, Fits, SignedMagnitude.encode?]
  split
  · next hle =>
      have hlt := Nat.lt_of_le_of_lt hle hsmall
      simp [isSome_blob?, hle, hlt]
  · next hle => simp [hle]

theorem isSome_link (cid : Cid) : (link cid).toCbor?.isSome := by
  have hlt : (0 :: cid.toBytes).length < UInt64.size :=
    Nat.lt_of_le_of_lt (Nat.succ_le_succ cid.length_toBytes_le) (by decide)
  simp only [toCbor?, linkToCbor?, Option.isSome_map]
  exact (isSome_blob? _ _).mpr hlt

mutual

/-- What fits is what can be written. -/
theorem isSome_toCbor?_iff (d : Datum) : d.toCbor?.isSome ↔ d.Fits := by
  cases d with
  | null => simp [toCbor?, Fits]
  | bool value => cases value <;> simp [toCbor?, Fits]
  | word value => simp [toCbor?, Fits]
  | integer value => simp [toCbor?, Fits]
  | text value => exact isSome_blob? _ _
  | bytes value => exact isSome_blob? _ _
  | address value =>
      have hlt : value.toBytes.length < UInt64.size :=
        Nat.lt_of_le_of_lt value.length_toBytes_le (by decide)
      simp [toCbor?, Fits, isSome_blob?, hlt]
  | amount value => exact isSome_amount value
  | link value => simp [isSome_link, Fits]
  | list items =>
      rw [list_toCbor?, isSome_sized?, isSome_itemsToCbor?_iff items, Fits]
  | record fields =>
      rw [record_toCbor?, isSome_sized?, isSome_fieldsToCbor?_iff fields, Fits]

theorem isSome_itemsToCbor?_iff (items : List Datum) :
    (itemsToCbor? items).isSome ↔ itemsFit items := by
  cases items with
  | nil => simp [itemsToCbor?, itemsFit]
  | cons item rest =>
      have hitem := isSome_toCbor?_iff item
      have hrest := isSome_itemsToCbor?_iff rest
      rw [itemsFit, ← hitem, ← hrest, itemsToCbor?]
      cases item.toCbor? <;> cases itemsToCbor? rest <;> simp

theorem isSome_fieldsToCbor?_iff (fields : List (String × Datum)) :
    (fieldsToCbor? fields).isSome ↔ fieldsFit fields := by
  cases fields with
  | nil => simp [fieldsToCbor?, fieldsFit]
  | cons field rest =>
      obtain ⟨name, item⟩ := field
      have hname := isSome_blob? .text (Utf8.encode name)
      have hitem := isSome_toCbor?_iff item
      have hrest := isSome_fieldsToCbor?_iff rest
      rw [fieldsFit, ← hname, ← hitem, ← hrest, fieldsToCbor?]
      cases blob? .text (Utf8.encode name) <;> cases item.toCbor? <;>
        cases fieldsToCbor? rest <;> simp

end

/-! ## What is read back -/

mutual

/-- The item that a value stands for. -/
def toItem : Datum → Item
  | null => .null
  | bool value => .bool value
  | word value => .int value.toNat
  | integer value => .int value.toInt
  | text value => .text true value
  | bytes value => .bytes true value
  | address value => .bytes true value.toBytes
  | amount value => .bytes true (SignedMagnitude.bytesOf value)
  | link value => .tag 42 (.bytes true (0 :: value.toBytes))
  | list items => .list (itemsToItems items)
  | record fields => .map (fieldsToEntries fields)

def itemsToItems : List Datum → List Item
  | [] => []
  | item :: rest => toItem item :: itemsToItems rest

def fieldsToEntries : List (String × Datum) → List (Item × Item)
  | [] => []
  | (name, item) :: rest => (.text true name, toItem item) :: fieldsToEntries rest

end

theorem read_blob_bytes {value out : List UInt8} (h : blob? .bytes value = some out) (fuel : Nat)
    (rest : List UInt8) :
    Item.read (fuel + 1) (out ++ rest) = some (.bytes true value, rest) := by
  obtain ⟨hsize, rfl⟩ := blob?_eq_some h
  rw [List.append_assoc, Item.read_head]
  simp [Item.body, hsize, Octets.take?_append]

theorem read_blob_text {value : String} {out : List UInt8}
    (h : blob? .text (Utf8.encode value) = some out) (fuel : Nat) (rest : List UInt8) :
    Item.read (fuel + 1) (out ++ rest) = some (.text true value, rest) := by
  obtain ⟨hsize, rfl⟩ := blob?_eq_some h
  rw [List.append_assoc, Item.read_head]
  simp [Item.body, hsize, Octets.take?_append, Utf8.decode?_encode]

/-- A negative integer is written as its complement. -/
theorem toInt_of_neg {value : Int64} (h : ¬ 0 ≤ value) :
    -1 - ((~~~ value.toUInt64).toNat : Int) = value.toInt := by
  have hneg : value.toInt < 0 := by
    simpa [Int64.le_iff_toInt_le] using h
  have hlt := value.toUInt64.toNat_lt
  have hcond : value.toInt = _ := BitVec.toInt_eq_toNat_cond value.toBitVec
  have hnot : (~~~ value.toUInt64).toNat = 2 ^ 64 - 1 - value.toUInt64.toNat := by
    simp [UInt64.toNat_not]
  have hbits : value.toBitVec.toNat = value.toUInt64.toNat := rfl
  rw [hbits] at hcond
  split at hcond <;> omega

theorem toInt_of_nonneg {value : Int64} (h : 0 ≤ value) :
    (value.toUInt64.toNat : Int) = value.toInt := by
  have hpos : 0 ≤ value.toInt := by
    simpa [Int64.le_iff_toInt_le] using h
  have hcond : value.toInt = _ := BitVec.toInt_eq_toNat_cond value.toBitVec
  have hbits : value.toBitVec.toNat = value.toUInt64.toNat := rfl
  have hlt := value.toUInt64.toNat_lt
  rw [hbits] at hcond
  split at hcond <;> omega

theorem read_integer (value : Int64) {out : List UInt8}
    (h : (integer value).toCbor? = some out) (fuel : Nat) (rest : List UInt8) :
    Item.read (fuel + 1) (out ++ rest) = some (.int value.toInt, rest) := by
  cases h
  split
  · next hsign => rw [Item.read_head, Item.body, toInt_of_nonneg hsign]
  · next hsign => rw [Item.read_head, Item.body, toInt_of_neg hsign]

mutual

/-- Every level of nesting costs one step for the item and one for its place in a list or a map,
and takes a byte at least. -/
theorem read_toCbor? {d : Datum} {out : List UInt8} (h : d.toCbor? = some out) {fuel : Nat}
    (hfuel : 2 * out.length ≤ fuel) (rest : List UInt8) :
    Item.read fuel (out ++ rest) = some (d.toItem, rest) := by
  have hpos := length_toCbor?_pos h
  obtain ⟨fuel, rfl⟩ : ∃ n, fuel = n + 1 := ⟨fuel - 1, by omega⟩
  cases d with
  | null => cases h; rfl
  | bool value => cases value <;> cases h <;> rfl
  | word value =>
      cases h
      rw [Item.read_head]
      rfl
  | integer value => exact read_integer value h fuel rest
  | text value => exact read_blob_text h fuel rest
  | bytes value => exact read_blob_bytes h fuel rest
  | address value => exact read_blob_bytes h fuel rest
  | amount value =>
      obtain ⟨bytes, hbytes, hblob⟩ := Option.bind_eq_some_iff.mp h
      obtain ⟨rfl, -⟩ := SignedMagnitude.encode?_eq_some hbytes
      exact read_blob_bytes hblob fuel rest
  | link value =>
      obtain ⟨blob, hblob, rfl⟩ := linkToCbor?_eq_some h
      obtain ⟨fuel, rfl⟩ : ∃ n, fuel = n + 1 := ⟨fuel - 1, by omega⟩
      rw [List.append_assoc, Item.read_head, Item.body, read_blob_bytes hblob fuel rest]
      rfl
  | list items =>
      rw [list_toCbor?] at h
      obtain ⟨body, hbody, hsize, rfl⟩ := sized?_eq_some h
      have hhead := length_head_pos .list (UInt64.ofNat items.length)
      rw [List.length_append] at hfuel
      have hread := items_itemsToCbor? hbody (by omega : 2 * body.length < fuel) rest
      rw [List.append_assoc, Item.read_head, Item.body, hsize, hread]
      rfl
  | record fields =>
      rw [record_toCbor?] at h
      obtain ⟨body, hbody, hsize, rfl⟩ := sized?_eq_some h
      have hhead := length_head_pos .map (UInt64.ofNat fields.length)
      rw [List.length_append] at hfuel
      have hread := entries_fieldsToCbor? hbody (by omega : 2 * body.length < fuel) rest
      rw [List.append_assoc, Item.read_head, Item.body, hsize, hread]
      rfl

theorem items_itemsToCbor? {items : List Datum} {out : List UInt8}
    (h : itemsToCbor? items = some out) {fuel : Nat} (hfuel : 2 * out.length < fuel)
    (rest : List UInt8) :
    Item.items fuel items.length (out ++ rest) = some (itemsToItems items, rest) := by
  obtain ⟨fuel, rfl⟩ : ∃ n, fuel = n + 1 := ⟨fuel - 1, by omega⟩
  cases items with
  | nil => cases h; rfl
  | cons item more =>
      obtain ⟨front, back, hfront, hback, rfl⟩ := itemsToCbor?_cons_eq_some h
      have hpos := length_toCbor?_pos hfront
      rw [List.length_append] at hfuel
      have hitem := read_toCbor? hfront (by omega : 2 * front.length ≤ fuel) (back ++ rest)
      have hmore := items_itemsToCbor? hback (by omega : 2 * back.length < fuel) rest
      rw [List.append_assoc, List.length_cons, Item.items, hitem]
      simp [hmore, itemsToItems]

theorem entries_fieldsToCbor? {fields : List (String × Datum)} {out : List UInt8}
    (h : fieldsToCbor? fields = some out) {fuel : Nat} (hfuel : 2 * out.length < fuel)
    (rest : List UInt8) :
    Item.entries fuel fields.length (out ++ rest) = some (fieldsToEntries fields, rest) := by
  obtain ⟨fuel, rfl⟩ : ∃ n, fuel = n + 1 := ⟨fuel - 1, by omega⟩
  cases fields with
  | nil => cases h; rfl
  | cons field more =>
      obtain ⟨label, front, back, hlabel, hfront, hback, rfl⟩ := fieldsToCbor?_cons_eq_some h
      have hpos := length_toCbor?_pos hfront
      rw [List.length_append, List.length_append] at hfuel
      obtain ⟨fuel, rfl⟩ : ∃ n, fuel = n + 1 := ⟨fuel - 1, by omega⟩
      have hname := read_blob_text hlabel fuel (front ++ (back ++ rest))
      have hitem := read_toCbor? hfront (by omega : 2 * front.length ≤ fuel + 1) (back ++ rest)
      have hmore := entries_fieldsToCbor? hback (by omega : 2 * back.length < fuel + 1) rest
      rw [List.append_assoc, List.append_assoc, List.length_cons, Item.entries, hname]
      simp [hitem, hmore, fieldsToEntries]

end

theorem ofBytes?_toCbor? {d : Datum} {out : List UInt8} (h : d.toCbor? = some out) :
    Item.ofBytes? out = some d.toItem := by
  have hread := read_toCbor? h (by omega : 2 * out.length ≤ 2 * out.length + 1) []
  rw [List.append_nil] at hread
  simp [Item.ofBytes?, hread]

end Datum
end TraceLedger
