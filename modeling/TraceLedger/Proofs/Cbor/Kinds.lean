import TraceLedger.Cbor.Typed
import TraceLedger.Proofs.Cbor.ByteStrings
import TraceLedger.Proofs.Cbor.Items

/-! # Written values read back by their kinds

A reader that knows which kind comes next passes over the bits of that kind in the head, which a
writer has set. So what was written is read back, whatever stands behind it. -/

namespace TraceLedger

open Cbor

namespace Datum

theorem isSized_of_blob? {kind : Kind} {value out : List UInt8} (h : blob? kind value = some out) :
    IsSized kind value out := by
  obtain ⟨hsize, rfl⟩ := blob?_eq_some h
  rw [head_eq, List.cons_append]
  exact ⟨_, _, _, rfl, argument?_argumentLow _ value, hsize⟩

/-- An amount that is written is short enough to be read, and is written as its bytes. -/
theorem amount_toCbor?_eq_some {n : Int} {out : List UInt8} (h : (amount n).toCbor? = some out) :
    (SignedMagnitude.bytesOf n).length ≤ SignedMagnitude.maxSize ∧
      blob? .bytes (SignedMagnitude.bytesOf n) = some out := by
  obtain ⟨bytes, hbytes, hblob⟩ := Option.bind_eq_some_iff.mp h
  obtain ⟨rfl, hlength⟩ := SignedMagnitude.encode?_eq_some hbytes
  exact ⟨hlength, hblob⟩

/-- A budget for a list is one for each of its items. -/
theorem exists_budget_of_list {items : List Datum} {budget : Nat}
    (h : 2 * (list items).toItem.depth < budget) :
    ∃ inner, budget = inner + 2 ∧ 2 * Item.itemsDepth (itemsToItems items) < inner := by
  rw [toItem, Item.depth] at h
  exact ⟨budget - 2, by omega, by omega⟩

theorem depth_lt_of_cons {item : Datum} {items : List Datum} {budget : Nat}
    (h : 2 * Item.itemsDepth (itemsToItems (item :: items)) < budget) :
    2 * item.toItem.depth < budget ∧ 2 * Item.itemsDepth (itemsToItems items) < budget := by
  rw [itemsToItems, Item.itemsDepth] at h
  omega

end Datum

namespace Cbor

theorem argumentLow_lt_32 (n : UInt64) : (argumentLow n).toNat < 32 :=
  Nat.lt_trans (argumentLow_lt n) (by decide)

/-- The input starts with a head of the kind, which holds `n`, and `rest` stands behind it. A head
may be longer than it need be. -/
def IsHeaded (kind : Kind) (n : UInt64) (input rest : List UInt8) : Prop :=
  ∃ low more, input = (kind.mask ||| low) :: more ∧ argument? low more = some (n, rest)

theorem IsHeaded.ne_nil {kind : Kind} {n : UInt64} {input rest : List UInt8}
    (h : IsHeaded kind n input rest) : input ≠ [] := by
  obtain ⟨low, more, rfl, -⟩ := h
  exact List.cons_ne_nil _ _

theorem isHeaded_head (kind : Kind) (n : UInt64) (rest : List UInt8) :
    IsHeaded kind n (head kind n ++ rest) rest := by
  rw [head_eq, List.cons_append]
  exact ⟨argumentLow n, argumentBytes n ++ rest, rfl, argument?_argumentLow n rest⟩

namespace Dag

/-- The reader gets the value from what was written, whatever stands behind it. A list takes a step
of the budget, and its items another one. -/
def Reads (r : Reader α) (d : Datum) (a : α) : Prop :=
  ∀ ⦃out : List UInt8⦄, d.toCbor? = some out →
    ∀ ⦃budget : Nat⦄, 2 * d.toItem.depth < budget →
      ∀ rest, r budget (out ++ rest) = some (a, rest)

theorem bind_of_eq_some {r : Reader α} (k : α → Reader β) {budget : Nat} {input rest : List UInt8}
    {a : α} (h : r budget input = some (a, rest)) : (r >>= k) budget input = k a budget rest := by
  show Reader.bind r k budget input = _
  rw [Reader.bind, h]

theorem Reads.bind {r : Reader α} {k : α → Reader β} {d : Datum} {a : α} {b : β}
    (h : Reads r d a) (hk : ∀ budget rest, k a budget rest = some (b, rest)) :
    Reads (r >>= k) d b := by
  intro out hout budget hbudget rest
  rw [bind_of_eq_some k (h hout hbudget rest)]
  exact hk budget rest

theorem run_eq_some_iff {r : Reader α} {input : List UInt8} {a : α} :
    run r input = some a ↔ r fullBudget input = some (a, []) := by
  unfold run
  split <;> simp_all

theorem run_of_reads {r : Reader α} {d : Datum} {a : α} (h : Reads r d a)
    (hdepth : 2 * d.toItem.depth < fullBudget) {out : List UInt8} (hout : d.toCbor? = some out) :
    run r out = some a := by
  have hread := h hout hdepth []
  rw [List.append_nil] at hread
  exact run_eq_some_iff.mpr hread

/-- An item of two levels is far from what the budget allows. -/
theorem two_mul_lt_fullBudget {depth : Nat} (h : depth ≤ 2) : 2 * depth < fullBudget :=
  Nat.lt_of_le_of_lt (Nat.mul_le_mul_left 2 h) (by decide)

/-- The value can be written, and what is written of it is read. -/
def RoundTrips (r : Reader α) (d : Datum) (a : α) : Prop :=
  ∃ out, d.toCbor? = some out ∧ run r out = some a

theorem roundTrips_of_reads {r : Reader α} {d : Datum} {a : α} (h : Reads r d a) (hfits : d.Fits)
    (hdepth : d.toItem.depth ≤ 2) : RoundTrips r d a := by
  obtain ⟨out, hout⟩ := Option.isSome_iff_exists.mp (d.isSome_toCbor?_iff.mpr hfits)
  exact ⟨out, hout, run_of_reads h (two_mul_lt_fullBudget hdepth) hout⟩

theorem run_map (r : Reader α) (f : α → β) (input : List UInt8) :
    run (do return f (← r)) input = (run r input).map f := by
  show run (Reader.bind r fun a => Reader.pure (f a)) input = _
  rw [run, run, Reader.bind]
  cases r fullBudget input with
  | none => rfl
  | some read =>
      obtain ⟨a, rest⟩ := read
      cases rest <;> rfl

/-! ## Leaves -/

section Heads

variable {kind : Kind} {n : UInt64} {input rest : List UInt8}

theorem argument_of_isHeaded (h : IsHeaded kind n input rest) (budget : Nat) :
    argument kind budget input = some (n, rest) := by
  obtain ⟨low, more, rfl, hargument⟩ := h
  have hlow := Nat.lt_trans (lt_of_argument?_eq_some hargument) (by decide : 28 < 32)
  show argument? ((kind.mask ||| low) &&& ~~~kind.mask) more = _
  rw [kind.clear_mask_or hlow, hargument]

theorem integer_of_unsigned (h : IsHeaded .unsigned n input rest) (budget : Nat) :
    integer budget input = some ((n.toNat : Int), rest) := by
  obtain ⟨low, more, rfl, hargument⟩ := h
  have hlow := Nat.lt_trans (lt_of_argument?_eq_some hargument) (by decide : 28 < 32)
  simp only [integer, Kind.unsigned.low_mask_or hlow, hargument, Kind.unsigned.shift_mask_or hlow,
    if_true]

theorem integer_of_negative (h : IsHeaded .negative n input rest) (budget : Nat) :
    integer budget input = some (-1 - (n.toNat : Int), rest) := by
  have hne : Kind.negative.code ≠ Kind.unsigned.code := by decide
  obtain ⟨low, more, rfl, hargument⟩ := h
  have hlow := Nat.lt_trans (lt_of_argument?_eq_some hargument) (by decide : 28 < 32)
  simp only [integer, Kind.negative.low_mask_or hlow, hargument, Kind.negative.shift_mask_or hlow,
    if_neg hne, if_true]

end Heads

theorem reads_u64 (n : UInt64) : Reads u64 (.word n) n := by
  rintro out ⟨⟩ budget hbudget rest
  exact argument_of_isHeaded (isHeaded_head .unsigned n rest) budget

/-- A word of 32 bits is written without an argument of eight bytes. -/
theorem argumentLow_toUInt64_lt (n : UInt32) :
    Kind.unsigned.mask ||| argumentLow n.toUInt64 < 27 := by
  have hlt : n.toUInt64 < 0x100000000 := UInt64.lt_iff_toNat_lt.mpr (by simpa using n.toNat_lt)
  have hmask (b : UInt8) : Kind.unsigned.mask ||| b = b := UInt8.zero_or
  rw [hmask, argumentLow]
  split
  next hsmall =>
    have hnat : n.toUInt64.toNat < 24 := UInt64.lt_iff_toNat_lt.mp hsmall
    refine UInt8.lt_iff_toNat_lt.mpr ?_
    rw [UInt64.toNat_toUInt8]
    exact Nat.lt_of_le_of_lt (Nat.mod_le _ _) (Nat.lt_trans hnat (by decide))
  next => split_ifs <;> decide

theorem reads_u32 (n : UInt32) : Reads u32 (.word n.toUInt64) n := by
  rintro out ⟨⟩ budget hbudget rest
  have hnarrow : narrow 27 budget (head .unsigned n.toUInt64 ++ rest) =
      some (n.toUInt64, rest) := by
    rw [head_eq, List.cons_append]
    show (if _ then u64 budget _ else none) = _
    rw [if_pos (argumentLow_toUInt64_lt n), ← List.cons_append, ← head_eq]
    exact argument_of_isHeaded (isHeaded_head .unsigned n.toUInt64 rest) budget
  rw [u32, bind_of_eq_some _ hnarrow, UInt32.toUInt32_toUInt64]
  rfl

theorem reads_integer (n : Int64) : Reads integer (.integer n) n.toInt := by
  rintro out ⟨⟩ budget hbudget rest
  split
  next hsign => rw [integer_of_unsigned (isHeaded_head _ _ _), Datum.toInt_of_nonneg hsign]
  next hsign => rw [integer_of_negative (isHeaded_head _ _ _), Datum.toInt_of_neg hsign]

theorem reads_i64 (n : Int64) : Reads i64 (.integer n) n := by
  refine (reads_integer n).bind fun budget rest => ?_
  have hrange : Int64.minValue.toInt ≤ n.toInt ∧ n.toInt ≤ Int64.maxValue.toInt :=
    ⟨n.minValue_le_toInt, n.toInt_le⟩
  rw [if_pos hrange, Int64.ofInt_toInt]
  rfl

theorem reads_bool (value : Bool) : Reads bool (.bool value) value := by
  intro out hout budget hbudget rest
  cases value <;> cases hout <;> rfl

theorem reads_bytes_of_blob? {d : Datum} {value : List UInt8}
    (h : ∀ out, d.toCbor? = some out → Datum.blob? .bytes value = some out) :
    Reads bytes d value := by
  intro out hout budget hbudget rest
  exact bytes_of_isSized (.inl rfl) (Datum.isSized_of_blob? (h out hout)) budget rest

theorem reads_bytes (value : List UInt8) : Reads bytes (.bytes value) value :=
  reads_bytes_of_blob? fun _ h => h

theorem reads_bytes_address (a : Address) : Reads bytes (.address a) a.toBytes :=
  reads_bytes_of_blob? fun _ h => h

theorem reads_bytes_amount (n : Int) : Reads bytes (.amount n) (SignedMagnitude.bytesOf n) :=
  reads_bytes_of_blob? fun _ h => (Datum.amount_toCbor?_eq_some h).2

theorem Reads.parsed {d : Datum} {value : List UInt8} {parse : List UInt8 → Option α} {a : α}
    (h : Reads bytes d value) (hparse : parse value = some a) : Reads (parsed parse) d a := by
  refine Reads.bind h fun budget rest => ?_
  rw [hparse]
  rfl

theorem reads_address (a : Address) : Reads address (.address a) a :=
  (reads_bytes_address a).parsed a.ofBytes?_toBytes

theorem reads_amount (n : Int) : Reads amount (.amount n) n := by
  intro out hout
  have hlength := (Datum.amount_toCbor?_eq_some hout).1
  exact (reads_bytes_amount n).parsed (SignedMagnitude.decode?_bytesOf hlength) hout

theorem text_blob {value : String} {out : List UInt8}
    (h : Datum.blob? .text (Utf8.encode value) = some out) (budget : Nat) (rest : List UInt8) :
    text budget (out ++ rest) = some (value, rest) := by
  obtain ⟨hsize, rfl⟩ := Datum.blob?_eq_some h
  have hcontent : content .text budget
      (head .text (UInt64.ofNat (Utf8.encode value).length) ++ Utf8.encode value ++ rest) =
        some (Utf8.encode value, rest) := by
    rw [head_eq, List.append_assoc, List.cons_append,
      content_cons_of_ne_openHead (Kind.mask_or_ne_openHead _ _ (argumentLow_lt _)),
      Kind.text.clear_mask_or (argumentLow_lt_32 _), argument?_argumentLow]
    simp only [hsize, Octets.take?_append]
  rw [text, bind_of_eq_some _ hcontent, Utf8.decode?_encode]
  rfl

theorem properBytes_blob {value out : List UInt8} (h : Datum.blob? .bytes value = some out)
    (budget : Nat) (rest : List UInt8) : properBytes budget (out ++ rest) = some (value, rest) := by
  have hread := bytes_of_isSized (.inl rfl) (Datum.isSized_of_blob? h) budget rest
  obtain ⟨low, more, size, rfl, hargument, -⟩ := Datum.isSized_of_blob? h
  have hkind := Kind.bytes.shift_mask_or
    (Nat.lt_trans (lt_of_argument?_eq_some hargument) (by decide))
  rw [List.cons_append] at hread ⊢
  simp only [properBytes, hkind, if_true, hread]

theorem link_toCbor? {cid : Cid} {out : List UInt8} (h : (Datum.link cid).toCbor? = some out)
    (budget : Nat) (rest : List UInt8) : link budget (out ++ rest) = some (cid, rest) := by
  obtain ⟨blob, hblob, rfl⟩ := Datum.linkToCbor?_eq_some h
  have hbytes : linkBytes budget (head .tag 42 ++ blob ++ rest) = some (cid.toBytes, rest) := by
    have htag := argument_of_isHeaded (isHeaded_head .tag 42 (blob ++ rest)) budget
    have hlink : (42 : UInt64) = linkTag := rfl
    rw [List.append_assoc, linkBytes, bind_of_eq_some _ htag, if_pos hlink,
      bind_of_eq_some _ (properBytes_blob hblob budget rest)]
    cases cid <;> rfl
  rw [link, bind_of_eq_some _ hbytes, identifier, cid.ofBytes?_toBytes]
  rfl

/-! ## Lists -/

/-- The reader gets the values from what was written of the items one behind the other. -/
def ReadsAll (r : Reader α) (items : List Datum) (a : α) : Prop :=
  ∀ ⦃out : List UInt8⦄, Datum.itemsToCbor? items = some out →
    ∀ ⦃budget : Nat⦄, 2 * Item.itemsDepth (Datum.itemsToItems items) < budget →
      ∀ rest, r budget (out ++ rest) = some (a, rest)

theorem readsAll_nil (a : α) : ReadsAll (pure a) [] a := by
  rintro out ⟨⟩ budget hbudget rest
  rfl

/-- The first item is read, and then the others. -/
theorem ReadsAll.cons {r : Reader α} {k : α → Reader β} {item : Datum} {items : List Datum} {a : α}
    {b : β} (h : Reads r item a) (hk : ReadsAll (k a) items b) :
    ReadsAll (r >>= k) (item :: items) b := by
  intro out hout budget hbudget rest
  obtain ⟨front, back, hfront, hback, rfl⟩ := Datum.itemsToCbor?_cons_eq_some hout
  obtain ⟨hitem, hitems⟩ := Datum.depth_lt_of_cons hbudget
  rw [List.append_assoc, bind_of_eq_some k (h hfront hitem (back ++ rest))]
  exact hk hback hitems rest

theorem ReadsAll.bind {r : Reader α} {k : α → Reader β} {items : List Datum} {a : α} {b : β}
    (h : ReadsAll r items a) (hk : ∀ budget rest, k a budget rest = some (b, rest)) :
    ReadsAll (r >>= k) items b := by
  intro out hout budget hbudget rest
  rw [bind_of_eq_some k (h hout hbudget rest)]
  exact hk budget rest

theorem sequence_itemsToCbor? {r : Reader α} {items : List Datum} {values : List α}
    (h : List.Forall₂ (Reads r) items values) :
    ReadsAll (fun budget => sequence (r budget) items.length) items values := by
  induction h with
  | nil =>
      rintro out ⟨⟩ budget hbudget rest
      rfl
  | cons hitem _ ih =>
      intro out hout budget hbudget rest
      obtain ⟨front, back, hfront, hback, rfl⟩ := Datum.itemsToCbor?_cons_eq_some hout
      obtain ⟨hdepth, hdepths⟩ := Datum.depth_lt_of_cons hbudget
      have hfirst := hitem hfront hdepth (back ++ rest)
      have hmore := ih hback hdepths rest
      simp only [List.length_cons, sequence, List.append_assoc, hfirst, hmore]

/-- What a list writes behind its head. -/
theorem exists_body_of_list {items : List Datum} {out : List UInt8}
    (h : (Datum.list items).toCbor? = some out) :
    ∃ body, Datum.itemsToCbor? items = some body ∧
      (UInt64.ofNat items.length).toNat = items.length ∧
      out = head .list (UInt64.ofNat items.length) ++ body :=
  Datum.sized?_eq_some ((Datum.list_toCbor? items).symm.trans h)

theorem list_succ (r : Reader α) (budget : Nat) (input : List UInt8) :
    list r (budget + 1) input =
      match argument .list budget input with
      | some (count, rest) => sequence (r budget) count.toNat rest
      | none => none := rfl

theorem reads_list {r : Reader α} {items : List Datum} {values : List α}
    (h : List.Forall₂ (Reads r) items values) : Reads (list r) (.list items) values := by
  intro out hout budget hbudget rest
  obtain ⟨body, hbody, hsize, rfl⟩ := exists_body_of_list hout
  obtain ⟨inner, rfl, hdepth⟩ := Datum.exists_budget_of_list hbudget
  have hread := sequence_itemsToCbor? h hbody (Nat.lt_succ_of_lt hdepth) rest
  rw [List.append_assoc, list_succ, argument_of_isHeaded (isHeaded_head _ _ _)]
  simp only [hsize]
  exact hread

end Dag
end Cbor
end TraceLedger
