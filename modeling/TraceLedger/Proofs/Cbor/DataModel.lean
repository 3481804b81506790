import TraceLedger.Proofs.Cbor.Kinds

/-! # Written values in the data model

A reader that takes every kind tells the kinds apart by their heads. Of what was written it gives
the value of the data model that was written, whatever stands behind it, and nothing else. -/

namespace TraceLedger

open Cbor

namespace Datum

mutual

/-- The value of the data model that a written value stands for. A record stands for none if two
of its fields have one name. -/
def toIpld? : Datum → Option Ipld
  | null => some .null
  | bool value => some (.bool value)
  | word value => some (.int value.toNat)
  | integer value => some (.int value.toInt)
  | text value => some (.text value)
  | bytes value => some (.bytes value)
  | address value => some (.bytes value.toBytes)
  | amount value => some (.bytes (SignedMagnitude.bytesOf value))
  | link value => some (.link value)
  | list items => (itemsToIpld? items).map .list
  | record fields => ((fieldsToIpld? fields).bind Dag.sortEntries).map .map

def itemsToIpld? : List Datum → Option (List Ipld)
  | [] => some []
  | item :: rest => (toIpld? item).bind fun v => (itemsToIpld? rest).map (v :: ·)

def fieldsToIpld? : List (String × Datum) → Option (List (String × Ipld))
  | [] => some []
  | (name, item) :: rest => (toIpld? item).bind fun v => (fieldsToIpld? rest).map ((name, v) :: ·)

end

theorem itemsToIpld?_map {write : α → Datum} {value : α → Ipld}
    (h : ∀ a, (write a).toIpld? = some (value a)) (as : List α) :
    itemsToIpld? (as.map write) = some (as.map value) := by
  induction as with
  | nil => rfl
  | cons a as ih => simp [itemsToIpld?, h, ih]

theorem itemsDepth_le {items : List Datum} {depth : Nat}
    (h : ∀ item ∈ items, item.toItem.depth ≤ depth) :
    Item.itemsDepth (itemsToItems items) ≤ depth := by
  induction items with
  | nil => exact Nat.zero_le depth
  | cons item items ih =>
      have hitem := h item List.mem_cons_self
      have hitems := ih fun d hd => h d (List.mem_cons_of_mem item hd)
      rw [itemsToItems, Item.itemsDepth]
      exact Nat.max_le.mpr ⟨hitem, hitems⟩

theorem itemsDepth_map {write : α → Datum} (h : ∀ a, (write a).toItem.depth = 0)
    (as : List α) : Item.itemsDepth (itemsToItems (as.map write)) = 0 := by
  refine Nat.le_zero.mp (itemsDepth_le fun item hitem => ?_)
  obtain ⟨a, -, rfl⟩ := List.mem_map.mp hitem
  exact Nat.le_of_eq (h a)

end Datum

namespace Cbor.Dag

/-! ## Items of every kind -/

/-- Reads what stands behind a head of the given kind and argument. -/
def ipldBody (budget : Nat) (n : UInt64) (input rest : List UInt8) :
    Kind → Option (Ipld × List UInt8)
  | .unsigned => some (.int n.toNat, rest)
  | .negative => some (.int (-1 - (n.toNat : Int)), rest)
  | .bytes => (bytes budget input).map fun (value, rest) => (.bytes value, rest)
  | .text => (text budget input).map fun (value, rest) => (.text value, rest)
  | .list =>
    match budget with
    | 0 => none
    | budget + 1 =>
      (sequence (ipld budget) n.toNat rest).map fun (items, rest) => (.list items, rest)
  | .map =>
    match budget with
    | 0 => none
    | budget + 1 =>
      match sequence (entry budget) n.toNat rest with
      | none => none
      | some (entries, rest) => (sortEntries entries).map fun entries => (.map entries, rest)
  | .tag => (link budget input).map fun (cid, rest) => (.link cid, rest)
where
  /-- A name, and a value of any kind. -/
  entry (budget : Nat) (input : List UInt8) : Option ((String × Ipld) × List UInt8) :=
    match text budget input with
    | none => none
    | some (name, rest) => (ipld budget rest).map fun (value, rest) => ((name, value), rest)

theorem ipld_of_isHeaded {kind : Kind} {n : UInt64} {input rest : List UInt8}
    (h : IsHeaded kind n input rest) (budget : Nat) :
    ipld (budget + 1) input = ipldBody budget n input rest kind := by
  have hargument := argument_of_isHeaded h
  have hinteger : (kind = .unsigned → integer budget input = some ((n.toNat : Int), rest)) ∧
      (kind = .negative → integer budget input = some (-1 - (n.toNat : Int), rest)) :=
    ⟨fun hkind => integer_of_unsigned (hkind ▸ h) budget,
      fun hkind => integer_of_negative (hkind ▸ h) budget⟩
  obtain ⟨low, more, rfl, hlow⟩ := h
  have hsmall := lt_of_argument?_eq_some hlow
  -- An open head is told by the whole byte, every other head by its kind alone.
  rw [ipld.eq_def]
  simp only [kind.mask_or_ne_openHead _ hsmall, or_self, if_false,
    kind.shift_mask_or (Nat.lt_trans hsmall (by decide))]
  cases kind with
  | unsigned => simp [Kind.code, hinteger.1 rfl, ipldBody]
  | negative => simp [Kind.code, hinteger.2 rfl, ipldBody]
  | bytes => simp [Kind.code, ipldBody]
  | text => simp [Kind.code, ipldBody]
  | list => cases budget <;> simp [Kind.code, hargument, ipldBody]
  | map =>
      cases budget with
      | zero => rfl
      | succ budget =>
          simp only [hargument]
          rfl
  | tag => simp [Kind.code, ipldBody]

theorem ipld_head (kind : Kind) (budget : Nat) (n : UInt64) (rest : List UInt8) :
    ipld (budget + 1) (head kind n ++ rest) =
      ipldBody budget n (head kind n ++ rest) rest kind :=
  ipld_of_isHeaded (isHeaded_head kind n rest) budget

/-- A byte string in one piece is a value. -/
theorem ipld_of_isSized {content input : List UInt8} (h : IsSized .bytes content input)
    (budget : Nat) (rest : List UInt8) :
    ipld (budget + 1) (input ++ rest) = some (.bytes content, rest) := by
  have hread : bytes budget (input ++ rest) = some (content, rest) :=
    bytes_of_isSized (.inl rfl) h budget rest
  obtain ⟨low, more, size, rfl, hargument, -⟩ := h
  have hhead : IsHeaded .bytes size ((Kind.bytes.mask ||| low) :: more ++ rest) (content ++ rest) :=
    ⟨low, more ++ rest, rfl, argument?_append_of_eq_some hargument rest⟩
  rw [ipld_of_isHeaded hhead, ipldBody, hread]
  rfl

theorem ipld?_of_isSized {content input : List UInt8} (h : IsSized .bytes content input) :
    ipld? input = some (.bytes content) := by
  have hread := ipld_of_isSized h 255 []
  rw [List.append_nil] at hread
  exact run_eq_some_iff.mpr hread

theorem ipld_blob_bytes {value out : List UInt8} (h : Datum.blob? .bytes value = some out)
    (budget : Nat) (rest : List UInt8) :
    ipld (budget + 1) (out ++ rest) = some (.bytes value, rest) :=
  ipld_of_isSized (Datum.isSized_of_blob? h) budget rest

theorem ipld_blob_text {value : String} {out : List UInt8}
    (h : Datum.blob? .text (Utf8.encode value) = some out) (budget : Nat) (rest : List UInt8) :
    ipld (budget + 1) (out ++ rest) = some (.text value, rest) := by
  have hread := text_blob h budget rest
  obtain ⟨-, rfl⟩ := Datum.blob?_eq_some h
  rw [List.append_assoc] at hread ⊢
  rw [ipld_head, ipldBody, hread]
  rfl

theorem ipld_link {cid : Cid} {out : List UInt8} (h : (Datum.link cid).toCbor? = some out)
    (budget : Nat) (rest : List UInt8) :
    ipld (budget + 1) (out ++ rest) = some (.link cid, rest) := by
  have hread := link_toCbor? h budget rest
  obtain ⟨blob, -, rfl⟩ := Datum.linkToCbor?_eq_some h
  rw [List.append_assoc] at hread ⊢
  rw [ipld_head, ipldBody, hread]
  rfl

theorem ipld_bool {value : Bool} {out : List UInt8} (h : (Datum.bool value).toCbor? = some out)
    (budget : Nat) (rest : List UInt8) :
    ipld (budget + 1) (out ++ rest) = some (.bool value, rest) := by
  cases value <;> cases h <;> rw [ipld.eq_def] <;> rfl

theorem ipld_integer {value : Int64} {out : List UInt8}
    (h : (Datum.integer value).toCbor? = some out) (budget : Nat) (rest : List UInt8) :
    ipld (budget + 1) (out ++ rest) = some (.int value.toInt, rest) := by
  cases h
  split
  next hsign => rw [ipld_head, ipldBody, Datum.toInt_of_nonneg hsign]
  next hsign => rw [ipld_head, ipldBody, Datum.toInt_of_neg hsign]

/-- An item that holds no others takes one step of the budget. -/
theorem ipld_leaf {d : Datum} {out : List UInt8} (hout : d.toCbor? = some out)
    (hlist : ∀ items, d ≠ .list items) (hrecord : ∀ fields, d ≠ .record fields) :
    ∃ v, d.toIpld? = some v ∧
      ∀ budget rest, ipld (budget + 1) (out ++ rest) = some (v, rest) := by
  cases d with
  | null =>
      refine ⟨_, rfl, fun budget rest => ?_⟩
      cases hout
      rw [ipld.eq_def]
      rfl
  | bool value => exact ⟨_, rfl, ipld_bool hout⟩
  | word value =>
      refine ⟨_, rfl, fun budget rest => ?_⟩
      cases hout
      rw [ipld_head]
      rfl
  | integer value => exact ⟨_, rfl, ipld_integer hout⟩
  | text value => exact ⟨_, rfl, ipld_blob_text hout⟩
  | bytes value => exact ⟨_, rfl, ipld_blob_bytes hout⟩
  | address value => exact ⟨_, rfl, ipld_blob_bytes hout⟩
  | amount value => exact ⟨_, rfl, ipld_blob_bytes (Datum.amount_toCbor?_eq_some hout).2⟩
  | link value => exact ⟨_, rfl, ipld_link hout⟩
  | list items => exact absurd rfl (hlist items)
  | record fields => exact absurd rfl (hrecord fields)

theorem ipld_list {items : List Datum} {values : List Ipld}
    (h : List.Forall₂ (Reads ipld) items values) : Reads ipld (.list items) (.list values) := by
  intro out hout budget hbudget rest
  obtain ⟨body, hbody, hsize, rfl⟩ := exists_body_of_list hout
  obtain ⟨inner, rfl, hdepth⟩ := Datum.exists_budget_of_list hbudget
  have hread : sequence (ipld inner) items.length (body ++ rest) = some (values, rest) :=
    sequence_itemsToCbor? h hbody hdepth rest
  rw [List.append_assoc, ipld_head, ipldBody, hsize, hread]
  rfl

/-- A field is read back as an entry: its name, and what stands for its value. -/
def ReadsField (field : String × Datum) (entry : String × Ipld) : Prop :=
  field.1 = entry.1 ∧ Reads ipld field.2 entry.2

theorem sequence_fieldsToCbor? {fields : List (String × Datum)} {entries : List (String × Ipld)}
    (h : List.Forall₂ ReadsField fields entries) {out : List UInt8}
    (hout : Datum.fieldsToCbor? fields = some out) {budget : Nat}
    (hbudget : 2 * Item.entriesDepth (Datum.fieldsToEntries fields) < budget)
    (rest : List UInt8) :
    sequence (ipldBody.entry budget) fields.length (out ++ rest) = some (entries, rest) := by
  induction h generalizing out with
  | nil =>
      cases hout
      rfl
  | @cons field entry fields entries hentry _ ih =>
      obtain ⟨name, item⟩ := field
      obtain ⟨other, value⟩ := entry
      obtain ⟨rfl, hitem⟩ : name = other ∧ Reads ipld item value := hentry
      obtain ⟨label, front, back, hlabel, hfront, hback, rfl⟩ :=
        Datum.fieldsToCbor?_cons_eq_some hout
      have hdepth : 2 * item.toItem.depth < budget ∧
          2 * Item.entriesDepth (Datum.fieldsToEntries fields) < budget := by
        rw [Datum.fieldsToEntries, Item.entriesDepth] at hbudget
        omega
      have hname := text_blob hlabel budget (front ++ (back ++ rest))
      have hvalue := hitem hfront hdepth.1 (back ++ rest)
      have hmore := ih hback hdepth.2
      simp [sequence, ipldBody.entry, List.append_assoc, hname, hvalue, hmore]

theorem ipld_map {fields : List (String × Datum)} {entries sorted : List (String × Ipld)}
    (h : List.Forall₂ ReadsField fields entries) (hsorted : sortEntries entries = some sorted) :
    Reads ipld (.record fields) (.map sorted) := by
  intro out hout budget hbudget rest
  obtain ⟨body, hbody, hsize, rfl⟩ :=
    Datum.sized?_eq_some ((Datum.record_toCbor? fields).symm.trans hout)
  rw [Datum.toItem, Item.depth] at hbudget
  obtain ⟨budget, rfl⟩ : ∃ n, budget = n + 2 := ⟨budget - 2, by omega⟩
  have hread := sequence_fieldsToCbor? h hbody (by omega : _ < budget) rest
  rw [List.append_assoc, ipld_head, ipldBody, hsize, hread]
  simp only [hsorted, Option.map_some]

mutual

/-- What was written is read back as the value that it stands for. -/
theorem reads_ipld {d : Datum} {v : Ipld} (hv : d.toIpld? = some v) : Reads ipld d v := by
  cases d with
  | list items =>
      obtain ⟨values, hvalues, rfl⟩ := Option.map_eq_some_iff.mp hv
      exact ipld_list (reads_items hvalues)
  | record fields =>
      obtain ⟨sorted, hsorted, rfl⟩ := Option.map_eq_some_iff.mp hv
      obtain ⟨entries, hentries, hsorted⟩ := Option.bind_eq_some_iff.mp hsorted
      exact ipld_map (reads_fields hentries) hsorted
  | _ =>
      intro out hout budget hbudget rest
      obtain ⟨budget, rfl⟩ := Nat.exists_eq_add_one.mpr (Nat.zero_lt_of_lt hbudget)
      obtain ⟨w, hw, hleaf⟩ := ipld_leaf hout (by nofun) (by nofun)
      obtain rfl := Option.some.inj (hw.symm.trans hv)
      exact hleaf budget rest

theorem reads_items {items : List Datum} {values : List Ipld}
    (h : Datum.itemsToIpld? items = some values) : List.Forall₂ (Reads ipld) items values := by
  cases items with
  | nil =>
      cases h
      exact .nil
  | cons item rest =>
      obtain ⟨v, hv, hrest⟩ := Option.bind_eq_some_iff.mp h
      obtain ⟨more, hmore, rfl⟩ := Option.map_eq_some_iff.mp hrest
      exact .cons (reads_ipld hv) (reads_items hmore)

theorem reads_fields {fields : List (String × Datum)} {entries : List (String × Ipld)}
    (h : Datum.fieldsToIpld? fields = some entries) :
    List.Forall₂ ReadsField fields entries := by
  cases fields with
  | nil =>
      cases h
      exact .nil
  | cons field rest =>
      obtain ⟨name, item⟩ := field
      obtain ⟨v, hv, hrest⟩ := Option.bind_eq_some_iff.mp h
      obtain ⟨more, hmore, rfl⟩ := Option.map_eq_some_iff.mp hrest
      exact .cons ⟨rfl, reads_ipld hv⟩ (reads_fields hmore)

end

/-! ## Nothing else is read -/

theorem of_sequence_succ {read : List UInt8 → Option (α × List UInt8)} {count : Nat}
    {input rest : List UInt8} {values : List α}
    (h : sequence read (count + 1) input = some (values, rest)) :
    ∃ a middle more, read input = some (a, middle) ∧
      sequence read count middle = some (more, rest) ∧ values = a :: more := by
  rw [sequence] at h
  split at h
  next => cases h
  next a middle hread =>
    split at h
    next => cases h
    next more rest' hmore =>
      cases h
      exact ⟨a, middle, more, hread, hmore, rfl⟩

theorem ipld_list_eq_some {n : UInt64} {budget : Nat} {input rest more : List UInt8} {v : Ipld}
    (hhead : IsHeaded .list n input rest) (h : ipld budget input = some (v, more)) :
    ∃ budget items, sequence (ipld budget) n.toNat rest = some (items, more) ∧ v = .list items := by
  obtain _ | _ | budget := budget
  · cases h
  · rw [ipld_of_isHeaded hhead] at h
    cases h
  · rw [ipld_of_isHeaded hhead, ipldBody] at h
    obtain ⟨⟨items, more⟩, hread, h⟩ := Option.map_eq_some_iff.mp h
    cases h
    exact ⟨budget, items, hread, rfl⟩

theorem ipld_map_eq_some {n : UInt64} {budget : Nat} {input rest more : List UInt8} {v : Ipld}
    (hhead : IsHeaded .map n input rest) (h : ipld budget input = some (v, more)) :
    ∃ budget entries sorted, sequence (ipldBody.entry budget) n.toNat rest = some (entries, more) ∧
      sortEntries entries = some sorted ∧ v = .map sorted := by
  obtain _ | _ | budget := budget
  · cases h
  · rw [ipld_of_isHeaded hhead] at h
    cases h
  · rw [ipld_of_isHeaded hhead, ipldBody] at h
    cases hread : sequence (ipldBody.entry budget) n.toNat rest with
    | none => simp [hread] at h
    | some read =>
        obtain ⟨entries, rest⟩ := read
        simp only [hread] at h
        obtain ⟨sorted, hsorted, h⟩ := Option.map_eq_some_iff.mp h
        cases h
        exact ⟨budget, entries, sorted, hread, hsorted, rfl⟩

theorem length_of_sequence {read : List UInt8 → Option (α × List UInt8)} {count : Nat}
    {input rest : List UInt8} {values : List α}
    (h : sequence read count input = some (values, rest)) : values.length = count := by
  induction count generalizing input values with
  | zero =>
      cases h
      rfl
  | succ count ih =>
      obtain ⟨a, middle, more, -, hmore, rfl⟩ := of_sequence_succ h
      rw [List.length_cons, ih hmore]

/-- A list has as many items as its head says. -/
theorem ipld?_of_list {n : UInt64} {input rest : List UInt8} {v : Ipld}
    (hhead : IsHeaded .list n input rest) (h : ipld? input = some v) :
    ∃ items, v = .list items ∧ items.length = n.toNat := by
  obtain ⟨budget, items, hread, rfl⟩ := ipld_list_eq_some hhead (run_eq_some_iff.mp h)
  exact ⟨items, rfl, length_of_sequence hread⟩

mutual

/-- What is read of a written value is the value that it stands for. -/
theorem toIpld?_of_ipld {d : Datum} {out : List UInt8} (hout : d.toCbor? = some out)
    {budget : Nat} {rest more : List UInt8} {v : Ipld}
    (h : ipld budget (out ++ rest) = some (v, more)) : d.toIpld? = some v ∧ more = rest := by
  cases d with
  | list items =>
      obtain ⟨body, hbody, hsize, rfl⟩ := exists_body_of_list hout
      rw [List.append_assoc] at h
      obtain ⟨budget, values, hread, rfl⟩ := ipld_list_eq_some (isHeaded_head _ _ _) h
      rw [hsize] at hread
      obtain ⟨hvalues, rfl⟩ := itemsToIpld?_of_sequence hbody hread
      simp [Datum.toIpld?, hvalues]
  | record fields =>
      obtain ⟨body, hbody, hsize, rfl⟩ :=
        Datum.sized?_eq_some ((Datum.record_toCbor? fields).symm.trans hout)
      rw [List.append_assoc] at h
      obtain ⟨budget, entries, sorted, hread, hsorted, rfl⟩ :=
        ipld_map_eq_some (isHeaded_head _ _ _) h
      rw [hsize] at hread
      obtain ⟨hentries, rfl⟩ := fieldsToIpld?_of_sequence hbody hread
      simp [Datum.toIpld?, hentries, hsorted]
  | _ =>
      obtain _ | budget := budget
      · cases h
      obtain ⟨w, hw, hleaf⟩ := ipld_leaf hout (by nofun) (by nofun)
      cases (hleaf budget rest).symm.trans h
      exact ⟨hw, rfl⟩

theorem itemsToIpld?_of_sequence {items : List Datum} {out : List UInt8}
    (hout : Datum.itemsToCbor? items = some out) {budget : Nat} {rest more : List UInt8}
    {values : List Ipld}
    (h : sequence (ipld budget) items.length (out ++ rest) = some (values, more)) :
    Datum.itemsToIpld? items = some values ∧ more = rest := by
  cases items with
  | nil =>
      cases hout
      cases h
      exact ⟨rfl, rfl⟩
  | cons item items =>
      obtain ⟨front, back, hfront, hback, rfl⟩ := Datum.itemsToCbor?_cons_eq_some hout
      rw [List.append_assoc] at h
      obtain ⟨v, middle, others, hitem, hothers, rfl⟩ := of_sequence_succ h
      obtain ⟨hv, rfl⟩ := toIpld?_of_ipld hfront hitem
      obtain ⟨hmore, rfl⟩ := itemsToIpld?_of_sequence hback hothers
      simp [Datum.itemsToIpld?, hv, hmore]

theorem fieldsToIpld?_of_sequence {fields : List (String × Datum)} {out : List UInt8}
    (hout : Datum.fieldsToCbor? fields = some out) {budget : Nat} {rest more : List UInt8}
    {entries : List (String × Ipld)}
    (h : sequence (ipldBody.entry budget) fields.length (out ++ rest) = some (entries, more)) :
    Datum.fieldsToIpld? fields = some entries ∧ more = rest := by
  cases fields with
  | nil =>
      cases hout
      cases h
      exact ⟨rfl, rfl⟩
  | cons field fields =>
      obtain ⟨name, item⟩ := field
      obtain ⟨label, front, back, hlabel, hfront, hback, rfl⟩ :=
        Datum.fieldsToCbor?_cons_eq_some hout
      rw [List.append_assoc, List.append_assoc] at h
      obtain ⟨entry, middle, others, hentry, hothers, rfl⟩ := of_sequence_succ h
      rw [ipldBody.entry, text_blob hlabel] at hentry
      obtain ⟨⟨v, rest'⟩, hitem, hentry⟩ := Option.map_eq_some_iff.mp hentry
      cases hentry
      obtain ⟨hv, rfl⟩ := toIpld?_of_ipld hfront hitem
      obtain ⟨hmore, rfl⟩ := fieldsToIpld?_of_sequence hback hothers
      simp [Datum.fieldsToIpld?, hv, hmore]

end

/-- A written value is read as the value that it stands for, and as no other. -/
theorem ipld?_eq_some_of_toCbor? {d : Datum} {out : List UInt8} (hout : d.toCbor? = some out)
    {v : Ipld} (h : ipld? out = some v) : d.toIpld? = some v := by
  have hread := run_eq_some_iff.mp h
  rw [← List.append_nil out] at hread
  exact (toIpld?_of_ipld hout hread).1

theorem ipld?_of_toCbor? {d : Datum} {out : List UInt8} (hout : d.toCbor? = some out) {v : Ipld}
    (hv : d.toIpld? = some v) (hdepth : 2 * d.toItem.depth < fullBudget) : ipld? out = some v :=
  run_of_reads (reads_ipld hv) hdepth hout

end Cbor.Dag
end TraceLedger
