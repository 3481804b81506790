import TraceLedger.Cbor.Lenient
import TraceLedger.Proofs.Cbor.Items
import TraceLedger.Proofs.Wire.Identifiers

/-! # Records read back from their items

A reader undoes a writer if it gets every value back from what the writer makes of it, as long
as that can be written and the budget exceeds its nesting. The readers of the parts of a record
make up the reader of the record. -/

namespace TraceLedger

/-- The names of the fields, in order. -/
def Fields.names {m : Type → Type} : Fields m τs → List String
  | .nil => []
  | .cons name _ _ rest => name :: rest.names

namespace Cbor.Lenient

open Reader

/-- The reader gets the value back from what was written. -/
def Reads (r : Reader α) (d : Datum) (a : α) : Prop :=
  ∀ ⦃out : List UInt8⦄, d.toCbor? = some out →
    ∀ ⦃budget : Nat⦄, d.toItem.depth < budget → r budget d.toItem = some a

/-- The reader gets every value back, and none of them is written as null. -/
structure Undoes (r : Reader α) (write : α → Datum) : Prop where
  reads (a : α) : Reads r (write a) a
  ne_null (a : α) : write a ≠ .null

theorem bind_apply (r : Reader α) (k : α → Reader β) (budget : Nat) (item : Item) :
    (r >>= k) budget item = (r budget item).bind fun a => k a budget item := by
  simp only [Bind.bind]
  cases r budget item <;> rfl

theorem pure_apply (a : α) (budget : Nat) (item : Item) :
    (pure a : Reader α) budget item = some a := rfl

theorem Reads.bind {r : Reader α} {k : α → Reader β} {d : Datum} {a : α} {b : β}
    (h : Reads r d a) (hk : ∀ budget item, k a budget item = some b) : Reads (r >>= k) d b := by
  intro out hout budget hbudget
  rw [bind_apply, h hout hbudget, Option.bind_some]
  exact hk budget d.toItem

/-! ## Leaves -/

theorem reads_int {low high n : Int} (d : Datum) (hitem : d.toItem = .int n) (hlow : low ≤ n)
    (hhigh : n ≤ high) : Reads (int low high) d n := by
  intro out _ budget _
  simp [int, hitem, Item.int?, hlow, hhigh]

theorem reads_nat {high n : Nat} (d : Datum) (hitem : d.toItem = .int n) (hhigh : n ≤ high) :
    Reads (nat high) d n :=
  (reads_int d hitem (Int.natCast_nonneg n) (Int.ofNat_le.mpr hhigh)).bind fun _ _ => rfl

theorem undoes_u64 : Undoes (Source.u64 : Reader UInt64) .word where
  reads n := by
    have hread : Reads (nat (UInt64.size - 1)) (.word n) n.toNat :=
      reads_nat (.word n) rfl (Nat.le_pred_of_lt n.toNat_lt)
    apply hread.bind
    intro _ _
    rw [UInt64.ofNat_toNat]
    rfl
  ne_null _ := nofun

theorem undoes_u32 : Undoes (Source.u32 : Reader UInt32) (.word ·.toUInt64) where
  reads n := by
    have hread : Reads (nat (UInt32.size - 1)) (.word n.toUInt64) n.toNat :=
      reads_nat (.word n.toUInt64) rfl (Nat.le_pred_of_lt n.toNat_lt)
    apply hread.bind
    intro _ _
    rw [UInt32.ofNat_toNat]
    rfl
  ne_null _ := nofun

theorem undoes_i64 : Undoes (Source.i64 : Reader Int64) .integer where
  reads n := by
    have hread : Reads (int Int64.minValue.toInt Int64.maxValue.toInt) (.integer n) n.toInt :=
      reads_int (.integer n) rfl n.minValue_le_toInt n.toInt_le
    apply hread.bind
    intro _ _
    rw [Int64.ofInt_toInt]
    rfl
  ne_null _ := nofun

theorem undoes_bool : Undoes (Source.bool : Reader Bool) .bool where
  reads _ _ _ _ _ := rfl
  ne_null _ := nofun

theorem undoes_text : Undoes (Source.text : Reader String) .text where
  reads _ _ _ _ _ := rfl
  ne_null _ := nofun

theorem undoes_bytes : Undoes (Source.bytes : Reader (List UInt8)) .bytes where
  reads _ _ _ _ _ := rfl
  ne_null _ := nofun

theorem reads_parsed (parse : List UInt8 → Option α) {d : Datum} {value : List UInt8} {a : α}
    (hitem : d.toItem.untagged = .bytes true value) (hlength : value.length ≤ maxWhole)
    (hparse : parse value = some a) : Reads (parsed parse) d a := by
  have hbytes : Reads wholeBytes d value := by
    intro out _ budget _
    simp [wholeBytes, hitem, hlength]
  apply hbytes.bind
  intro budget item
  rw [hparse]
  rfl

theorem undoes_address : Undoes (Source.address : Reader Address) .address where
  reads a := reads_parsed _ rfl (Nat.le_trans a.length_toBytes_le (by decide)) a.ofBytes?_toBytes
  ne_null _ := nofun

/-- An amount that is written is within the limit of the reader. -/
theorem undoes_amount : Undoes (Source.amount : Reader Int) .amount where
  reads n := by
    intro out hout budget hbudget
    obtain ⟨bytes, hbytes, -⟩ := Option.bind_eq_some_iff.mp hout
    obtain ⟨-, hlength⟩ := SignedMagnitude.encode?_eq_some hbytes
    have hparsed : Reads (parsed SignedMagnitude.decode?) (.amount n) n :=
      reads_parsed _ rfl (Nat.le_trans hlength (by decide))
        (SignedMagnitude.decode?_bytesOf hlength)
    exact hparsed hout hbudget
  ne_null _ := nofun

theorem undoes_link : Undoes (Source.link : Reader Cid) .link where
  reads cid := by
    have hlength : (0 :: cid.toBytes).length ≤ maxWhole :=
      Nat.le_trans (Nat.succ_le_succ cid.length_toBytes_le) (by decide)
    exact reads_parsed identifier? rfl hlength cid.ofBytes?_toBytes
  ne_null _ := nofun

/-! ## Optional values and lists -/

theorem Reads.optional {r : Reader α} {d : Datum} {a : α} (h : Reads r d a) (hne : d ≠ .null) :
    Reads (Source.optional r) d (some a) := by
  intro out hout budget hbudget
  have hread : r budget d.toItem = some a := h hout hbudget
  have hitem : d.toItem ≠ .null := by
    cases d <;> simp [Datum.toItem] at hne ⊢
  show Reader.optional r budget d.toItem = _
  unfold Reader.optional
  split
  · next hnull => exact absurd hnull hitem
  · rw [hread]
    rfl

theorem Undoes.optional {r : Reader α} {write : α → Datum} (h : Undoes r write) (o : Option α) :
    Reads (Source.optional r) (.optional write o) o := by
  cases o with
  | none =>
      intro out _ budget _
      rfl
  | some a => exact (h.reads a).optional (h.ne_null a)

theorem Reads.orDefault {r : Reader α} {d : Datum} {a : α} (h : Reads r d a) (hne : d ≠ .null)
    (fallback : α) : Reads (Source.orDefault fallback r) d a :=
  (h.optional hne).bind fun _ _ => rfl

theorem undoes_payload : Undoes (Source.payload : Reader (List UInt8)) .bytes where
  reads a := (undoes_bytes.reads a).orDefault nofun []
  ne_null _ := nofun

theorem mapM_itemsToItems {r : Reader α} {write : α → Datum} {values : List α}
    (h : ∀ a ∈ values, Reads r (write a) a) {out : List UInt8}
    (hout : Datum.itemsToCbor? (values.map write) = some out) {budget : Nat}
    (hbudget : Item.itemsDepth (Datum.itemsToItems (values.map write)) < budget) :
    (Datum.itemsToItems (values.map write)).mapM (r budget) = some values := by
  induction values generalizing out with
  | nil => rfl
  | cons a values ih =>
      obtain ⟨front, back, hfront, hback, -⟩ := Datum.itemsToCbor?_cons_eq_some hout
      simp only [List.map_cons, Datum.itemsToItems, Item.itemsDepth, Nat.max_lt] at hbudget
      have hfirst := h a List.mem_cons_self hfront hbudget.1
      have hrest := ih (fun a ha => h a (List.mem_cons_of_mem _ ha)) hback hbudget.2
      simp [Datum.itemsToItems, hfirst, hrest]

theorem reads_list {r : Reader α} {write : α → Datum} {values : List α}
    (h : ∀ a ∈ values, Reads r (write a) a) :
    Reads (Source.list r) (.list (values.map write)) values := by
  intro out hout budget hbudget
  obtain ⟨body, hbody, -, -⟩ := Datum.sized?_eq_some ((Datum.list_toCbor? _).symm.trans hout)
  cases budget with
  | zero => cases hbudget
  | succ budget =>
      exact mapM_itemsToItems h hbody (Nat.lt_of_succ_lt_succ hbudget)

/-! ## Records -/

/-- The written fields hold a value for each field to be read; one that is left out has its
default. -/
inductive Holds : {τs : List Type} → Fields Reader τs → List (String × Datum) → Values τs → Prop
  | nil : Holds .nil [] ()
  | present {τ : Type} {τs : List Type} {name : String} {read : Reader τ} {absent : Option τ}
      {rest : Fields Reader τs} {d : Datum} {data : List (String × Datum)} {a : τ}
      {values : Values τs} (hread : Reads read d a) (hrest : Holds rest data values) :
      Holds (.cons name read absent rest) ((name, d) :: data) (a, values)
  | absent {τ : Type} {τs : List Type} {name : String} {read : Reader τ}
      {rest : Fields Reader τs} {data : List (String × Datum)} {a : τ} {values : Values τs}
      (hrest : Holds rest data values) :
      Holds (.cons name read (some a) rest) data (a, values)

/-- The last field may be left out. -/
theorem Undoes.holds_field? {r : Reader α} {write : α → Datum} (h : Undoes r write)
    (name : String) (o : Option α) :
    Holds (.cons name (Source.optional r) (some none) .nil) (Datum.field? name write o)
      (o, ()) := by
  cases o with
  | none => exact .absent .nil
  | some a => exact .present (h.optional (some a)) .nil

theorem Holds.mem_names {fields : Fields Reader τs} {data : List (String × Datum)}
    {values : Values τs} (h : Holds fields data values) :
    ∀ field ∈ data, field.1 ∈ fields.names := by
  induction h with
  | nil => simp
  | present hread hrest ih =>
      intro field hfield
      rcases List.mem_cons.mp hfield with rfl | hfield
      · exact List.mem_cons_self
      · exact List.mem_cons_of_mem _ (ih field hfield)
  | absent hrest ih => exact fun field hfield => List.mem_cons_of_mem _ (ih field hfield)

theorem Holds.ne_of_not_mem {fields : Fields Reader τs} {data : List (String × Datum)}
    {values : Values τs} (h : Holds fields data values) {name : String}
    (hfresh : name ∉ fields.names) : ∀ field ∈ data, field.1 ≠ name := by
  intro field hfield heq
  exact hfresh (heq ▸ h.mem_names field hfield)

/-- A name is no longer than a reader takes. -/
def IsShort (name : String) : Prop := (Utf8.encode name).length ≤ maxWhole

instance (name : String) : Decidable (IsShort name) :=
  inferInstanceAs (Decidable ((Utf8.encode name).length ≤ maxWhole))

/-- The names tell fields apart. -/
def AreNames (names : List String) : Prop := names.Nodup ∧ ∀ name ∈ names, IsShort name

instance (names : List String) : Decidable (AreNames names) :=
  inferInstanceAs (Decidable (_ ∧ _))

theorem AreNames.tail {name : String} {names : List String} (h : AreNames (name :: names)) :
    IsShort name ∧ name ∉ names ∧ AreNames names := by
  obtain ⟨hfresh, hnodup⟩ := List.nodup_cons.mp h.1
  exact ⟨h.2 name List.mem_cons_self, hfresh, hnodup,
    fun other hother => h.2 other (List.mem_cons_of_mem _ hother)⟩

theorem name?_text {name : String} (h : IsShort name) :
    name? (.text true name) = some (some name) := by
  simp only [IsShort] at h
  simp [name?, Item.untagged, h]

/-- Entries that do not have the name of the first field are those of the others. -/
theorem fill_cons_of_ne {name : String} (read : Reader τ) (absent : Option τ)
    (rest : Fields Reader τs) (budget : Nat) (slot : Option τ) (slots : Slots τs)
    {data : List (String × Datum)} (hne : ∀ field ∈ data, field.1 ≠ name)
    (hshort : ∀ field ∈ data, IsShort field.1) :
    fill (.cons name read absent rest) budget (slot, slots) (Datum.fieldsToEntries data) =
      (fill rest budget slots (Datum.fieldsToEntries data)).map fun slots => (slot, slots) := by
  induction data generalizing slots with
  | nil => rfl
  | cons field data ih =>
      obtain ⟨other, d⟩ := field
      have hother : other ≠ name := hne _ List.mem_cons_self
      have hname := name?_text (hshort _ List.mem_cons_self)
      have hdata := fun slots => ih slots (fun field h => hne field (List.mem_cons_of_mem _ h))
        (fun field h => hshort field (List.mem_cons_of_mem _ h))
      simp only [Datum.fieldsToEntries, fill, hname, Fields.entry, if_neg hother]
      cases hentry : rest.entry other slots with
      | unknown =>
          simp only [hdata]
          split <;> rfl
      | repeated => rfl
      | known more =>
          simp only [bind_apply, pure_apply]
          cases hmore : more budget d.toItem with
          | none => simp
          | some slots => simp [hdata]

theorem Holds.fill_rest {rest : Fields Reader τs} {data : List (String × Datum)}
    {values : Values τs} (h : Holds rest data values) {name : String}
    (hfresh : name ∉ rest.names) (hnames : AreNames rest.names) (read : Reader τ)
    (absent : Option τ) (budget : Nat) (slot : Option τ) :
    fill (.cons name read absent rest) budget (slot, rest.empty) (Datum.fieldsToEntries data) =
      (fill rest budget rest.empty (Datum.fieldsToEntries data)).map
        fun slots => (slot, slots) := by
  apply fill_cons_of_ne
  · exact h.ne_of_not_mem hfresh
  · exact fun field hfield => hnames.2 _ (h.mem_names field hfield)

theorem fill_of_holds {fields : Fields Reader τs} {data : List (String × Datum)}
    {values : Values τs} (h : Holds fields data values) (hnames : AreNames fields.names)
    {out : List UInt8} (hout : Datum.fieldsToCbor? data = some out) {budget : Nat}
    (hbudget : Item.entriesDepth (Datum.fieldsToEntries data) < budget) :
    ∃ slots, fill fields budget fields.empty (Datum.fieldsToEntries data) = some slots ∧
      fields.complete slots = some values := by
  -- The first entry fills the first slot or none at all; no later entry has its name again.
  induction h generalizing out with
  | nil => exact ⟨(), rfl, rfl⟩
  | @present τ τs name read absent rest d data a values hread hrest ih =>
      obtain ⟨hshort, hfresh, hrestNames⟩ := hnames.tail
      obtain ⟨label, front, back, -, hfront, hback, -⟩ := Datum.fieldsToCbor?_cons_eq_some hout
      simp only [Datum.fieldsToEntries, Item.entriesDepth, Nat.max_lt] at hbudget
      obtain ⟨slots, hfill, hcomplete⟩ := ih hrestNames hback hbudget.2
      have hvalue := hread hfront hbudget.1.2
      have hothers := hrest.fill_rest hfresh hrestNames read absent budget (some a)
      refine ⟨(some a, slots), ?_, ?_⟩
      · simp only [Datum.fieldsToEntries, fill, name?_text hshort, Fields.empty, Fields.entry,
          if_pos, Option.isSome_none, Bool.false_eq_true, if_false, bind_apply, pure_apply,
          hvalue, Option.bind_some, hothers, hfill, Option.map_some]
      · simp [Fields.complete, hcomplete]
  | @absent τ τs name read rest data a values hrest ih =>
      obtain ⟨-, hfresh, hrestNames⟩ := hnames.tail
      obtain ⟨slots, hfill, hcomplete⟩ := ih hrestNames hout hbudget
      have hothers := hrest.fill_rest hfresh hrestNames read (some a) budget none
      refine ⟨(none, slots), ?_, ?_⟩
      · rw [Fields.empty, hothers, hfill, Option.map_some]
      · simp [Fields.complete, hcomplete]

theorem reads_record {fields : Fields Reader τs} {data : List (String × Datum)}
    {values : Values τs} (hnames : AreNames fields.names) (h : Holds fields data values) :
    Reads (Source.record fields) (.record data) values := by
  intro out hout budget hbudget
  obtain ⟨body, hbody, -, -⟩ := Datum.sized?_eq_some ((Datum.record_toCbor? _).symm.trans hout)
  cases budget with
  | zero => cases hbudget
  | succ budget =>
      obtain ⟨slots, hfill, hcomplete⟩ :=
        fill_of_holds h hnames hbody (Nat.lt_of_succ_lt_succ hbudget)
      show (fill fields budget fields.empty _).bind fields.complete = some values
      rw [hfill]
      exact hcomplete

end Cbor.Lenient
end TraceLedger
