import TraceLedger.Proofs.Json.ReadBack
import TraceLedger.Proofs.Wire.Numbers
import TraceLedger.Cbor.Ipld

/-! # What is shown of a value keeps its shape

Lists, maps, nulls, booleans and integers of 64 bits are told by the JSON that shows them. Only
leaves that are shown as texts may be taken for one another: texts, byte strings, links, and
integers that no word holds. -/

namespace TraceLedger

namespace Json.Numeral

theorem ofInt_injective : Function.Injective ofInt := by
  intro m n h
  simp only [ofInt, mk.injEq, decide_eq_decide] at h
  obtain ⟨hsign, hdigits, -, -⟩ := h
  have habs := congrArg (extend 0) hdigits
  rw [extend_digitsOf, extend_digitsOf] at habs
  omega

end Json.Numeral

namespace Ipld

open Json Json.Numeral

mutual

/-- There is no float in the value. -/
def IsFloatFree : Ipld → Prop
  | float _ => False
  | list items => itemsFloatFree items
  | map entries => entriesFloatFree entries
  | _ => True

def itemsFloatFree : List Ipld → Prop
  | [] => True
  | item :: rest => IsFloatFree item ∧ itemsFloatFree rest

def entriesFloatFree : List (String × Ipld) → Prop
  | [] => True
  | (_, item) :: rest => IsFloatFree item ∧ entriesFloatFree rest

end

/-- The value is a leaf that is shown as a text. -/
inductive ShownAs : Ipld → String → Prop
  | text (value : String) : ShownAs (text value) value
  | bytes (value : List UInt8) : ShownAs (bytes value) (Base64.encode value)
  | link (cid : Cid) : ShownAs (link cid) cid.toText
  | int {n : Int} (h : ¬IsWord n) : ShownAs (int n) (toString n)

mutual

/-- The values have the same shape and the same leaves, but for leaves that are shown as the same
text. -/
inductive Alike : Ipld → Ipld → Prop
  | null : Alike null null
  | bool (value : Bool) : Alike (bool value) (bool value)
  | int {n : Int} (h : IsWord n) : Alike (int n) (int n)
  | leaf {a b : Ipld} {shown : String} (ha : ShownAs a shown) (hb : ShownAs b shown) : Alike a b
  | list {items others : List Ipld} (h : ItemsAlike items others) : Alike (list items) (list others)
  | map {entries others : List (String × Ipld)} (h : EntriesAlike entries others) :
    Alike (map entries) (map others)

inductive ItemsAlike : List Ipld → List Ipld → Prop
  | nil : ItemsAlike [] []
  | cons {a b : Ipld} {items others : List Ipld} (h : Alike a b) (hrest : ItemsAlike items others) :
    ItemsAlike (a :: items) (b :: others)

inductive EntriesAlike : List (String × Ipld) → List (String × Ipld) → Prop
  | nil : EntriesAlike [] []
  | cons {a b : Ipld} {entries others : List (String × Ipld)} (name : String) (h : Alike a b)
    (hrest : EntriesAlike entries others) :
    EntriesAlike ((name, a) :: entries) ((name, b) :: others)

end

theorem ItemsAlike.length_eq : ∀ {items others : List Ipld},
    ItemsAlike items others → items.length = others.length
  | _, _, .nil => rfl
  | _, _, .cons _ hrest => congrArg (· + 1) hrest.length_eq

theorem EntriesAlike.names_eq : ∀ {entries others : List (String × Ipld)},
    EntriesAlike entries others → entries.map Prod.fst = others.map Prod.fst
  | _, _, .nil => rfl
  | _, _, .cons name _ hrest => congrArg (name :: ·) hrest.names_eq

/-- An integer that a word holds is like no other value. -/
theorem alike_int_iff {n : Int} (h : IsWord n) {v : Ipld} : Alike (int n) v ↔ v = int n := by
  refine ⟨fun halike => ?_, fun heq => heq ▸ .int h⟩
  cases halike with
  | int => rfl
  | leaf ha => cases ha with
    | int hlarge => exact absurd h hlarge

/-! ## Alike values are shown alike -/

theorem toJson_int_of_isWord {n : Int} (h : IsWord n) : toJson (int n) = .int n := if_pos h

theorem ShownAs.toJson_eq {v : Ipld} {shown : String} (h : ShownAs v shown) :
    v.toJson = .text shown := by
  cases h with
  | text | bytes | link => rfl
  | int h => exact if_neg h

mutual

theorem Alike.toJson_eq : ∀ {a b : Ipld}, Alike a b → a.toJson = b.toJson
  | _, _, .null => rfl
  | _, _, .bool _ => rfl
  | _, _, .int _ => rfl
  | _, _, .leaf ha hb => ha.toJson_eq.trans hb.toJson_eq.symm
  | _, _, .list h => by rw [toJson, toJson, h.toJson_eq]
  | _, _, .map h => by rw [toJson, toJson, h.toJson_eq]

theorem ItemsAlike.toJson_eq : ∀ {items others : List Ipld},
    ItemsAlike items others → itemsToJson items = itemsToJson others
  | _, _, .nil => rfl
  | _, _, .cons h hrest => by rw [itemsToJson, itemsToJson, h.toJson_eq, hrest.toJson_eq]

theorem EntriesAlike.toJson_eq : ∀ {entries others : List (String × Ipld)},
    EntriesAlike entries others → entriesToJson entries = entriesToJson others
  | _, _, .nil => rfl
  | _, _, .cons _ h hrest => by rw [entriesToJson, entriesToJson, h.toJson_eq, hrest.toJson_eq]

end

/-! ## Values that are shown alike are alike -/

mutual

/-- A value without floats is shown by a document of its kind. -/
inductive Shows : Ipld → Doc → Prop
  | null : Shows null .null
  | bool (value : Bool) : Shows (bool value) (.bool value)
  | int {n : Int} {numeral : Numeral} (h : IsWord n) (hn : ofInt n = numeral) :
    Shows (int n) (.number numeral)
  | leaf {v : Ipld} {shown : String} (h : ShownAs v shown) : Shows v (.text (some shown))
  | list {items : List Ipld} {docs : List Doc} (h : ItemsShow items docs) :
    Shows (list items) (.list docs)
  | map {entries : List (String × Ipld)} {docs : List (Option String × Doc)}
    (h : EntriesShow entries docs) : Shows (map entries) (.object docs)

inductive ItemsShow : List Ipld → List Doc → Prop
  | nil : ItemsShow [] []
  | cons {v : Ipld} {d : Doc} {items : List Ipld} {docs : List Doc} (h : Shows v d)
    (hrest : ItemsShow items docs) : ItemsShow (v :: items) (d :: docs)

inductive EntriesShow : List (String × Ipld) → List (Option String × Doc) → Prop
  | nil : EntriesShow [] []
  | cons {v : Ipld} {d : Doc} {entries : List (String × Ipld)} {docs : List (Option String × Doc)}
    (name : String) (h : Shows v d) (hrest : EntriesShow entries docs) :
    EntriesShow ((name, v) :: entries) ((some name, d) :: docs)

end

mutual

theorem shows_toDoc : ∀ v : Ipld, v.IsFloatFree → Shows v v.toJson.toDoc
  | null, _ => .null
  | bool value, _ => .bool value
  | int n, _ => by
    by_cases hword : IsWord n
    · rw [toJson_int_of_isWord hword]
      exact .int hword rfl
    · have hleaf := ShownAs.int hword
      rw [hleaf.toJson_eq]
      exact .leaf hleaf
  | text value, _ => .leaf (.text value)
  | bytes value, _ => .leaf (.bytes value)
  | list items, h => .list (itemsShow_toDoc items h)
  | map entries, h => .map (entriesShow_toDoc entries h)
  | link cid, _ => .leaf (.link cid)

theorem itemsShow_toDoc : ∀ items : List Ipld, itemsFloatFree items →
    ItemsShow items (itemsToDoc (itemsToJson items))
  | [], _ => .nil
  | item :: rest, ⟨h, hrest⟩ => .cons (shows_toDoc item h) (itemsShow_toDoc rest hrest)

theorem entriesShow_toDoc : ∀ entries : List (String × Ipld), entriesFloatFree entries →
    EntriesShow entries (fieldsToDoc (entriesToJson entries))
  | [], _ => .nil
  | (name, item) :: rest, ⟨h, hrest⟩ =>
    .cons name (shows_toDoc item h) (entriesShow_toDoc rest hrest)

end

mutual

theorem Shows.alike : ∀ {a b : Ipld} {d : Doc}, Shows a d → Shows b d → Alike a b
  | _, _, _, .null, .null => .null
  | _, _, _, .bool value, .bool _ => .bool value
  | _, _, _, .int h hn, .int _ hm => ofInt_injective (hn.trans hm.symm) ▸ .int h
  | _, _, _, .leaf ha, .leaf hb => .leaf ha hb
  | _, _, _, .list ha, .list hb => .list (ha.alike hb)
  | _, _, _, .map ha, .map hb => .map (ha.alike hb)

theorem ItemsShow.alike : ∀ {items others : List Ipld} {docs : List Doc},
    ItemsShow items docs → ItemsShow others docs → ItemsAlike items others
  | _, _, _, .nil, .nil => .nil
  | _, _, _, .cons ha harest, .cons hb hbrest => .cons (ha.alike hb) (harest.alike hbrest)

theorem EntriesShow.alike : ∀ {entries others : List (String × Ipld)}
    {docs : List (Option String × Doc)},
    EntriesShow entries docs → EntriesShow others docs → EntriesAlike entries others
  | _, _, _, .nil, .nil => .nil
  | _, _, _, .cons name ha harest, .cons _ hb hbrest =>
    .cons name (ha.alike hb) (harest.alike hbrest)

end

theorem toDoc_eq_iff {a b : Ipld} (ha : a.IsFloatFree) (hb : b.IsFloatFree) :
    a.toJson.toDoc = b.toJson.toDoc ↔ Alike a b := by
  refine ⟨fun h => ?_, fun h => congrArg toDoc h.toJson_eq⟩
  have hshows := shows_toDoc b hb
  rw [← h] at hshows
  exact (shows_toDoc a ha).alike hshows

/-! ## Integers -/

theorem ofText?_render_int {n : Int} (h : IsWord n) :
    Json.ofText? (int n).toJson.render = some (.int n) := by
  rw [toJson_int_of_isWord h, Json.ofText?, Doc.ofText?_render]
  simp only [toDoc, Doc.toJson?, toInt?_ofInt h]
  exact if_pos (Nat.zero_le _)

/-- What is shown of values without floats is the same exactly if they are alike, as a value and as
a text. An integer is shown by its number, or else by its decimal, and is read back from either. -/
structure KeepsShape : Prop where
  toJson_eq_iff : ∀ a b : Ipld, a.IsFloatFree → b.IsFloatFree → (a.toJson = b.toJson ↔ Alike a b)
  render_eq_iff : ∀ a b : Ipld, a.IsFloatFree → b.IsFloatFree →
    (a.toJson.render = b.toJson.render ↔ Alike a b)
  alike_int_iff : ∀ n : Int, IsWord n → ∀ v : Ipld, Alike (int n) v ↔ v = int n
  length_eq : ∀ items others : List Ipld, Alike (list items) (list others) →
    items.length = others.length
  names_eq : ∀ entries others : List (String × Ipld), Alike (map entries) (map others) →
    entries.map Prod.fst = others.map Prod.fst
  number : ∀ n : Int, IsWord n →
    (int n).toJson = .int n ∧ Json.ofText? (int n).toJson.render = some (.int n)
  decimal : ∀ n : Int, ¬IsWord n →
    (int n).toJson = .text (toString n) ∧ SignedMagnitude.ofText? (toString n) = some n

/-- Values are shown so that their shapes and integers are told. -/
theorem toJson_keeps_shape : KeepsShape where
  toJson_eq_iff _ _ ha hb :=
    ⟨fun h => (toDoc_eq_iff ha hb).mp (congrArg toDoc h), fun h => h.toJson_eq⟩
  render_eq_iff a b ha hb := by
    refine ⟨fun h => (toDoc_eq_iff ha hb).mp ?_, fun h => congrArg render h.toJson_eq⟩
    -- One text is read as one document only.
    have hread := Doc.ofText?_render a.toJson
    rw [h, Doc.ofText?_render] at hread
    exact (Option.some.inj hread).symm
  alike_int_iff _ h _ := alike_int_iff h
  length_eq _ _ h := by
    cases h with
    | leaf ha => cases ha
    | list h => exact h.length_eq
  names_eq _ _ h := by
    cases h with
    | leaf ha => cases ha
    | map h => exact h.names_eq
  number _ h := ⟨toJson_int_of_isWord h, ofText?_render_int h⟩
  decimal n h := ⟨(ShownAs.int h).toJson_eq, SignedMagnitude.ofText?_toString n⟩

end Ipld
end TraceLedger
