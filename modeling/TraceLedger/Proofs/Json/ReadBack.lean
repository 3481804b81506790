import TraceLedger.Proofs.Json.Fractions

/-! # Written JSON is read back

The text of a value is a document with the same lists, objects, texts and whole numbers. So all that
stands between a value and its reader is the depth that a text may nest, and whole numbers that no
word holds. -/

namespace TraceLedger.Json

mutual

/-- The document that the text of a value holds. -/
def toDoc : Json → Doc
  | null => .null
  | bool value => .bool value
  | int value => .number (.ofInt value)
  | float value => if value.isFinite then .number (.ofBinary64 value) else .null
  | text value => .text (some value)
  | list items => .list (itemsToDoc items)
  | object fields => .object (fieldsToDoc fields)

def itemsToDoc : List Json → List Doc
  | [] => []
  | item :: rest => toDoc item :: itemsToDoc rest

def fieldsToDoc : List (String × Json) → List (Option String × Doc)
  | [] => []
  | (name, item) :: rest => (some name, toDoc item) :: fieldsToDoc rest

end

/-! ## The text of a value -/

namespace Doc

theorem isEnd_cons {b : UInt8} (h : b = 0x2c ∨ b = 0x5d ∨ b = 0x7d) (rest : Input) :
    IsEnd (b :: rest) := by
  rintro _ ⟨⟩
  exact h

theorem isEnd_nil : IsEnd [] := by
  rintro _ ⟨⟩

/-- A byte that a value may begin with. -/
def IsStart (b : UInt8) : Prop := isSpace b = false ∧ b ≠ 0x5d

theorem skipSpace_cons {b : UInt8} (h : isSpace b = false) (rest : Input) :
    skipSpace (b :: rest) = b :: rest := by
  rw [skipSpace, List.dropWhile_cons_of_neg (by simp [h])]

theorem isStart_digitByte {d : Nat} (h : d < 10) : IsStart (Numeral.digitByte d) := by
  unfold IsStart
  decide +revert

/-- A numeral begins with its sign or a digit. -/
theorem exists_toBytes_eq_cons {n : Numeral} (h : n.WellFormed) :
    ∃ b rest, n.toBytes = b :: rest ∧ IsStart b := by
  unfold Numeral.toBytes
  cases n.negative with
  | true => exact ⟨0x2d, n.magnitudeBytes, rfl, by decide, by decide⟩
  | false =>
      obtain ⟨d, ds, hds⟩ := List.exists_cons_of_ne_nil h.whole_ne_nil
      have hd : d < 10 := h.lt_ten_of_mem_whole d (hds ▸ List.mem_cons_self)
      rw [if_neg Bool.false_ne_true, List.nil_append, Numeral.magnitudeBytes, hds]
      exact ⟨_, _, rfl, isStart_digitByte hd⟩

/-- A value begins with a byte that is neither space nor the end of a list. -/
theorem exists_encode_render_eq_cons (v : Json) :
    ∃ b rest, Utf8.encode v.render = b :: rest ∧ IsStart b := by
  have hnull : ∃ b rest, Utf8.encode "null" = b :: rest ∧ IsStart b :=
    ⟨0x6e, [0x75, 0x6c, 0x6c], rfl, by decide, by decide⟩
  cases v with
  | null => exact hnull
  | bool value =>
      cases value with
      | true => exact ⟨0x74, [0x72, 0x75, 0x65], rfl, by decide, by decide⟩
      | false => exact ⟨0x66, [0x61, 0x6c, 0x73, 0x65], rfl, by decide, by decide⟩
  | int value =>
      rw [render, ← Numeral.toBytes_ofInt]
      exact exists_toBytes_eq_cons (Numeral.wellFormed_ofInt value)
  | float value =>
      rw [render]
      split
      next hfinite =>
        rw [← Numeral.toBytes_ofBinary64]
        exact exists_toBytes_eq_cons (Numeral.wellFormed_ofBinary64 hfinite)
      next => exact hnull
  | text value =>
      rw [render, encode_quote]
      exact ⟨_, _, rfl, by decide, by decide⟩
  | list items =>
      rw [render, Utf8.encode_append, Utf8.encode_append]
      exact ⟨0x5b, _, rfl, by decide, by decide⟩
  | object fields =>
      rw [render, Utf8.encode_append, Utf8.encode_append]
      exact ⟨0x7b, _, rfl, by decide, by decide⟩

theorem value_bracket {b : UInt8} (h : IsStart b) (rest : Input) (fuel : Nat) :
    value (fuel + 1) (0x5b :: b :: rest) =
      (items fuel (b :: rest)).map fun (items, rest) => (list items, rest) := by
  rw [value, skipSpace_cons (by decide)]
  simp only [skipSpace_cons h.1]
  rw [if_neg (by decide), if_pos trivial]
  split
  next heq =>
    cases heq
    exact (h.2 rfl).elim
  next => rfl

theorem value_brace (rest : Input) (fuel : Nat) :
    value (fuel + 1) (0x7b :: 0x22 :: rest) =
      (fields fuel (0x22 :: rest)).map fun (fields, rest) => (object fields, rest) := by
  rw [value, skipSpace_cons (by decide)]
  simp only [skipSpace_cons (by decide : isSpace 0x22 = false)]
  rw [if_pos trivial]
  rfl

theorem value_quote (rest : Input) (fuel : Nat) :
    value (fuel + 1) (0x22 :: rest) =
      (string fuel rest).map fun (value, rest) => (text value, rest) := by
  rw [value, skipSpace_cons (by decide)]
  rfl

theorem encode_renderItems_cons (item : Json) (rest : List Json) :
    Utf8.encode (renderItems (item :: rest)) = Utf8.encode item.render ++
      if rest = [] then [] else 0x2c :: Utf8.encode (renderItems rest) := by
  cases rest with
  | nil => simp [renderItems]
  | cons next rest =>
      have hcomma : Utf8.encode "," = [0x2c] := rfl
      simp [renderItems, hcomma]

theorem encode_renderFields_cons (name : String) (item : Json) (rest : List (String × Json)) :
    Utf8.encode (renderFields ((name, item) :: rest)) = Utf8.encode (quote name) ++
      0x3a :: (Utf8.encode item.render ++
        if rest = [] then [] else 0x2c :: Utf8.encode (renderFields rest)) := by
  have hcolon : Utf8.encode ":" = [0x3a] := rfl
  cases rest with
  | nil => simp [renderFields, hcolon]
  | cons next rest =>
      have hcomma : Utf8.encode "," = [0x2c] := rfl
      simp [renderFields, hcolon, hcomma]

mutual

/-- The text of a value is read as its document. -/
theorem value_render (v : Json) {fuel : Nat} (h : 2 * (Utf8.encode v.render).length ≤ fuel)
    {rest : Input} (hrest : IsEnd rest) :
    value fuel (Utf8.encode v.render ++ rest) = some (v.toDoc, rest) := by
  obtain ⟨b, tail, hcons, -⟩ := exists_encode_render_eq_cons v
  obtain ⟨fuel, rfl⟩ : ∃ k, fuel = k + 1 := by
    rw [hcons, List.length_cons] at h
    exact ⟨fuel - 1, by omega⟩
  cases v with
  | null => rfl
  | bool value => cases value <;> rfl
  | int value =>
      rw [render, ← Numeral.toBytes_ofInt]
      exact value_toBytes (Numeral.wellFormed_ofInt value) hrest fuel
  | float value =>
      rw [render, toDoc]
      split
      next hfinite =>
        rw [← Numeral.toBytes_ofBinary64]
        exact value_toBytes (Numeral.wellFormed_ofBinary64 hfinite) hrest fuel
      next => rfl
  | text content =>
      rw [render, encode_quote] at h ⊢
      simp only [List.length_append, List.length_cons, List.length_nil] at h
      have hstring : string fuel (content.toList.flatMap escapedBytes ++ 0x22 :: rest) =
          some (some content, rest) := string_quoted (by omega) rest
      rw [List.cons_append, List.cons_append, List.append_assoc, List.singleton_append,
        value_quote, hstring]
      rfl
  | list content =>
      have hopen : Utf8.encode "[" = [0x5b] := rfl
      have hclose : Utf8.encode "]" = [0x5d] := rfl
      rw [render, Utf8.encode_append, Utf8.encode_append, hopen, hclose] at h ⊢
      simp only [List.length_append, List.length_cons, List.length_nil] at h
      cases content with
      | nil => rfl
      | cons item more =>
          have hitems : items fuel (Utf8.encode (renderItems (item :: more)) ++ 0x5d :: rest) =
              some (itemsToDoc (item :: more), rest) :=
            items_render (item :: more) (List.cons_ne_nil _ _) (by omega) rest
          obtain ⟨b, tail, hcons, hstart⟩ := exists_encode_render_eq_cons item
          rw [encode_renderItems_cons, hcons, List.cons_append, List.cons_append] at hitems
          rw [List.append_assoc, List.append_assoc, List.singleton_append, List.singleton_append,
            encode_renderItems_cons, hcons, List.cons_append, List.cons_append,
            value_bracket hstart, hitems]
          rfl
  | object content =>
      have hopen : Utf8.encode "\x7b" = [0x7b] := rfl
      have hclose : Utf8.encode "\x7d" = [0x7d] := rfl
      rw [render, Utf8.encode_append, Utf8.encode_append, hopen, hclose] at h ⊢
      simp only [List.length_append, List.length_cons, List.length_nil] at h
      cases content with
      | nil => rfl
      | cons field more =>
          obtain ⟨name, item⟩ := field
          have hfields : fields fuel (Utf8.encode (renderFields ((name, item) :: more)) ++
              0x7d :: rest) = some (fieldsToDoc ((name, item) :: more), rest) :=
            fields_render ((name, item) :: more) (List.cons_ne_nil _ _) (by omega) rest
          rw [encode_renderFields_cons, encode_quote, List.cons_append, List.cons_append,
            List.cons_append] at hfields
          rw [List.append_assoc, List.append_assoc, List.singleton_append, List.singleton_append,
            encode_renderFields_cons, encode_quote, List.cons_append, List.cons_append,
            List.cons_append, value_brace, hfields]
          rfl

/-- The text of items is read up to the end of the list. -/
theorem items_render (content : List Json) (hne : content ≠ []) {fuel : Nat}
    (h : 2 * (Utf8.encode (renderItems content)).length < fuel) (rest : Input) :
    items fuel (Utf8.encode (renderItems content) ++ 0x5d :: rest) =
      some (itemsToDoc content, rest) := by
  obtain ⟨fuel, rfl⟩ : ∃ k, fuel = k + 1 := ⟨fuel - 1, by omega⟩
  cases content with
  | nil => exact (hne rfl).elim
  | cons item more =>
      rw [encode_renderItems_cons, List.length_append] at h
      rw [encode_renderItems_cons, List.append_assoc, items]
      by_cases hmore : more = []
      · have hitem := value_render item (by omega : 2 * _ ≤ fuel)
          (isEnd_cons (.inr (.inl rfl)) rest : IsEnd (0x5d :: rest))
        rw [if_pos hmore, List.nil_append, hitem, hmore]
        rfl
      · rw [if_neg hmore, List.length_cons] at h
        have hrest := items_render more hmore (by omega : _ < fuel) rest
        have hitem := value_render item (by omega : 2 * _ ≤ fuel)
          (isEnd_cons (.inl rfl) (Utf8.encode (renderItems more) ++ 0x5d :: rest))
        rw [if_neg hmore, List.cons_append, hitem]
        simp only [Option.bind_eq_bind, Option.bind_some]
        rw [skipSpace_cons (by decide)]
        simp only [hrest]
        rfl

/-- The text of fields is read up to the end of the object. -/
theorem fields_render (content : List (String × Json)) (hne : content ≠ []) {fuel : Nat}
    (h : 2 * (Utf8.encode (renderFields content)).length < fuel) (rest : Input) :
    fields fuel (Utf8.encode (renderFields content) ++ 0x7d :: rest) =
      some (fieldsToDoc content, rest) := by
  obtain ⟨fuel, rfl⟩ : ∃ k, fuel = k + 1 := ⟨fuel - 1, by omega⟩
  cases content with
  | nil => exact (hne rfl).elim
  | cons field more =>
      obtain ⟨name, item⟩ := field
      rw [encode_renderFields_cons, encode_quote] at h ⊢
      simp only [List.length_append, List.length_cons, List.length_nil] at h
      -- The name stands in front of the value, whatever comes behind.
      have hname (behind : Input) :
          string fuel (name.toList.flatMap escapedBytes ++ 0x22 :: behind) =
            some (some name, behind) := string_quoted (by omega) behind
      have hquote (behind : Input) : expect [0x22] (skipSpace (0x22 :: behind)) = some behind := rfl
      have hcolon (behind : Input) : expect [0x3a] (skipSpace (0x3a :: behind)) = some behind := rfl
      simp only [List.cons_append, List.append_assoc, List.nil_append, fields, hquote, hname,
        hcolon, Option.bind_eq_bind, Option.bind_some]
      by_cases hmore : more = []
      · have hitem := value_render item (by omega : 2 * _ ≤ fuel)
          (isEnd_cons (.inr (.inr rfl)) rest : IsEnd (0x7d :: rest))
        rw [if_pos hmore, List.nil_append, hitem, hmore]
        rfl
      · rw [if_neg hmore, List.length_cons] at h
        have hrest := fields_render more hmore (by omega : _ < fuel) rest
        have hitem := value_render item (by omega : 2 * _ ≤ fuel)
          (isEnd_cons (.inl rfl) (Utf8.encode (renderFields more) ++ 0x7d :: rest))
        rw [if_neg hmore, List.cons_append, hitem, Option.bind_some, skipSpace_cons (by decide)]
        simp only [hrest]
        rfl

end

/-- The text of a value holds its document and nothing else. -/
theorem ofText?_render (v : Json) : ofText? v.render = some v.toDoc := by
  have hvalue := value_render v (by omega : _ ≤ 2 * (Utf8.encode v.render).length + 2) isEnd_nil
  rw [List.append_nil] at hvalue
  rw [ofText?, ofBytes?, hvalue]
  rfl

end Doc

/-! ## The value of the document -/

mutual

/-- How many lists and objects stand inside one another. -/
def depth : Json → Nat
  | list items => itemsDepth items + 1
  | object fields => fieldsDepth fields + 1
  | _ => 0

def itemsDepth : List Json → Nat
  | [] => 0
  | item :: rest => max (depth item) (itemsDepth rest)

def fieldsDepth : List (String × Json) → Nat
  | [] => 0
  | (_, item) :: rest => max (depth item) (fieldsDepth rest)

end

mutual

/-- A document nests as deep as the value that was written. -/
theorem depth_toDoc (v : Json) : v.toDoc.depth = v.depth := by
  cases v with
  | float value =>
      rw [toDoc]
      split <;> rfl
  | list items => rw [toDoc, Doc.depth, itemsDepth_toDoc items, depth]
  | object fields => rw [toDoc, Doc.depth, fieldsDepth_toDoc fields, depth]
  | _ => rfl

theorem itemsDepth_toDoc (items : List Json) :
    Doc.itemsDepth (itemsToDoc items) = itemsDepth items := by
  cases items with
  | nil => rfl
  | cons item rest =>
      rw [itemsToDoc, Doc.itemsDepth, depth_toDoc item, itemsDepth_toDoc rest, itemsDepth]

theorem fieldsDepth_toDoc (fields : List (String × Json)) :
    Doc.fieldsDepth (fieldsToDoc fields) = fieldsDepth fields := by
  cases fields with
  | nil => rfl
  | cons field rest =>
      obtain ⟨name, item⟩ := field
      rw [fieldsToDoc, Doc.fieldsDepth, depth_toDoc item, fieldsDepth_toDoc rest, fieldsDepth]

end

mutual

/-- No whole number in the value is too large for a word. -/
def HasWords : Json → Prop
  | int value => Numeral.IsWord value
  | list items => itemsHaveWords items
  | object fields => fieldsHaveWords fields
  | _ => True

def itemsHaveWords : List Json → Prop
  | [] => True
  | item :: rest => HasWords item ∧ itemsHaveWords rest

def fieldsHaveWords : List (String × Json) → Prop
  | [] => True
  | (_, item) :: rest => HasWords item ∧ fieldsHaveWords rest

end

theorem isSome_toJson?_number {n : Numeral} (h : n.toInt?.isSome ∨ n.toBinary64?.isSome) :
    (Doc.number n).toJson?.isSome := by
  rw [Doc.toJson?]
  cases hint : n.toInt? with
  | some k => rfl
  | none =>
      rw [hint] at h
      rw [Option.isSome_map]
      exact h.resolve_left Bool.false_ne_true

mutual

/-- A value with words is read from its document. -/
theorem isSome_toJson?_toDoc (v : Json) (h : v.HasWords) : v.toDoc.toJson?.isSome := by
  cases v with
  | int value =>
      refine isSome_toJson?_number (.inl ?_)
      rw [Numeral.toInt?_ofInt h]
      rfl
  | float value =>
      rw [toDoc]
      split
      next hfinite =>
        exact isSome_toJson?_number (.inr (Numeral.isSome_toBinary64?_ofBinary64 hfinite))
      next => rfl
  | list items =>
      rw [toDoc, Doc.toJson?, Option.isSome_map]
      exact isSome_itemsToJson?_toDoc items h
  | object fields =>
      rw [toDoc, Doc.toJson?, Option.isSome_map]
      exact isSome_fieldsToJson?_toDoc [] fields h
  | _ => rfl

theorem isSome_itemsToJson?_toDoc (items : List Json) (h : itemsHaveWords items) :
    (Doc.itemsToJson? (itemsToDoc items)).isSome := by
  cases items with
  | nil => rfl
  | cons item rest =>
      obtain ⟨value, hvalue⟩ := Option.isSome_iff_exists.mp (isSome_toJson?_toDoc item h.1)
      obtain ⟨values, hvalues⟩ := Option.isSome_iff_exists.mp (isSome_itemsToJson?_toDoc rest h.2)
      simp [itemsToDoc, Doc.itemsToJson?, hvalue, hvalues]

theorem isSome_fieldsToJson?_toDoc (done : Members) (fields : List (String × Json))
    (h : fieldsHaveWords fields) : (Doc.fieldsToJson? done (fieldsToDoc fields)).isSome := by
  cases fields with
  | nil => rfl
  | cons field rest =>
      obtain ⟨name, item⟩ := field
      obtain ⟨value, hvalue⟩ := Option.isSome_iff_exists.mp (isSome_toJson?_toDoc item h.1)
      have hrest := isSome_fieldsToJson?_toDoc (done.insert name value) rest h.2
      simpa [fieldsToDoc, Doc.fieldsToJson?, hvalue] using hrest

end

/-- A value with words is read back from its text exactly if it nests no deeper than a text may. -/
theorem isSome_ofText?_render_iff {v : Json} (h : v.HasWords) :
    (ofText? v.render).isSome ↔ v.depth ≤ Doc.maxDepth := by
  rw [ofText?, Doc.ofText?_render]
  simp only [depth_toDoc]
  split
  next hle => exact iff_of_true (isSome_toJson?_toDoc v h) hle
  next hgt => exact iff_of_false Bool.false_ne_true hgt

/-! ## Objects -/

namespace Members

def names (fields : Members) : List String := fields.map Prod.fst

theorem names_insert (fields : Members) (name : String) (value : Json) :
    (fields.insert name value).names =
      if name ∈ fields.names then fields.names else fields.names ++ [name] := by
  have hany : fields.any (·.1 = name) = true ↔ name ∈ fields.names := by
    simp [names, List.any_eq_true]
  unfold insert
  by_cases hname : name ∈ fields.names
  · rw [if_pos (hany.mpr hname), if_pos hname, names, List.map_map]
    refine List.map_congr_left fun field _ => ?_
    simp only [Function.comp_apply]
    split
    next heq => exact heq.symm
    next => rfl
  · rw [if_neg fun h => hname (hany.mp h), if_neg hname, names, List.map_append]
    rfl

end Members

/-- Fields of different names are read in the order in which they were written. -/
theorem names_of_fieldsToJson? {done fields out : Members}
    (hnodup : (done.names ++ fields.names).Nodup)
    (h : Doc.fieldsToJson? done (fieldsToDoc fields) = some out) :
    out.names = done.names ++ fields.names := by
  induction fields generalizing done with
  | nil =>
      cases h
      exact (List.append_nil _).symm
  | cons field rest ih =>
      obtain ⟨name, item⟩ := field
      simp only [fieldsToDoc, Doc.fieldsToJson?, Option.bind_eq_bind, Option.bind_some] at h
      obtain ⟨value, -, hrest⟩ := Option.bind_eq_some_iff.mp h
      have hname : name ∉ done.names := fun hmem =>
        (List.nodup_append.mp hnodup).2.2 name hmem name List.mem_cons_self rfl
      have hinsert := Members.names_insert done name value
      rw [if_neg hname] at hinsert
      have hnames : (done.insert name value).names ++ Members.names rest =
          done.names ++ Members.names ((name, item) :: rest) := by
        rw [hinsert, List.append_assoc]
        rfl
      rw [ih (hnames ▸ hnodup) hrest, hnames]

/-- What is read from the text of an object is an object. -/
theorem exists_members_of_ofText?_render {fields : Members} {v : Json}
    (h : ofText? (object fields).render = some v) :
    ∃ members, v = object members ∧
      Doc.fieldsToJson? [] (fieldsToDoc fields) = some members := by
  rw [ofText?, Doc.ofText?_render] at h
  simp only at h
  split at h
  next =>
    rw [toDoc, Doc.toJson?] at h
    obtain ⟨members, hmembers, rfl⟩ := Option.map_eq_some_iff.mp h
    exact ⟨members, rfl, hmembers⟩
  next => cases h

end TraceLedger.Json
