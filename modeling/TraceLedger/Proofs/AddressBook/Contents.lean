import Mathlib.Data.Finset.Card
import Mathlib.Data.List.Induction
import TraceLedger.Proofs.AddressBook.Merging

/-! # What an address book holds

Records are told apart by their key and their robust form. Of all that were filed with the same
two there is one record in the book, and it took each field from the first of them that had it.
So the page of a key can be told from the records alone, in the order in which they were filed. -/

namespace TraceLedger

namespace AddressInfo

/-- What records are told apart by. -/
def place (info : AddressInfo) : String × String := (info.key, info.robust)

/-- The first text that is not empty, or else the empty one. -/
def firstText (texts : List String) : String := (texts.find? fun text => ¬text.isEmpty).getD ""

/-- The first value that is there. -/
def firstValue (values : List (Option String)) : Option String := values.findSome? id

/-- The record that has of each field the first value that one of the given records has. -/
def gather (infos : List AddressInfo) : AddressInfo where
  short := firstText (infos.map short)
  robust := firstText (infos.map robust)
  actorCode := firstText (infos.map actorCode)
  actorType := firstText (infos.map actorType)
  ethAddress := firstValue (infos.map ethAddress)
  creationTxHash := firstValue (infos.map creationTxHash)

theorem firstText_concat (texts : List String) (text : String) :
    firstText (texts ++ [text]) = orText (firstText texts) text := by
  unfold firstText orText
  rw [List.find?_append]
  cases h : texts.find? fun text => ¬text.isEmpty with
  | none =>
      by_cases htext : text = ""
      · simp [htext]
      · simp [htext]
  | some first =>
      have hfirst : first.isEmpty = false := by simpa using List.find?_some h
      simp [hfirst]

theorem firstValue_concat (values : List (Option String)) (value : Option String) :
    firstValue (values ++ [value]) = (firstValue values <|> value) := by
  unfold firstValue
  rw [List.findSome?_append]
  cases values.findSome? id <;> cases value <;> rfl

/-- What comes last only completes what came before. -/
theorem gather_concat (infos : List AddressInfo) (a : AddressInfo) :
    gather (infos ++ [a]) = (gather infos).fillFrom a := by
  simp only [gather, fillFrom, List.map_append, List.map_cons, List.map_nil, firstText_concat,
    firstValue_concat]

theorem gather_singleton (a : AddressInfo) : gather [a] = a := by
  obtain ⟨short, robust, actorCode, actorType, ethAddress, creationTxHash⟩ := a
  have hempty : gather [] = empty := rfl
  rw [← List.nil_append [_], gather_concat, hempty]
  simp [empty, fillFrom, orText]

/-- Records with the same key and robust form are gathered in one that has them too, even where
the key is found in a field that was empty at first. -/
theorem place_gather {infos : List AddressInfo} {p : String × String} (hne : infos ≠ [])
    (h : ∀ info ∈ infos, info.place = p) : (gather infos).place = p := by
  induction infos using List.reverseRecOn with
  | nil => exact absurd rfl hne
  | append_singleton front a ih =>
      have ha : a.place = p := h a (by simp)
      by_cases hfront : front = []
      · rw [hfront, List.nil_append, gather_singleton, ha]
      · have hgather : (gather front).place = p :=
          ih hfront fun info hinfo => h info (List.mem_append_left _ hinfo)
        obtain ⟨hkey, hrobust⟩ := Prod.mk.inj (hgather.trans ha.symm)
        rw [gather_concat, ← hgather, place, place, key_fillFrom hkey hrobust,
          robust_fillFrom hrobust]

/-- Of equal records one is gathered. -/
theorem gather_eq_of_forall_eq {infos : List AddressInfo} {a : AddressInfo} (hne : infos ≠ [])
    (h : ∀ info ∈ infos, info = a) : gather infos = a := by
  induction infos using List.reverseRecOn with
  | nil => exact absurd rfl hne
  | append_singleton front last ih =>
      obtain rfl : last = a := h last (by simp)
      by_cases hfront : front = []
      · rw [hfront, List.nil_append, gather_singleton]
      · rw [gather_concat, ih hfront fun info hinfo => h info (List.mem_append_left _ hinfo),
          fillFrom_self]

end AddressInfo

theorem eraseDups_concat {α : Type} [BEq α] [LawfulBEq α] (items : List α) (a : α) :
    (items ++ [a]).eraseDups = items.eraseDups ++ if a ∈ items then [] else [a] := by
  rw [List.eraseDups_append]
  by_cases h : a ∈ items
  · simp [List.removeAll, h]
  · simp [List.removeAll, h, List.eraseDups_cons]

theorem nodup_eraseDups {α : Type} [BEq α] [LawfulBEq α] (items : List α) :
    items.eraseDups.Nodup := by
  induction items using List.reverseRecOn with
  | nil => exact List.nodup_nil
  | append_singleton front a ih =>
      rw [eraseDups_concat]
      split
      next => rwa [List.append_nil]
      next ha =>
        refine List.nodup_append.mpr ⟨ih, List.nodup_singleton a, ?_⟩
        intro b hb c hc hbc
        rw [List.mem_singleton.mp hc] at hbc
        exact ha (hbc ▸ List.mem_eraseDups.mp hb)

/-- Lists that repeat themselves at the same places have equally many different items. -/
theorem card_toFinset_map_eq_of_iff {α β γ : Type} [DecidableEq β] [DecidableEq γ] {f : α → β}
    {g : α → γ} (h : ∀ a b, f a = f b ↔ g a = g b) (items : List α) :
    (items.map f).toFinset.card = (items.map g).toFinset.card := by
  induction items with
  | nil => rfl
  | cons a items ih =>
      have hmem : f a ∈ items.map f ↔ g a ∈ items.map g := by
        simp only [List.mem_map, h]
      simp only [List.map_cons, List.toFinset_cons, Finset.card_insert_eq_ite, List.mem_toFinset,
        hmem, ih]

namespace AddressBook

open AddressInfo

/-! ## One page -/

/-- The records that were filed at a place. -/
def filedAt (infos : List AddressInfo) (p : String × String) : List AddressInfo :=
  infos.filter (·.place = p)

/-- The places of a key at which records were filed, in the order in which they first were. -/
def placesOf (infos : List AddressInfo) (key : String) : List (String × String) :=
  ((infos.map place).filter (·.1 = key)).eraseDups

/-- The page of a key: at each of its places all that was filed there is gathered. -/
def pageOf (infos : List AddressInfo) (key : String) : List AddressInfo :=
  (placesOf infos key).map fun p => gather (filedAt infos p)

theorem mem_placesOf_iff {infos : List AddressInfo} {key : String} {p : String × String} :
    p ∈ placesOf infos key ↔ p ∈ infos.map place ∧ p.1 = key := by
  simp [placesOf]

theorem nodup_placesOf (infos : List AddressInfo) (key : String) : (placesOf infos key).Nodup :=
  nodup_eraseDups _

theorem placesOf_concat (infos : List AddressInfo) (a : AddressInfo) (key : String) :
    placesOf (infos ++ [a]) key =
      placesOf infos key ++ if a.key = key ∧ a.place ∉ infos.map place then [a.place] else [] := by
  have hkey : a.place.1 = a.key := rfl
  unfold placesOf
  rw [List.map_append, List.filter_append, List.map_singleton]
  by_cases h : a.key = key
  · have hmem : a.place ∈ (infos.map place).filter (·.1 = key) ↔ a.place ∈ infos.map place := by
      simp [hkey, h]
    rw [List.filter_cons_of_pos (by simpa [hkey] using h), List.filter_nil, eraseDups_concat]
    by_cases hplace : a.place ∈ infos.map place
    · rw [if_pos (hmem.mpr hplace), if_neg fun hn => hn.2 hplace]
    · rw [if_neg fun hn => hplace (hmem.mp hn), if_pos ⟨h, hplace⟩]
  · rw [List.filter_cons_of_neg (by simpa [hkey] using h), List.filter_nil, List.append_nil,
      if_neg fun hn => h hn.1, List.append_nil]

theorem gather_filedAt_concat (infos : List AddressInfo) (a : AddressInfo)
    (p : String × String) :
    gather (filedAt (infos ++ [a]) p) =
      if p = a.place then (gather (filedAt infos p)).fillFrom a else gather (filedAt infos p) := by
  by_cases h : a.place = p
  · rw [filedAt, List.filter_append, List.filter_cons_of_pos (by simpa using h), List.filter_nil,
      gather_concat, if_pos h.symm, filedAt]
  · rw [filedAt, List.filter_append, List.filter_cons_of_neg (by simpa using h), List.filter_nil,
      List.append_nil, if_neg (Ne.symm h), filedAt]

theorem place_gather_filedAt {infos : List AddressInfo} {p : String × String}
    (h : p ∈ infos.map place) : (gather (filedAt infos p)).place = p := by
  obtain ⟨info, hinfo, hplace⟩ := List.mem_map.mp h
  have hmem : info ∈ filedAt infos p := List.mem_filter.mpr ⟨hinfo, decide_eq_true hplace⟩
  apply place_gather (List.ne_nil_of_mem hmem)
  intro other hother
  exact of_decide_eq_true (List.mem_filter.mp hother).2

theorem map_place_pageOf (infos : List AddressInfo) (key : String) :
    (pageOf infos key).map place = placesOf infos key := by
  rw [pageOf, List.map_map]
  conv_rhs => rw [← List.map_id (placesOf infos key)]
  apply List.map_congr_left
  intro p hp
  exact place_gather_filedAt (mem_placesOf_iff.mp hp).1

/-- A page of given places completed by a record. -/
theorem addTo_map {a : AddressInfo} {places : List (String × String)}
    {record : String × String → AddressInfo} (hplace : ∀ p ∈ places, (record p).place = p)
    (hkey : ∀ p ∈ places, p.1 = a.key) (hnodup : places.Nodup) :
    addTo a (places.map record) =
      (places.map fun p => if p = a.place then (record p).fillFrom a else record p) ++
        if a.place ∈ places then [] else [a] := by
  induction places with
  | nil => simp
  | cons p rest ih =>
      obtain ⟨hp, hrest⟩ := List.nodup_cons.mp hnodup
      have hadded := ih (fun q hq => hplace q (List.mem_cons_of_mem p hq))
        (fun q hq => hkey q (List.mem_cons_of_mem p hq)) hrest
      have hrobust : (record p).robust = p.2 := congrArg Prod.snd (hplace p List.mem_cons_self)
      by_cases heq : p = a.place
      · have hothers : (rest.map fun q => if q = a.place then (record q).fillFrom a else record q) =
            rest.map record := by
          apply List.map_congr_left
          intro q hq
          rw [if_neg]
          rintro rfl
          exact hp (heq ▸ hq)
        have hsame : (record p).robust = a.robust := by rw [hrobust, heq, place]
        rw [List.map_cons, List.map_cons, addTo_cons, if_pos hsame, hothers, if_pos heq,
          if_pos (heq ▸ List.mem_cons_self), List.append_nil]
      · have hother : (record p).robust ≠ a.robust := by
          rw [hrobust]
          exact fun h => heq (Prod.ext (hkey p List.mem_cons_self) h)
        rw [List.map_cons, List.map_cons, addTo_cons, if_neg hother, hadded, if_neg heq]
        simp [Ne.symm heq]

/-- A record that is filed last goes to the page of its key. -/
theorem addTo_pageOf (infos : List AddressInfo) (a : AddressInfo) :
    addTo a (pageOf infos a.key) = pageOf (infos ++ [a]) a.key := by
  have hplace : ∀ p ∈ placesOf infos a.key, (gather (filedAt infos p)).place = p :=
    fun p hp => place_gather_filedAt (mem_placesOf_iff.mp hp).1
  have hkey : ∀ p ∈ placesOf infos a.key, p.1 = a.key := fun p hp => (mem_placesOf_iff.mp hp).2
  have hmem : a.place ∈ placesOf infos a.key ↔ a.place ∈ infos.map place := by
    rw [mem_placesOf_iff]
    exact and_iff_left rfl
  rw [pageOf, addTo_map hplace hkey (nodup_placesOf infos a.key), pageOf, placesOf_concat,
    List.map_append]
  simp only [gather_filedAt_concat, hmem, true_and]
  by_cases h : a.place ∈ infos.map place
  · simp [h]
  · have hnone : filedAt infos a.place = [] := by
      apply List.filter_eq_nil_iff.mpr
      intro info hinfo hp
      exact h (of_decide_eq_true hp ▸ List.mem_map_of_mem hinfo)
    have halone : (gather []).fillFrom a = a := by
      rw [← gather_concat, List.nil_append, gather_singleton]
    simp [h, hnone, halone]

theorem pageOf_concat_of_ne (infos : List AddressInfo) {a : AddressInfo} {key : String}
    (h : a.key ≠ key) : pageOf (infos ++ [a]) key = pageOf infos key := by
  rw [pageOf, placesOf_concat, if_neg fun hn => h hn.1, List.append_nil, pageOf]
  apply List.map_congr_left
  intro p hp
  rw [gather_filedAt_concat, if_neg]
  rintro rfl
  exact h (mem_placesOf_iff.mp hp).2

/-- On its page a record is a further one if none there has its robust form. -/
theorem snd_fileOn_iff {a : AddressInfo} {page : List AddressInfo} :
    (fileOn a page).2 = true ↔ ∀ e ∈ page, e.robust ≠ a.robust := by
  induction page with
  | nil => simp [fileOn]
  | cons e rest ih =>
      by_cases he : e.robust = a.robust
      · simp [fileOn, he]
      · simp [fileOn, he, ih]

/-! ## All pages -/

theorem find?_eq_none_of_lt {key : String} {pages : List (String × List AddressInfo)}
    (h : ∀ entry ∈ pages, key < entry.1) : pages.find? (·.1 = key) = none := by
  apply List.find?_eq_none.mpr
  intro entry hentry heq
  exact String.lt_irrefl key (of_decide_eq_true heq ▸ h entry hentry)

/-- A record changes the page of its own key only. -/
theorem get_add {book : AddressBook} (h : Ordered book.pages) (a : AddressInfo)
    (key : String) :
    (book.add a).get key =
      if a.key = key then addTo a (book.get key) else book.get key := by
  obtain ⟨pages⟩ := book
  simp only [add_eq, get]
  induction pages with
  | nil => by_cases hk : a.key = key <;> simp [hk]
  | cons first rest ih =>
      obtain ⟨other, page⟩ := first
      have hrest := ih h.tail
      by_cases heq : a.key = other
      · by_cases hk : other = key
        · simp [heq, hk]
        · simp [heq, hk]
      · by_cases hlt : a.key < other
        · have hbeyond : ∀ entry ∈ (other, page) :: rest, a.key < entry.1 := by
            refine List.forall_mem_cons.mpr ⟨hlt, ?_⟩
            intro entry hentry
            exact String.lt_trans hlt (h.lt_of_mem hentry)
          by_cases hk : a.key = key
          · subst hk
            simp [heq, hlt, find?_eq_none_of_lt hbeyond]
          · simp [heq, hlt, hk]
        · by_cases hk : other = key
          · subst hk
            simp [heq, hlt]
          · simpa [heq, hlt, hk] using hrest

/-- A record is a further one if none of its key has its robust form. -/
theorem snd_insert_iff {book : AddressBook} (h : Ordered book.pages) (a : AddressInfo) :
    (book.insert a).2 = true ↔ ∀ e ∈ book.get a.key, e.robust ≠ a.robust := by
  obtain ⟨pages⟩ := book
  simp only [insert, get]
  induction pages with
  | nil => simp [fileAmong]
  | cons first rest ih =>
      obtain ⟨key, page⟩ := first
      by_cases heq : a.key = key
      · simp [fileAmong, heq, snd_fileOn_iff]
      · by_cases hlt : a.key < key
        · have hbeyond : ∀ entry ∈ (key, page) :: rest, a.key < entry.1 :=
            h.forall_lt_of_lt hlt
          simp [fileAmong, heq, hlt, find?_eq_none_of_lt hbeyond]
        · simpa [fileAmong, heq, hlt, Ne.symm heq] using ih h.tail

/-- Filed one by one, records make the page of each key. -/
theorem get_ofList (infos : List AddressInfo) (key : String) :
    (ofList infos).get key = pageOf infos key := by
  induction infos using List.reverseRecOn with
  | nil => rfl
  | append_singleton front a ih =>
      rw [ofList_concat, get_add (ordered_ofList front), ih]
      by_cases h : a.key = key
      · subst h
        rw [if_pos rfl, addTo_pageOf]
      · rw [if_neg h, pageOf_concat_of_ne front h]

theorem mem_keys_addPage_iff {a : AddressInfo} {pages : List (String × List AddressInfo)}
    {key : String} :
    key ∈ (addPage a pages).map Prod.fst ↔ key = a.key ∨ key ∈ pages.map Prod.fst := by
  induction pages with
  | nil => simp
  | cons first rest ih => grind

theorem mem_keys_ofList_iff {infos : List AddressInfo} {key : String} :
    key ∈ (ofList infos).pages.map Prod.fst ↔ key ∈ infos.map AddressInfo.key := by
  induction infos using List.reverseRecOn with
  | nil => simp [ofList, empty]
  | append_singleton front a ih =>
      rw [ofList_concat, add_eq, mem_keys_addPage_iff, ih, List.map_append, List.mem_append,
        List.map_singleton, List.mem_singleton, or_comm]

/-! ## Whole books -/

/-- What a book holds of some records. -/
structure Collects (book : AddressBook) (infos : List AddressInfo) : Prop where
  /-- There is one record for each place at which something was filed. -/
  nodup_places : (book.toList.map place).Nodup
  mem_places_iff : ∀ p, p ∈ book.toList.map place ↔ p ∈ infos.map place
  /-- Records are listed by rising key, -/
  rising : (book.toList.map AddressInfo.key).Pairwise (· ≤ ·)
  /-- and those of one key by when something was first filed at their places. -/
  by_arrival : ∀ key, (book.toList.filter (·.key = key)).map place = placesOf infos key
  /-- A record has of each field the first value that was filed at its place. -/
  gathers : ∀ info ∈ book.toList, info = gather (filedAt infos info.place)
  /-- The key of a record is the one that it is stored under. -/
  key_of_mem : ∀ entry ∈ book.pages, ∀ info ∈ entry.2, info.key = entry.1
  get_eq : ∀ key, book.get key = book.toList.filter (·.key = key)
  size_eq : book.size = (infos.map place).toFinset.card
  isEmpty_iff : book.isEmpty = true ↔ book.size = 0

/-- The records of a key are those of its page. -/
theorem filter_key_toList {book : AddressBook} (h : Ordered book.pages) (key : String) :
    book.toList.filter (·.key = key) = book.get key := by
  obtain ⟨pages⟩ := book
  simp only [toList, get]
  induction pages with
  | nil => rfl
  | cons first rest ih =>
      have hfirst := h.filed first List.mem_cons_self
      have hrest := ih h.tail
      rw [List.flatMap_cons, List.filter_append, hrest]
      by_cases hk : first.1 = key
      · have hbeyond : ∀ entry ∈ rest, key < entry.1 := fun entry hentry =>
          hk ▸ h.lt_of_mem hentry
        have hall : first.2.filter (·.key = key) = first.2 := by
          apply List.filter_eq_self.mpr
          intro info hinfo
          exact decide_eq_true ((hfirst info hinfo).trans hk)
        simp [hall, hk, find?_eq_none_of_lt hbeyond]
      · have hnone : first.2.filter (·.key = key) = [] := by
          apply List.filter_eq_nil_iff.mpr
          intro info hinfo hkey
          exact hk ((hfirst info hinfo).symm.trans (of_decide_eq_true hkey))
        simp [hnone, hk]

theorem pairwise_key_toList {book : AddressBook} (h : Ordered book.pages) :
    (book.toList.map AddressInfo.key).Pairwise (· ≤ ·) := by
  obtain ⟨pages⟩ := book
  simp only [toList]
  induction pages with
  | nil => exact .nil
  | cons first rest ih =>
      have hfirst := h.filed first List.mem_cons_self
      rw [List.flatMap_cons, List.map_append]
      refine List.pairwise_append.mpr ⟨?_, ih h.tail, ?_⟩
      · rw [List.map_congr_left hfirst, List.map_const']
        exact List.pairwise_replicate.mpr (.inr (String.le_refl first.1))
      · intro key hkey other hother
        obtain ⟨info, hinfo, rfl⟩ := List.mem_map.mp hkey
        obtain ⟨later, hlater, rfl⟩ := List.mem_map.mp hother
        obtain ⟨entry, hentry, hmem⟩ := List.mem_flatMap.mp hlater
        rw [hfirst info hinfo, h.filed entry (List.mem_cons_of_mem _ hentry) later hmem]
        exact String.not_lt.mp (String.lt_asymm (h.lt_of_mem hentry))

/-- The places in a book, those of one key taken by themselves. -/
theorem filter_map_place_toList (infos : List AddressInfo) (key : String) :
    ((ofList infos).toList.map place).filter (·.1 = key) = placesOf infos key := by
  calc ((ofList infos).toList.map place).filter (·.1 = key)
      = ((ofList infos).toList.filter (·.key = key)).map place := by
        rw [List.filter_map]
        rfl
    _ = placesOf infos key := by
        rw [filter_key_toList (ordered_ofList infos), get_ofList, map_place_pageOf]

theorem mem_map_place_toList_iff {infos : List AddressInfo} {p : String × String} :
    p ∈ (ofList infos).toList.map place ↔ p ∈ infos.map place := by
  calc p ∈ (ofList infos).toList.map place
    _ ↔ p ∈ ((ofList infos).toList.map place).filter (·.1 = p.1) := by simp
    _ ↔ p ∈ placesOf infos p.1 := by rw [filter_map_place_toList]
    _ ↔ p ∈ infos.map place := by simp [mem_placesOf_iff]

theorem nodup_map_place_toList (infos : List AddressInfo) :
    ((ofList infos).toList.map place).Nodup := by
  apply List.nodup_iff_count_le_one.mpr
  intro p
  rw [← List.count_filter (p := (·.1 = p.1)) (by simp), filter_map_place_toList]
  exact List.nodup_iff_count_le_one.mp (nodup_placesOf infos p.1) p

theorem eq_gather_of_mem_toList {infos : List AddressInfo} {info : AddressInfo}
    (h : info ∈ (ofList infos).toList) : info = gather (filedAt infos info.place) := by
  have hpage : info ∈ pageOf infos info.key := by
    rw [← get_ofList, ← filter_key_toList (ordered_ofList infos)]
    exact List.mem_filter.mpr ⟨h, by simp⟩
  obtain ⟨p, hp, rfl⟩ := List.mem_map.mp hpage
  rw [place_gather_filedAt (mem_placesOf_iff.mp hp).1]

theorem size_ofList (infos : List AddressInfo) :
    (ofList infos).size = (infos.map place).toFinset.card := by
  have hsame : (infos.map place).toFinset = ((ofList infos).toList.map place).toFinset := by
    ext p
    rw [List.mem_toFinset, List.mem_toFinset, mem_map_place_toList_iff]
  rw [hsame, List.toFinset_card_of_nodup (nodup_map_place_toList infos), List.length_map, size]

theorem isEmpty_ofList_iff {infos : List AddressInfo} :
    (ofList infos).isEmpty = true ↔ infos = [] := by
  have hkeys : (ofList infos).pages.map Prod.fst = [] ↔ infos.map AddressInfo.key = [] := by
    rw [List.eq_nil_iff_forall_not_mem, List.eq_nil_iff_forall_not_mem]
    exact forall_congr' fun key => not_congr mem_keys_ofList_iff
  rw [isEmpty, List.isEmpty_iff]
  simpa using hkeys

/-- To insert a record tells if its place is new. -/
theorem snd_insert_ofList_iff {infos : List AddressInfo} {info : AddressInfo} :
    ((ofList infos).insert info).2 = true ↔ info.place ∉ infos.map place := by
  have hpage : info.place ∈ ((ofList infos).get info.key).map place ↔
      info.place ∈ infos.map place := by
    rw [get_ofList, map_place_pageOf, mem_placesOf_iff]
    exact and_iff_left rfl
  rw [snd_insert_iff (ordered_ofList infos), ← hpage, List.mem_map, not_exists]
  refine forall_congr' fun other => ?_
  rw [not_and]
  refine imp_congr_right fun hother => not_congr ?_
  have hkey : other.key = info.key := by
    rw [← filter_key_toList (ordered_ofList infos)] at hother
    exact of_decide_eq_true (List.mem_filter.mp hother).2
  simp [place, hkey]

/-- A book in which records were filed one by one holds one record for each pair of a key and a
robust form, with the first value of each field, by rising key and then by first arrival. And to
insert the next record tells if it is a further one, and that it is exactly if its pair is new. -/
theorem collects_ofList (infos : List AddressInfo) :
    Collects (ofList infos) infos ∧ ∀ info,
      ((ofList infos).insert info).1 = ofList (infos ++ [info]) ∧
      (((ofList infos).insert info).2 = true ↔ info.place ∉ infos.map place) ∧
      ((ofList infos).insert info).1.size =
        (ofList infos).size + if ((ofList infos).insert info).2 then 1 else 0 := by
  have hordered := ordered_ofList infos
  refine ⟨⟨nodup_map_place_toList infos, fun p => mem_map_place_toList_iff,
    pairwise_key_toList hordered, ?_, fun info => eq_gather_of_mem_toList, hordered.filed,
    fun key => (filter_key_toList hordered key).symm, size_ofList infos, ?_⟩, ?_⟩
  · intro key
    rw [filter_key_toList hordered, get_ofList, map_place_pageOf]
  · rw [isEmpty_ofList_iff, size_ofList, Finset.card_eq_zero, List.toFinset_eq_empty_iff,
      List.map_eq_nil_iff]
  · intro info
    have hinserted : ((ofList infos).insert info).1 = ofList (infos ++ [info]) :=
      (ofList_concat infos info).symm
    have hadded : ((infos ++ [info]).map place).toFinset =
        Insert.insert info.place (infos.map place).toFinset := by
      rw [List.map_append, List.toFinset_append, Finset.union_comm]
      rfl
    refine ⟨hinserted, snd_insert_ofList_iff, ?_⟩
    rw [hinserted, size_ofList, size_ofList, hadded, Finset.card_insert_eq_ite]
    simp only [snd_insert_ofList_iff, List.mem_toFinset]
    split <;> rfl

/-! ## Records told by their keys -/

/-- Where the key of a record tells all of it, the record stands alone under its key. -/
theorem get_ofList_of_key {infos : List AddressInfo} {a : AddressInfo} (ha : a ∈ infos)
    (h : ∀ info ∈ infos, info.key = a.key → info = a) : (ofList infos).get a.key = [a] := by
  have hplaces : placesOf infos a.key = [a.place] := by
    refine List.perm_singleton.mp ((List.perm_ext_iff_of_nodup (nodup_placesOf infos a.key)
      (List.nodup_singleton _)).mpr fun p => ?_)
    rw [mem_placesOf_iff, List.mem_singleton]
    constructor
    · rintro ⟨hp, hkey⟩
      obtain ⟨info, hinfo, rfl⟩ := List.mem_map.mp hp
      rw [h info hinfo hkey]
    · rintro rfl
      exact ⟨List.mem_map_of_mem ha, rfl⟩
  have hfiled : gather (filedAt infos a.place) = a := by
    refine gather_eq_of_forall_eq (List.ne_nil_of_mem (List.mem_filter.mpr ⟨ha, by simp⟩))
      fun info hinfo => ?_
    obtain ⟨hmem, hplace⟩ := List.mem_filter.mp hinfo
    exact h info hmem (congrArg Prod.fst (of_decide_eq_true hplace))
  rw [get_ofList, pageOf, hplaces, List.map_singleton, hfiled]

/-- Where keys tell all of their records, the book has exactly the records that were filed. -/
theorem mem_toList_ofList_iff {infos : List AddressInfo}
    (h : ∀ a ∈ infos, ∀ b ∈ infos, a.key = b.key → a = b) {info : AddressInfo} :
    info ∈ (ofList infos).toList ↔ info ∈ infos := by
  have hget {a : AddressInfo} (ha : a ∈ infos) :
      (ofList infos).toList.filter (·.key = a.key) = [a] := by
    rw [filter_key_toList (ordered_ofList infos)]
    exact get_ofList_of_key ha fun b hb hkey => h b hb a ha hkey
  constructor
  · intro hinfo
    obtain ⟨a, ha, hplace⟩ := List.mem_map.mp
      (mem_map_place_toList_iff.mp (List.mem_map_of_mem (f := place) hinfo))
    have hkey : info.key = a.key := congrArg Prod.fst hplace.symm
    have hmem : info ∈ (ofList infos).toList.filter (·.key = a.key) :=
      List.mem_filter.mpr ⟨hinfo, decide_eq_true hkey⟩
    rw [hget ha, List.mem_singleton] at hmem
    rwa [hmem]
  · intro hinfo
    have hmem : info ∈ (ofList infos).toList.filter (·.key = info.key) := by
      rw [hget hinfo]
      exact List.mem_singleton_self info
    exact (List.mem_filter.mp hmem).1

end AddressBook
end TraceLedger
