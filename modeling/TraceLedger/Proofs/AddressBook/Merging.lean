import TraceLedger.AddressBook

/-! # Merging address books

To file records one by one, or to file them in a book of their own first and to add that book
then, comes to the same. Records of different keys do not get in each other's way, and those of
one key only in the order in which their robust forms first came. -/

namespace TraceLedger

namespace AddressInfo

theorem orText_assoc (a b c : String) : orText (orText a b) c = orText a (orText b c) := by
  unfold orText
  by_cases ha : a.isEmpty = true
  · simp only [ha, if_true]
  · simp only [ha, if_false, Bool.false_eq_true]

theorem fillFrom_assoc (a b c : AddressInfo) :
    (a.fillFrom b).fillFrom c = a.fillFrom (b.fillFrom c) := by
  simp only [fillFrom, orText_assoc, AddressInfo.mk.injEq, true_and]
  exact ⟨by cases a.ethAddress <;> rfl, by cases a.creationTxHash <;> rfl⟩

theorem fillFrom_self (a : AddressInfo) : a.fillFrom a = a := by
  obtain ⟨short, robust, actorCode, actorType, ethAddress, creationTxHash⟩ := a
  simp [fillFrom, orText]

theorem robust_fillFrom {a b : AddressInfo} (h : a.robust = b.robust) :
    (a.fillFrom b).robust = a.robust := by
  simp [fillFrom, orText, h]

/-- What completes a record does not move it to another page. -/
theorem key_fillFrom {a b : AddressInfo} (hk : a.key = b.key) (hr : a.robust = b.robust) :
    (a.fillFrom b).key = a.key := by
  have hrobust := robust_fillFrom hr
  by_cases ha : a.short.isEmpty = true
  · calc (a.fillFrom b).key = orText b.short a.robust := by
          simp only [key, hrobust]
          simp [fillFrom, orText, ha]
      _ = b.key := by rw [hr]; rfl
      _ = a.key := hk.symm
  · simp [key, fillFrom, orText, ha]

end AddressInfo

namespace AddressBook

open AddressInfo

/-! ## One page -/

/-- The page of a key with a record filed on it. -/
def addTo (info : AddressInfo) (page : List AddressInfo) : List AddressInfo :=
  (fileOn info page).1

@[simp, grind =]
theorem addTo_nil (info : AddressInfo) : addTo info [] = [info] := rfl

@[simp, grind =]
theorem addTo_cons (info other : AddressInfo) (rest : List AddressInfo) :
    addTo info (other :: rest) =
      if other.robust = info.robust then other.fillFrom info :: rest
      else other :: addTo info rest := by
  unfold addTo
  rw [fileOn]
  split <;> rfl

theorem addTo_fillFrom {a b : AddressInfo} (h : a.robust = b.robust) (page : List AddressInfo) :
    addTo (a.fillFrom b) page = addTo b (addTo a page) := by
  induction page with
  | nil => simp [h]
  | cons e rest ih =>
      by_cases he : e.robust = a.robust
      · have hfilled : (e.fillFrom a).robust = b.robust := by rw [robust_fillFrom he, he, h]
        simp [robust_fillFrom h, he, hfilled, fillFrom_assoc]
      · simp [robust_fillFrom h, he, h ▸ he, ih]

/-- Two robust forms of which one is there already may be filed in either order. -/
theorem addTo_comm {a b : AddressInfo} (h : a.robust ≠ b.robust) {page : List AddressInfo}
    (ha : ∃ e ∈ page, e.robust = a.robust) :
    addTo a (addTo b page) = addTo b (addTo a page) := by
  induction page with
  | nil => simp at ha
  | cons e rest ih =>
      by_cases hea : e.robust = a.robust
      · have heb : e.robust ≠ b.robust := by rw [hea]; exact h
        simp [hea, h, robust_fillFrom hea]
      · have hrest : ∃ e ∈ rest, e.robust = a.robust := by simpa [hea] using ha
        by_cases heb : e.robust = b.robust
        · simp [heb, h.symm, robust_fillFrom heb]
        · simp [hea, heb, ih hrest]

theorem exists_robust_addTo (a : AddressInfo) (page : List AddressInfo) :
    ∃ e ∈ addTo a page, e.robust = a.robust := by
  induction page with
  | nil => simp
  | cons e rest ih =>
      by_cases he : e.robust = a.robust
      · exact ⟨e.fillFrom a, by simp [addTo_cons, he], by rw [robust_fillFrom he, he]⟩
      · simpa [he] using ih

theorem exists_robust_addTo_of_exists {a : AddressInfo} (b : AddressInfo)
    {page : List AddressInfo} (h : ∃ e ∈ page, e.robust = a.robust) :
    ∃ e ∈ addTo b page, e.robust = a.robust := by
  induction page with
  | nil => simp at h
  | cons e rest ih =>
      by_cases he : e.robust = b.robust
      · simpa [he, robust_fillFrom he] using h
      · by_cases hea : e.robust = a.robust
        · exact ⟨e, by simp [he], hea⟩
        · simpa [he, hea] using ih (by simpa [hea] using h)

/-! ## All pages -/

/-- The pages with a record filed among them. -/
def addPage (info : AddressInfo) (pages : List (String × List AddressInfo)) :
    List (String × List AddressInfo) :=
  (fileAmong info pages).1

@[simp, grind =]
theorem addPage_nil (info : AddressInfo) : addPage info [] = [(info.key, [info])] := rfl

@[simp, grind =]
theorem addPage_cons (info : AddressInfo) (entry : String × List AddressInfo)
    (rest : List (String × List AddressInfo)) :
    addPage info (entry :: rest) =
      if info.key = entry.1 then (entry.1, addTo info entry.2) :: rest
      else if info.key < entry.1 then (info.key, [info]) :: entry :: rest
      else entry :: addPage info rest := by
  unfold addPage
  rw [fileAmong]
  split
  next => rfl
  next => split <;> rfl

theorem add_eq (book : AddressBook) (info : AddressInfo) :
    book.add info = ⟨addPage info book.pages⟩ := rfl

/-- A record is on the page that another one of its key and robust form would be added to. -/
def Present (a : AddressInfo) : List (String × List AddressInfo) → Prop
  | [] => False
  | (key, page) :: rest =>
    if a.key = key then ∃ e ∈ page, e.robust = a.robust
    else if a.key < key then False
    else Present a rest

theorem addPage_fillFrom {a b : AddressInfo} (hk : a.key = b.key) (hr : a.robust = b.robust)
    (pages : List (String × List AddressInfo)) :
    addPage (a.fillFrom b) pages = addPage b (addPage a pages) := by
  have hkey := key_fillFrom hk hr
  induction pages with
  | nil => simp [hkey, ← hk, hr]
  | cons entry rest ih =>
      by_cases heq : a.key = entry.1
      · simp [hkey, ← hk, heq, addTo_fillFrom hr]
      · by_cases hlt : a.key < entry.1
        · simp [hkey, ← hk, heq, hlt, hr]
        · simp [hkey, ← hk, heq, hlt, ih]

theorem present_addPage (a : AddressInfo) (pages : List (String × List AddressInfo)) :
    Present a (addPage a pages) := by
  induction pages with
  | nil => simp [Present]
  | cons entry rest ih =>
      by_cases heq : a.key = entry.1
      · simpa [Present, heq] using exists_robust_addTo a entry.2
      · by_cases hlt : a.key < entry.1
        · simp [Present, heq, hlt]
        · simpa [Present, heq, hlt] using ih

/-- Records of different keys may be filed in either order. -/
theorem addPage_comm {a b : AddressInfo} (h : a.key ≠ b.key)
    (pages : List (String × List AddressInfo)) :
    addPage a (addPage b pages) = addPage b (addPage a pages) := by
  induction pages with
  | nil => grind
  | cons entry rest ih => grind

theorem present_addPage_of_present {a : AddressInfo} (b : AddressInfo)
    {pages : List (String × List AddressInfo)} (h : Present a pages) :
    Present a (addPage b pages) := by
  induction pages with
  | nil => cases h
  | cons entry rest ih =>
      by_cases hk : a.key = b.key
      · by_cases heq : a.key = entry.1
        · have hpage : ∃ e ∈ entry.2, e.robust = a.robust := by simpa [Present, heq] using h
          simpa [Present, ← hk, heq] using exists_robust_addTo_of_exists b hpage
        · by_cases hlt : a.key < entry.1
          · simp [Present, heq, hlt] at h
          · simpa [Present, ← hk, heq, hlt] using
              ih (by simpa [Present, heq, hlt] using h)
      · grind [Present]

/-- A record that completes another one may be filed before or after one of another robust
form. -/
theorem addPage_comm_of_present {a b : AddressInfo} (h : a.robust ≠ b.robust)
    {pages : List (String × List AddressInfo)} (ha : Present a pages) :
    addPage a (addPage b pages) = addPage b (addPage a pages) := by
  by_cases hk : a.key = b.key
  · induction pages with
    | nil => cases ha
    | cons entry rest ih =>
        by_cases heq : a.key = entry.1
        · have hpage : ∃ e ∈ entry.2, e.robust = a.robust := by simpa [Present, heq] using ha
          simp [← hk, heq, addTo_comm h hpage]
        · by_cases hlt : a.key < entry.1
          · simp [Present, heq, hlt] at ha
          · simp [← hk, heq, hlt, ih (by simpa [Present, heq, hlt] using ha)]
  · exact addPage_comm hk pages

/-! ## Books in order -/

/-- Pages are in the order of their keys; what is on a page has its key, and each robust form is
there once. -/
structure Ordered (pages : List (String × List AddressInfo)) : Prop where
  rising : pages.Pairwise fun first second => first.1 < second.1
  filed : ∀ entry ∈ pages, ∀ info ∈ entry.2, info.key = entry.1
  single : ∀ entry ∈ pages, entry.2.Pairwise fun first second => first.robust ≠ second.robust

theorem Ordered.tail {entry : String × List AddressInfo}
    {rest : List (String × List AddressInfo)} (h : Ordered (entry :: rest)) : Ordered rest :=
  ⟨(List.pairwise_cons.mp h.rising).2, fun e he => h.filed e (List.mem_cons_of_mem _ he),
    fun e he => h.single e (List.mem_cons_of_mem _ he)⟩

theorem Ordered.lt_of_mem {entry e : String × List AddressInfo}
    {rest : List (String × List AddressInfo)} (h : Ordered (entry :: rest)) (he : e ∈ rest) :
    entry.1 < e.1 :=
  (List.pairwise_cons.mp h.rising).1 e he

/-- What is before the first page is before all pages. -/
theorem Ordered.forall_lt_of_lt {entry : String × List AddressInfo} {key : String}
    {rest : List (String × List AddressInfo)} (h : Ordered (entry :: rest)) (hlt : key < entry.1) :
    ∀ e ∈ entry :: rest, key < e.1 := by
  refine List.forall_mem_cons.mpr ⟨hlt, ?_⟩
  intro e he
  exact String.lt_trans hlt (h.lt_of_mem he)

theorem key_of_mem_addTo {a : AddressInfo} {key : String} (ha : a.key = key)
    {page : List AddressInfo} (h : ∀ info ∈ page, info.key = key) :
    ∀ info ∈ addTo a page, info.key = key := by
  induction page with
  | nil => simpa using ha
  | cons e rest ih =>
      have he := h e (by simp)
      have hrest := fun info hinfo => h info (List.mem_cons_of_mem e hinfo)
      by_cases hr : e.robust = a.robust
      · have hfilled := (key_fillFrom (he.trans ha.symm) hr).trans he
        simpa [hr, hfilled] using hrest
      · simpa [hr, he] using ih hrest

theorem robust_of_mem_addTo {a info : AddressInfo} {page : List AddressInfo}
    (h : info ∈ addTo a page) :
    info.robust = a.robust ∨ ∃ e ∈ page, info.robust = e.robust := by
  induction page with
  | nil => simp_all
  | cons e rest ih =>
      by_cases hr : e.robust = a.robust
      · simp only [addTo_cons, hr, if_true, List.mem_cons] at h
        rcases h with rfl | h
        · exact .inl (by rw [robust_fillFrom hr, hr])
        · exact .inr ⟨info, List.mem_cons_of_mem _ h, rfl⟩
      · simp only [addTo_cons, hr, if_false, List.mem_cons] at h
        rcases h with rfl | h
        · exact .inr ⟨info, List.mem_cons_self, rfl⟩
        · rcases ih h with h | ⟨e', he', h⟩
          · exact .inl h
          · exact .inr ⟨e', List.mem_cons_of_mem _ he', h⟩

theorem single_addTo (a : AddressInfo) {page : List AddressInfo}
    (h : page.Pairwise fun first second => first.robust ≠ second.robust) :
    (addTo a page).Pairwise fun first second => first.robust ≠ second.robust := by
  induction page with
  | nil => simp
  | cons e rest ih =>
      obtain ⟨he, hrest⟩ := List.pairwise_cons.mp h
      by_cases hr : e.robust = a.robust
      · simp only [addTo_cons, hr, if_true]
        refine List.pairwise_cons.mpr ⟨?_, hrest⟩
        intro info hinfo
        rw [robust_fillFrom hr]
        exact he info hinfo
      · simp only [addTo_cons, hr, if_false]
        refine List.pairwise_cons.mpr ⟨?_, ih hrest⟩
        intro info hinfo
        rcases robust_of_mem_addTo hinfo with h | ⟨e', he', h⟩
        · rw [h]; exact hr
        · rw [h]; exact he e' he'

theorem key_of_mem_addPage {a : AddressInfo} {entry : String × List AddressInfo}
    {pages : List (String × List AddressInfo)} (h : entry ∈ addPage a pages) :
    entry.1 = a.key ∨ ∃ e ∈ pages, entry.1 = e.1 := by
  induction pages with
  | nil => simp_all
  | cons first rest ih => grind

theorem ordered_addPage (a : AddressInfo) {pages : List (String × List AddressInfo)}
    (h : Ordered pages) : Ordered (addPage a pages) := by
  induction pages with
  | nil => exact ⟨by simp, by simp, by simp⟩
  | cons first rest ih =>
      obtain ⟨key, page⟩ := first
      have hfiled := h.filed (key, page) (by simp)
      have hsingle := h.single (key, page) (by simp)
      have hrest := h.tail
      by_cases heq : a.key = key
      · simp only [addPage_cons, heq, if_true]
        refine ⟨?_, ?_, ?_⟩
        · exact List.pairwise_cons.mpr (List.pairwise_cons.mp h.rising)
        · exact List.forall_mem_cons.mpr ⟨key_of_mem_addTo heq hfiled, hrest.filed⟩
        · exact List.forall_mem_cons.mpr ⟨single_addTo a hsingle, hrest.single⟩
      · by_cases hlt : a.key < key
        · simp only [addPage_cons, heq, hlt, if_true, if_false]
          refine ⟨?_, ?_, ?_⟩
          · exact List.pairwise_cons.mpr ⟨h.forall_lt_of_lt hlt, h.rising⟩
          · exact List.forall_mem_cons.mpr ⟨by simp, h.filed⟩
          · exact List.forall_mem_cons.mpr ⟨by simp, h.single⟩
        · simp only [addPage_cons, heq, hlt, if_false]
          have hadded := ih hrest
          refine ⟨?_, ?_, ?_⟩
          · refine List.pairwise_cons.mpr ⟨?_, hadded.rising⟩
            intro e he
            rcases key_of_mem_addPage he with hkey | ⟨e', he', hkey⟩
            · have hne : key ≠ a.key := fun hk => heq hk.symm
              have hle : key ≤ a.key := String.not_lt.mp hlt
              grind
            · rw [hkey]
              exact h.lt_of_mem he'
          · exact List.forall_mem_cons.mpr ⟨hfiled, hadded.filed⟩
          · exact List.forall_mem_cons.mpr ⟨hsingle, hadded.single⟩

/-! ## Books added to books -/

theorem add_fillFrom {a b : AddressInfo} (hk : a.key = b.key) (hr : a.robust = b.robust)
    (book : AddressBook) : book.add (a.fillFrom b) = (book.add a).add b := by
  simp only [add_eq, addPage_fillFrom hk hr]

/-- A record may be filed before others that it does not compete with for a place. -/
theorem foldl_add_comm {a : AddressInfo} {book : AddressBook} {infos : List AddressInfo}
    (h : ∀ e ∈ infos, a.key ≠ e.key ∨ Present a book.pages ∧ a.robust ≠ e.robust) :
    infos.foldl add (book.add a) = (infos.foldl add book).add a := by
  induction infos generalizing book with
  | nil => rfl
  | cons e rest ih =>
      have hswap : (book.add a).add e = (book.add e).add a := by
        rcases h e (by simp) with hk | ⟨ha, hr⟩
        · simp only [add_eq, addPage_comm hk]
        · simp only [add_eq, addPage_comm_of_present hr ha]
      simp only [List.foldl_cons, hswap]
      apply ih
      intro e' he'
      rcases h e' (List.mem_cons_of_mem e he') with hk | ⟨ha, hr⟩
      · exact .inl hk
      · exact .inr ⟨present_addPage_of_present e ha, hr⟩

theorem present_of_same {a b : AddressInfo} (hk : a.key = b.key) (hr : a.robust = b.robust)
    {pages : List (String × List AddressInfo)} (h : Present a pages) : Present b pages := by
  induction pages with
  | nil => cases h
  | cons entry rest ih =>
      simp only [Present, hk, hr] at h ⊢
      split
      next heq => simpa [heq] using h
      next heq =>
        split
        next hlt => simp [heq, hlt] at h
        next hlt => exact ih (by simpa [heq, hlt] using h)

/-- A page completed by a record adds what the page and then the record add. -/
theorem foldl_add_addTo {a : AddressInfo} {page : List AddressInfo}
    (hkey : ∀ e ∈ page, e.key = a.key)
    (hsingle : page.Pairwise fun first second => first.robust ≠ second.robust)
    (book : AddressBook) :
    (addTo a page).foldl add book = (page.foldl add book).add a := by
  induction page generalizing book with
  | nil => rfl
  | cons e rest ih =>
      obtain ⟨he, hrest⟩ := List.pairwise_cons.mp hsingle
      have hek := hkey e (by simp)
      by_cases hr : e.robust = a.robust
      · have hpresent : Present a (book.add e).pages :=
          present_of_same hek hr (present_addPage e book.pages)
        simp only [addTo_cons, hr, if_true, List.foldl_cons]
        rw [add_fillFrom hek hr]
        apply foldl_add_comm
        intro e' he'
        exact .inr ⟨hpresent, hr ▸ he e' he'⟩
      · simp only [addTo_cons, hr, if_false, List.foldl_cons]
        exact ih (fun e' he' => hkey e' (List.mem_cons_of_mem e he')) hrest _

theorem foldl_add_addPage {a : AddressInfo} {pages : List (String × List AddressInfo)}
    (h : Ordered pages) (book : AddressBook) :
    ((addPage a pages).flatMap Prod.snd).foldl add book =
      ((pages.flatMap Prod.snd).foldl add book).add a := by
  induction pages generalizing book with
  | nil => rfl
  | cons first rest ih =>
      obtain ⟨key, page⟩ := first
      have hfiled := h.filed (key, page) (by simp)
      have hbeyond (hk : a.key ≤ key) : ∀ e ∈ rest.flatMap Prod.snd, a.key ≠ e.key := by
        intro e he
        obtain ⟨entry, hentry, he⟩ := List.mem_flatMap.mp he
        have hlt := h.lt_of_mem hentry
        rw [h.filed entry (List.mem_cons_of_mem _ hentry) e he]
        grind
      by_cases heq : a.key = key
      -- On the page the record is filed in place; the pages behind it have greater keys.
      · simp only [addPage_cons, heq, if_true, List.flatMap_cons, List.foldl_append]
        rw [foldl_add_addTo (fun e he => (hfiled e he).trans heq.symm)
          (h.single (key, page) (by simp)) book]
        apply foldl_add_comm
        intro e he
        exact .inl (hbeyond (heq ▸ String.le_refl _) e he)
      · by_cases hlt : a.key < key
        · simp only [addPage_cons, heq, hlt, if_true, if_false, List.flatMap_cons, List.foldl_append,
            List.foldl_cons, List.foldl_nil]
          rw [← List.foldl_append, ← List.foldl_append]
          apply foldl_add_comm
          intro e he
          rcases List.mem_append.mp he with he | he
          · exact .inl (fun hk => heq (hk.trans (hfiled e he)))
          · exact .inl (hbeyond (String.not_lt.mp (String.lt_asymm hlt)) e he)
        · simp only [addPage_cons, heq, hlt, if_false, List.flatMap_cons, List.foldl_append]
          exact ih h.tail _

/-- To add a book that was given a record is to add the book and then to file the record. -/
theorem extend_add {other : AddressBook} (h : Ordered other.pages) (book : AddressBook)
    (a : AddressInfo) : book.extend (other.add a) = (book.extend other).add a :=
  foldl_add_addPage h book

theorem extend_foldl_add {other : AddressBook} (h : Ordered other.pages) (book : AddressBook)
    (infos : List AddressInfo) :
    book.extend (infos.foldl add other) = infos.foldl add (book.extend other) := by
  induction infos generalizing other with
  | nil => rfl
  | cons a rest ih =>
      have hadded : Ordered (other.add a).pages := ordered_addPage a h
      rw [List.foldl_cons, List.foldl_cons, ih hadded, extend_add h]

theorem ordered_empty : Ordered empty.pages := ⟨.nil, by simp [empty], by simp [empty]⟩

/-- To file records in a book is to add the book of these records. -/
theorem extend_ofList (book : AddressBook) (infos : List AddressInfo) :
    book.extend (ofList infos) = infos.foldl add book :=
  extend_foldl_add ordered_empty book infos

/-! ## Books of records

Books of the records that were filed in them are joined like the lists of these records, but a
book that is added to itself stays as it is. -/

theorem ofList_append (infos more : List AddressInfo) :
    ofList (infos ++ more) = more.foldl add (ofList infos) :=
  List.foldl_append

theorem ofList_concat (infos : List AddressInfo) (a : AddressInfo) :
    ofList (infos ++ [a]) = (ofList infos).add a :=
  ofList_append infos [a]

theorem ordered_foldl_add {book : AddressBook} (h : Ordered book.pages)
    (infos : List AddressInfo) : Ordered (infos.foldl add book).pages := by
  induction infos generalizing book with
  | nil => exact h
  | cons a rest ih => exact ih (ordered_addPage a h)

theorem ordered_ofList (infos : List AddressInfo) : Ordered (ofList infos).pages :=
  ordered_foldl_add ordered_empty infos

theorem ofList_append_eq_extend (infos more : List AddressInfo) :
    ofList (infos ++ more) = (ofList infos).extend (ofList more) := by
  rw [ofList_append, extend_ofList]

/-- A record that is on a page does not change it. -/
theorem addTo_of_mem {a : AddressInfo} {page : List AddressInfo}
    (hsingle : page.Pairwise fun first second => first.robust ≠ second.robust) (ha : a ∈ page) :
    addTo a page = page := by
  induction page with
  | nil => cases ha
  | cons e rest ih =>
      obtain ⟨he, hrest⟩ := List.pairwise_cons.mp hsingle
      rcases List.mem_cons.mp ha with rfl | ha
      · simp [fillFrom_self]
      · simp [he a ha, ih hrest ha]

theorem addPage_of_mem {a : AddressInfo} {pages : List (String × List AddressInfo)}
    (h : Ordered pages) (ha : a ∈ pages.flatMap Prod.snd) : addPage a pages = pages := by
  induction pages with
  | nil => cases ha
  | cons first rest ih =>
      obtain ⟨key, page⟩ := first
      rw [List.flatMap_cons] at ha
      rcases List.mem_append.mp ha with ha | ha
      · have hkey : a.key = key := h.filed (key, page) List.mem_cons_self a ha
        simp [hkey, addTo_of_mem (h.single (key, page) List.mem_cons_self) ha]
      · obtain ⟨entry, hentry, hmem⟩ := List.mem_flatMap.mp ha
        have hkey : a.key = entry.1 := h.filed entry (List.mem_cons_of_mem _ hentry) a hmem
        have hlt : key < a.key := hkey ▸ h.lt_of_mem hentry
        have hne : a.key ≠ key := fun heq => String.lt_irrefl key (heq ▸ hlt)
        simp [hne, String.lt_asymm hlt, ih h.tail ha]

theorem foldl_add_of_subset {book : AddressBook} (h : Ordered book.pages)
    {infos : List AddressInfo} (hinfos : ∀ a ∈ infos, a ∈ book.toList) :
    infos.foldl add book = book := by
  induction infos with
  | nil => rfl
  | cons a rest ih =>
      have ha : book.add a = book := by
        rw [add_eq, addPage_of_mem h (hinfos a List.mem_cons_self)]
      rw [List.foldl_cons, ha, ih fun b hb => hinfos b (List.mem_cons_of_mem a hb)]

/-- To add the book of some records is to file these records. So books are added in any grouping,
the empty book adds nothing, and neither does a book that is added to itself. -/
theorem extend_joins_records (first second third : List AddressInfo) :
    let a := ofList first
    let b := ofList second
    let c := ofList third
    ofList (first ++ second) = a.extend b ∧
      (a.extend b).extend c = a.extend (b.extend c) ∧
      empty.extend a = a ∧ a.extend empty = a ∧ a.extend a = a := by
  intro a b c
  refine ⟨ofList_append_eq_extend first second, ?_, ?_, rfl, ?_⟩
  · calc (a.extend b).extend c
        = ofList ((first ++ second) ++ third) := by
          rw [ofList_append_eq_extend, ofList_append_eq_extend]
      _ = a.extend (b.extend c) := by
          rw [List.append_assoc, ofList_append_eq_extend, ofList_append_eq_extend]
  · exact (ofList_append_eq_extend [] first).symm
  · exact foldl_add_of_subset (ordered_ofList first) fun _ ha => ha

end AddressBook
end TraceLedger
