import TraceLedger.AddressInfo
import TraceLedger.Json.Reader

/-! # Address books

All that was learnt of addresses, filed by their short form in rising order. One short form may
have several robust ones; of each pair there is one record. -/

namespace TraceLedger

/-- Address records by key. -/
structure AddressBook where
  pages : List (String × List AddressInfo)
deriving DecidableEq

namespace AddressBook

def empty : AddressBook := ⟨[]⟩

/-- Files a record on the page of its key: completes the one with the same robust form, or puts
it last. The flag tells if it is a further record. -/
def fileOn (info : AddressInfo) : List AddressInfo → List AddressInfo × Bool
  | [] => ([info], true)
  | other :: rest =>
    if other.robust = info.robust then (other.fillFrom info :: rest, false)
    else
      let (rest, isNew) := fileOn info rest
      (other :: rest, isNew)

/-- Files a record among the pages, on a page of its own if its key has none. -/
def fileAmong (info : AddressInfo) :
    List (String × List AddressInfo) → List (String × List AddressInfo) × Bool
  | [] => ([(info.key, [info])], true)
  | (key, page) :: rest =>
    if info.key = key then
      let (page, isNew) := fileOn info page
      ((key, page) :: rest, isNew)
    else if info.key < key then ((info.key, [info]) :: (key, page) :: rest, true)
    else
      let (rest, isNew) := fileAmong info rest
      ((key, page) :: rest, isNew)

/-- The records of a key. -/
def get (book : AddressBook) (key : String) : List AddressInfo :=
  match book.pages.find? (·.1 = key) with
  | some (_, page) => page
  | none => []

/-- Adds a record, or completes the one that is there already. Gives the book and whether the
record is a further one. -/
def insert (book : AddressBook) (info : AddressInfo) : AddressBook × Bool :=
  let (pages, isNew) := fileAmong info book.pages
  (⟨pages⟩, isNew)

/-- The book with a record inserted. -/
def add (book : AddressBook) (info : AddressInfo) : AddressBook := (book.insert info).1

/-- All records, by rising key. -/
def toList (book : AddressBook) : List AddressInfo := book.pages.flatMap Prod.snd

/-- The book of the given records. -/
def ofList (infos : List AddressInfo) : AddressBook := infos.foldl add empty

/-- Adds the records of another book. -/
def extend (book other : AddressBook) : AddressBook := other.toList.foldl add book

/-- Number of records. -/
def size (book : AddressBook) : Nat := book.toList.length

def isEmpty (book : AddressBook) : Bool := book.pages.isEmpty

/-- The JSON form: the pages as one object. -/
def toJson (book : AddressBook) : Json :=
  .object [("entries", .object (book.pages.map fun (key, page) =>
    (key, .list (page.map Writable.toJson))))]

/-- Files a page under its key. -/
def filePage (key : String) (page : List AddressInfo) :
    List (String × List AddressInfo) → List (String × List AddressInfo)
  | [] => [(key, page)]
  | (other, old) :: rest =>
    if key = other then (key, page) :: rest
    else if key < other then (key, page) :: (other, old) :: rest
    else (other, old) :: filePage key page rest

open Json.Reader in
/-- Reads the JSON form. -/
def ofDoc? (doc : Json.Doc) : Option AddressBook :=
  let reader : Json.Reader (Values [List (String × List AddressInfo)]) :=
    record (.cons "entries" (table (list Readable.read)) none .nil)
  match reader (doc.depth + 1) doc with
  | some (pages, ()) => some ⟨pages.foldl (fun done (key, page) => filePage key page done) []⟩
  | none => none

end AddressBook
end TraceLedger
