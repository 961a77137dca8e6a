import SP42.Base.Json
import SP42.Citation.Web

/-!
Scan availability: which scan of a book the catalogue names, and which of them may
ground a citation.
-/
namespace SP42.Citation

/-- One scan that the availability lookup reported. -/
structure ScanItem where
  status : Text
  itemUrl : Text
  olEditionId : Option Text
  ocaid : Option Text
  deriving DecidableEq

structure ScanAvailability where
  exact : List ScanItem
  similar : List ScanItem
  deriving DecidableEq

def isFullAccess (status : Text) : Bool := status.map Char.toLower == "full access".toList

/-- The least exact item with a known scan: full access before the others, in order. -/
def ScanAvailability.groundableScan (availability : ScanAvailability) : Option ScanItem :=
  let known := availability.exact.filter fun item => item.ocaid.isSome
  (known.find? fun item => isFullAccess item.status).or known.head?

section Parsing

variable {Url : Type} (urls : UrlLibrary Url) (fromSlice : List UInt8 → Option Json)

/-- The scan that a record names. -/
def recordOcaid (record : Json) : Option Text :=
  match (record.pointer ["details", "details", "ocaid"]).bind Json.asStr with
  | some ocaid => some ocaid
  | none => do
      let ebooks ← record.pointer ["data", "ebooks"]
      let ebooks ← ebooks.asArray
      ebooks.findSome? fun ebook =>
        ((ebook.get "preview_url").bind Json.asStr).bind (extractOcaid urls)

abbrev Records := Option (List (String × Json))

/-- The scan of the only record that names one. -/
def soleRecordOcaid (records : Records) : Option Text :=
  records.bind fun map =>
    match map.filterMap fun member => recordOcaid urls member.2 with
    | [first] => some first
    | _ => none

def fromRecordOcaid (records : Records) (item : Json) : Option Text := do
  let key ← (item.get "fromRecord").bind Json.asStr
  let map ← records
  let record ← map.lookup (String.ofList key)
  recordOcaid urls record

def itemUrlOf (item : Json) : Option Text := (item.get "itemURL").bind Json.asStr

def isExact (item : Json) : Bool :=
  (item.get "match").bind Json.asStr == some "exact".toList

/-- The reported scan of an item with a URL. -/
def scanItem (records : Records) (item : Json) (itemUrl : Text) : ScanItem where
  status := ((item.get "status").bind Json.asStr).getD []
  itemUrl := itemUrl
  olEditionId := (item.get "ol-edition-id").bind Json.asStr
  ocaid := ((extractOcaid urls itemUrl).or (fromRecordOcaid urls records item)).or
    (soleRecordOcaid urls records)

/-- The loop over the items: an item without a URL is left out. -/
def collectScans (records : Records) : List Json → ScanAvailability
  | [] => { exact := [], similar := [] }
  | item :: rest =>
      let availability := collectScans records rest
      match itemUrlOf item with
      | none => availability
      | some itemUrl =>
          let scan := scanItem urls records item itemUrl
          if isExact item then { availability with exact := scan :: availability.exact }
          else { availability with similar := scan :: availability.similar }

def recordsOf (members : List (String × Json)) : Records :=
  (members.lookup "records").bind Json.asObject

def parseScanAvailability (body : List UInt8) : Option ScanAvailability := do
  let parsed ← fromSlice body
  let members ← parsed.asObject
  match members.lookup "items" with
  | none => some { exact := [], similar := [] }
  | some items => (items.asArray).map (collectScans urls (recordsOf members))

end Parsing

section Attribution

variable {Url : Type} (urls : UrlLibrary Url) (records : Records) (items : List Json)

/-- The record that an item names. -/
def fromRecord (item : Json) : Option Text := (item.get "fromRecord").bind Json.asStr

/-- The item itself names the scan, in its URL or through its record; or it has no
`fromRecord` and only one record of the response names a scan. -/
def Vouches (item : Json) (ocaid : Text) : Prop :=
  (itemUrlOf item).bind (extractOcaid urls) = some ocaid ∨
    fromRecordOcaid urls records item = some ocaid ∨
    item.get "fromRecord" = none ∧ soleRecordOcaid urls records = some ocaid

/-- Some exact item of the response vouches for the scan. -/
def Attributed (ocaid : Text) : Prop :=
  ∃ item ∈ items, isExact item = true ∧ Vouches urls records item ocaid

/-- The scan that the availability would ground on is attributed. -/
def Attributes (availability : ScanAvailability) : Prop :=
  ∀ item, availability.groundableScan = some item →
    ∃ ocaid, item.ocaid = some ocaid ∧ Attributed urls records items ocaid

/-- Some exact item names the record. -/
def NamedExactly (key : Text) : Prop :=
  ∃ item ∈ items, isExact item = true ∧ fromRecord item = some key

/-- The exact items that have a URL. -/
def listed : List Json := items.filter fun item => isExact item && (itemUrlOf item).isSome

/-- The scan of an item is not that of a record which no exact item names, unless the item
has no `fromRecord` or names the scan itself. -/
def Unmixed (item : Json) (scan : ScanItem) : Prop :=
  ∀ key record ocaid, (∃ map, records = some map ∧ (key, record) ∈ map) →
    recordOcaid urls record = some ocaid → ¬ NamedExactly items key.toList →
    item.get "fromRecord" ≠ none → (itemUrlOf item).bind (extractOcaid urls) ≠ some ocaid →
    fromRecordOcaid urls records item ≠ some ocaid → scan.ocaid ≠ some ocaid

/-- An item that has a `fromRecord` but names no scan, neither through it nor in its URL. -/
def Stray (item : Json) : Prop :=
  item.get "fromRecord" ≠ none ∧ fromRecordOcaid urls records item = none ∧
    (itemUrlOf item).bind (extractOcaid urls) = none

/-- If an exact item is stray, then some exact item names the record of the fallback. -/
def FallbackNamed : Prop :=
  ∀ item ∈ listed items, Stray urls records item →
    ∀ key record, (∃ map, records = some map ∧ (key, record) ∈ map) →
      recordOcaid urls record ≠ none → soleRecordOcaid urls records ≠ none →
      NamedExactly items key.toList

/-- A map holds each key once. -/
def DistinctKeys : Prop := ∀ map, records = some map → (map.map Prod.fst).Nodup

variable {urls records items}

theorem collectScans_exact : (collectScans urls records items).exact =
    (listed items).filterMap fun item => (itemUrlOf item).map (scanItem urls records item) := by
  induction items with
  | nil => rfl
  | cons item rest ih =>
      unfold listed at ih ⊢
      rw [collectScans, List.filter_cons]
      cases named : itemUrlOf item with
      | none => simpa [named] using ih
      | some itemUrl =>
          cases label : isExact item with
          | true => simpa [named, label] using ih
          | false => simpa [named, label] using ih

theorem groundableScan_mem {availability : ScanAvailability} {scan : ScanItem}
    (picked : availability.groundableScan = some scan) :
    scan ∈ availability.exact ∧ scan.ocaid.isSome = true := by
  unfold ScanAvailability.groundableScan at picked
  have known : scan ∈ availability.exact.filter fun item => item.ocaid.isSome := by
    rcases Option.or_eq_some_iff.mp picked with full | ⟨_, first⟩
    · exact List.mem_of_find?_eq_some full
    · exact List.mem_of_mem_head? first
  exact List.mem_filter.mp known

theorem soleRecordOcaid_mem {ocaid : Text} (sole : soleRecordOcaid urls records = some ocaid) :
    ∃ key record, (∃ map, records = some map ∧ (key, record) ∈ map) ∧
      recordOcaid urls record = some ocaid := by
  cases records with
  | none => cases sole
  | some map =>
      simp only [soleRecordOcaid, Option.bind_some] at sole
      split at sole
      · rename_i first found
        cases sole
        have member : ocaid ∈ map.filterMap fun member => recordOcaid urls member.2 := by
          simp [found]
        obtain ⟨⟨key, record⟩, inside, named⟩ := List.mem_filterMap.mp member
        exact ⟨key, record, ⟨map, rfl, inside⟩, named⟩
      · cases sole

/-- Where one record names a scan, every record that names one names that. -/
theorem sole_of_mem {ocaid : Text} {key : String} {record : Json}
    (member : ∃ map, records = some map ∧ (key, record) ∈ map)
    (named : recordOcaid urls record = some ocaid) (sole : soleRecordOcaid urls records ≠ none) :
    soleRecordOcaid urls records = some ocaid := by
  obtain ⟨map, rfl, inside⟩ := member
  have found : ocaid ∈ map.filterMap fun member => recordOcaid urls member.2 :=
    List.mem_filterMap.mpr ⟨(key, record), inside, named⟩
  simp only [soleRecordOcaid, Option.bind_some] at sole ⊢
  split at sole
  · rename_i first only
    rw [only] at found
    rw [List.mem_singleton.mp found]
  · exact absurd rfl sole

theorem lookup_of_mem {map : List (String × Json)} (distinct : (map.map Prod.fst).Nodup)
    {key : String} {record : Json} (member : (key, record) ∈ map) :
    map.lookup key = some record := by
  induction map with
  | nil => cases member
  | cons head rest ih =>
      obtain ⟨fresh, distinct⟩ := List.nodup_cons.mp distinct
      rcases List.mem_cons.mp member with rfl | later
      · simp
      · have other : key ≠ head.1 := by
          rintro rfl
          exact fresh (List.mem_map.mpr ⟨_, later, rfl⟩)
        rw [List.lookup_cons, beq_eq_false_iff_ne.mpr other]
        exact ih distinct later

theorem fromRecordOcaid_of_named (distinct : DistinctKeys records) {item : Json} {key : String}
    {record : Json} (member : ∃ map, records = some map ∧ (key, record) ∈ map)
    (names : fromRecord item = some key.toList) :
    fromRecordOcaid urls records item = recordOcaid urls record := by
  obtain ⟨map, rfl, inside⟩ := member
  unfold fromRecord at names
  simp [fromRecordOcaid, names, lookup_of_mem (distinct map rfl) inside]

/-- Where the scan of an item comes from. -/
theorem scanItem_ocaid {item : Json} {itemUrl ocaid : Text} (named : itemUrlOf item = some itemUrl)
    (scanned : (scanItem urls records item itemUrl).ocaid = some ocaid) :
    Vouches urls records item ocaid ∨
      Stray urls records item ∧ soleRecordOcaid urls records = some ocaid := by
  unfold Vouches Stray
  rw [named, Option.bind_some]
  cases own : extractOcaid urls itemUrl with
  | some own => simp_all [scanItem]
  | none =>
      cases recorded : fromRecordOcaid urls records item with
      | some recorded => simp_all [scanItem]
      | none =>
          by_cases absent : item.get "fromRecord" = none
          · simp_all [scanItem]
          · simp_all [scanItem]

theorem attributes_of_named (distinct : DistinctKeys records)
    (fallback : FallbackNamed urls records items) :
    Attributes urls records items (collectScans urls records items) := by
  intro scan picked
  obtain ⟨member, known⟩ := groundableScan_mem picked
  rw [collectScans_exact] at member
  obtain ⟨item, inside, scanned⟩ := List.mem_filterMap.mp member
  obtain ⟨itemUrl, named, rfl⟩ := Option.map_eq_some_iff.mp scanned
  obtain ⟨ocaid, carried⟩ := Option.isSome_iff_exists.mp known
  obtain ⟨response, label⟩ := List.mem_filter.mp inside
  refine ⟨ocaid, carried, ?_⟩
  rcases scanItem_ocaid named carried with vouches | ⟨stray, sole⟩
  · exact ⟨item, response, (Bool.and_eq_true_iff.mp label).1, vouches⟩
  · obtain ⟨key, record, recorded, names⟩ := soleRecordOcaid_mem sole
    obtain ⟨other, there, exactly, same⟩ :=
      fallback item inside stray key record recorded (by simp [names]) (by simp [sole])
    refine ⟨other, there, exactly, .inr (.inl ?_)⟩
    rw [fromRecordOcaid_of_named distinct recorded same, names]

theorem unmixed_of_named (fallback : FallbackNamed urls records items) {item : Json}
    (inside : item ∈ listed items) {itemUrl : Text} (named : itemUrlOf item = some itemUrl) :
    Unmixed urls records items item (scanItem urls records item itemUrl) := by
  intro key record ocaid recorded names unnamed labelled elsewhere unrecorded scanned
  rcases scanItem_ocaid named scanned with vouches | ⟨stray, sole⟩
  · rcases vouches with own | own | ⟨absent, _⟩
    · exact elsewhere own
    · exact unrecorded own
    · exact labelled absent
  · exact unnamed
      (fallback item inside stray key record recorded (by simp [names]) (by simp [sole]))

theorem named_of_unmixed
    (unmixed : ∀ item ∈ listed items, ∀ itemUrl, itemUrlOf item = some itemUrl →
      Unmixed urls records items item (scanItem urls records item itemUrl)) :
    FallbackNamed urls records items := by
  intro item inside stray key record recorded names sole
  obtain ⟨ocaid, names⟩ := Option.ne_none_iff_exists'.mp names
  have fallback := sole_of_mem recorded names sole
  obtain ⟨labelled, unrecorded, elsewhere⟩ := stray
  obtain ⟨itemUrl, named⟩ :=
    Option.isSome_iff_exists.mp (Bool.and_eq_true_iff.mp (List.mem_filter.mp inside).2).2
  by_contra unnamed
  refine unmixed item inside itemUrl named key record ocaid recorded names unnamed labelled
    (by simp [elsewhere]) (by simp [unrecorded]) ?_
  rw [named, Option.bind_some] at elsewhere
  simp [scanItem, elsewhere, unrecorded, fallback]

end Attribution

section Response

variable {Url : Type} (urls : UrlLibrary Url) (fromSlice : List UInt8 → Option Json)

def itemsOf (members : List (String × Json)) : List Json :=
  ((members.lookup "items").bind Json.asArray).getD []

/-- What the response to the availability lookup grounds on is attributed, and no exact
item has the scan of a record of another edition. -/
def Grounds (body : List UInt8) : Prop :=
  ∀ members availability, (fromSlice body).bind Json.asObject = some members →
    parseScanAvailability urls fromSlice body = some availability →
    Attributes urls (recordsOf members) (itemsOf members) availability ∧
      List.Forall₂ (Unmixed urls (recordsOf members) (itemsOf members))
        (listed (itemsOf members)) availability.exact

theorem parseScanAvailability_eq {body : List UInt8} {members : List (String × Json)}
    {availability : ScanAvailability}
    (object : (fromSlice body).bind Json.asObject = some members)
    (parsed : parseScanAvailability urls fromSlice body = some availability) :
    availability = collectScans urls (recordsOf members) (itemsOf members) := by
  obtain ⟨value, read, fields⟩ := Option.bind_eq_some_iff.mp object
  simp only [parseScanAvailability, read, fields, Option.bind_eq_bind, Option.bind_some] at parsed
  unfold itemsOf
  cases listed : members.lookup "items" with
  | none =>
      rw [listed] at parsed
      exact (Option.some.inj parsed).symm
  | some items =>
      rw [listed] at parsed
      obtain ⟨items, array, collected⟩ := Option.map_eq_some_iff.mp parsed
      simp [array, ← collected]

theorem exact_forall₂ {records : Records} {items : List Json} {R : Json → ScanItem → Prop} :
    List.Forall₂ R (listed items) (collectScans urls records items).exact ↔
      ∀ item ∈ listed items, ∀ itemUrl, itemUrlOf item = some itemUrl →
        R item (scanItem urls records item itemUrl) := by
  have urled : ∀ item ∈ listed items, (itemUrlOf item).isSome = true := by
    intro item member
    exact (Bool.and_eq_true_iff.mp (List.mem_filter.mp member).2).2
  rw [collectScans_exact]
  generalize listed items = exactItems at urled ⊢
  induction exactItems with
  | nil => simp
  | cons item rest ih =>
      obtain ⟨itemUrl, named⟩ := Option.isSome_iff_exists.mp (urled item List.mem_cons_self)
      have tail := ih fun other member => urled other (List.mem_cons_of_mem item member)
      simp [named, tail]

theorem itemsOf_unparsed {body : List UInt8} {members : List (String × Json)}
    (object : (fromSlice body).bind Json.asObject = some members)
    (unparsed : parseScanAvailability urls fromSlice body = none) : itemsOf members = [] := by
  obtain ⟨value, read, fields⟩ := Option.bind_eq_some_iff.mp object
  simp only [parseScanAvailability, read, fields, Option.bind_eq_bind, Option.bind_some]
    at unparsed
  unfold itemsOf
  cases listed : members.lookup "items" with
  | none => rfl
  | some items =>
      rw [listed] at unparsed
      simp [Option.map_eq_none_iff.mp unparsed]

theorem grounds_iff
    (distinct : ∀ body members, (fromSlice body).bind Json.asObject = some members →
      DistinctKeys (recordsOf members)) (body : List UInt8) :
    Grounds urls fromSlice body ↔
      ∀ members, (fromSlice body).bind Json.asObject = some members →
        FallbackNamed urls (recordsOf members) (itemsOf members) := by
  constructor
  · intro grounds members object
    cases parsed : parseScanAvailability urls fromSlice body with
    | none =>
        rw [itemsOf_unparsed urls fromSlice object parsed]
        intro item inside
        cases inside
    | some availability =>
        obtain ⟨_, unmixed⟩ := grounds members availability object parsed
        rw [parseScanAvailability_eq urls fromSlice object parsed, exact_forall₂] at unmixed
        exact named_of_unmixed unmixed
  · intro fallback members availability object parsed
    have named := fallback members object
    rw [parseScanAvailability_eq urls fromSlice object parsed]
    refine ⟨attributes_of_named (distinct body members object) named, ?_⟩
    rw [exact_forall₂]
    intro item inside itemUrl url
    exact unmixed_of_named named inside url

end Response

/-- An exact item whose record names no scan, and a similar one whose record names one. -/
def twoEditions : List (String × Json) :=
  [("items", .array [
    .object [("match", .string "exact".toList), ("status", .string "lendable".toList),
      ("itemURL", .string "https://openlibrary.org/books/OL1M/borrow".toList),
      ("fromRecord", .string "/books/OL1M".toList)],
    .object [("match", .string "similar".toList), ("status", .string "full access".toList),
      ("itemURL", .string "https://openlibrary.org/books/OL2M/borrow".toList),
      ("fromRecord", .string "/books/OL2M".toList)]]),
   ("records", .object [
    ("/books/OL1M", .object []),
    ("/books/OL2M", .object [("details", .object [("details", .object [
      ("ocaid", .string "another00edition".toList)])])])])]

def twoEditionsBody : List UInt8 :=
  ("\x7b\"items\":[\x7b\"match\":\"exact\",\"status\":\"lendable\"," ++
    "\"itemURL\":\"https://openlibrary.org/books/OL1M/borrow\"," ++
    "\"fromRecord\":\"/books/OL1M\"\x7d,\x7b\"match\":\"similar\"," ++
    "\"status\":\"full access\"," ++
    "\"itemURL\":\"https://openlibrary.org/books/OL2M/borrow\"," ++
    "\"fromRecord\":\"/books/OL2M\"\x7d],\"records\":\x7b\"/books/OL1M\":\x7b\x7d," ++
    "\"/books/OL2M\":\x7b\"details\":\x7b\"details\":\x7b" ++
    "\"ocaid\":\"another00edition\"\x7d\x7d\x7d\x7d\x7d").toUTF8.data.toList

/-- The parser on that body. -/
def readTwoEditions (body : List UInt8) : Option Json :=
  if body = twoEditionsBody then some (.object twoEditions) else none

theorem similar_edition_grounds : ¬ Grounds httpsUrls readTwoEditions twoEditionsBody := by
  intro grounds
  have object : (readTwoEditions twoEditionsBody).bind Json.asObject = some twoEditions := by
    rw [readTwoEditions, if_pos rfl]
    rfl
  have parsed : parseScanAvailability httpsUrls readTwoEditions twoEditionsBody =
      some (collectScans httpsUrls (recordsOf twoEditions) (itemsOf twoEditions)) := by
    rw [parseScanAvailability, readTwoEditions, if_pos rfl]
    rfl
  obtain ⟨attributes, _⟩ := grounds _ _ object parsed
  obtain ⟨ocaid, scanned, item, inside, label, vouches⟩ := attributes
    { status := "lendable".toList
      itemUrl := "https://openlibrary.org/books/OL1M/borrow".toList
      olEditionId := none
      ocaid := some "another00edition".toList } (by decide)
  cases scanned
  rcases List.mem_cons.mp inside with rfl | inside
  · rcases vouches with own | own | ⟨absent, _⟩
    · exact absurd own (by decide)
    · exact absurd own (by decide)
    · cases absent
  · rw [List.mem_singleton.mp inside] at label
    exact absurd label (by decide)

theorem grounds_iff_editions : Grounds httpsUrls readTwoEditions twoEditionsBody ↔
    ∀ members, (readTwoEditions twoEditionsBody).bind Json.asObject = some members →
      FallbackNamed httpsUrls (recordsOf members) (itemsOf members) := by
  refine grounds_iff httpsUrls readTwoEditions ?_ twoEditionsBody
  intro body members object map records
  unfold readTwoEditions at object
  split at object
  · cases object
    cases records
    decide
  · cases object

end SP42.Citation
