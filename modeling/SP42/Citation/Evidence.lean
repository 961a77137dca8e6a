import SP42.Citation.Finding
import SP42.Lib.Run
import SP42.Storage.Backends
import SP42.Storage.Plan

/-!
The evidence of a verification: snapshots of sources and records of verdicts, stored under
keys that are made of hashes. The hash, the URLs and the JSON library are parameters.
-/
namespace SP42.Citation

open Storage (Backend StorageError)

section Envelopes

def snapshotSchemaVersion : Nat := 1
def verdictSchemaVersion : Nat := 1

variable (Url : Type)

structure SnapshotEnvelope where
  project : Text
  version : Nat
  sourceUrl : Url
  fetchedAtMs : Int
  contentHash : Text
  bodyText : Text

structure VerdictEnvelope where
  project : Text
  version : Nat
  claim : Text
  snapshotHash : Text
  recordedAtMs : Int
  verdict : CitationVerdict
  groundingStatus : GroundingStatus
  locatedPassage : Option LocatedPassage
  panelVotes : List ModelVote
  agreement : PanelAgreement
  panelRef : List ModelRef

/-- The hash and the JSON library. -/
structure EvidenceLibrary where
  sha256Hex : Text → Text
  writeSnapshot : SnapshotEnvelope Url → Except Text (List UInt8)
  readSnapshot : List UInt8 → Except Text (SnapshotEnvelope Url)
  writeVerdict : VerdictEnvelope → Except Text (List UInt8)
  readVerdict : List UInt8 → Except Text VerdictEnvelope

end Envelopes

inductive CitationStorageError where
  | invalidInput (message : Text)
  | serialize (message : Text)
  | storage (message : Text)
  deriving DecidableEq

section Store

variable {Url : Type} (library : EvidenceLibrary Url)

def buildSnapshot (sourceUrl : Url) (bodyText : Text) (fetchedAtMs : Int) : SnapshotEnvelope Url where
  project := Storage.projectName
  version := snapshotSchemaVersion
  sourceUrl := sourceUrl
  fetchedAtMs := fetchedAtMs
  contentHash := library.sha256Hex bodyText
  bodyText := bodyText

def buildVerdictEnvelope (claim : Text) (finding : CitationFinding Url) (panelVotes : List ModelVote)
    (panelRef : List ModelRef) (recordedAtMs : Int) : VerdictEnvelope where
  project := Storage.projectName
  version := verdictSchemaVersion
  claim := claim
  snapshotHash := finding.provenance.contentHash
  recordedAtMs := recordedAtMs
  verdict := finding.verdict
  groundingStatus := finding.groundingStatus
  locatedPassage := finding.passage
  panelVotes := panelVotes
  agreement := finding.agreement
  panelRef := panelRef

def snapshotStorageKey (contentHash : Text) : Text := "citation:snapshot:".toList ++ contentHash

def verdictStorageKey (snapshotHash claim : Text) : Text :=
  "citation:verdict:".toList ++ snapshotHash ++ ':' :: library.sha256Hex claim

/-- The text of a failure of the backend. -/
def storageMessage : StorageError → Text
  | .operation message => "storage failed: ".toList ++ message
  | .statePoisoned resource => "stub state is poisoned: ".toList ++ resource

variable {σ : Type} [Backend σ]

/-- What both kinds of records have in common: a value is written and set under its key. -/
def storeBytes (storage : σ) (key : Text) (written : Except Text (List UInt8)) :
    σ × Except CitationStorageError Text :=
  match written with
  | .error message => (storage, .error (.serialize message))
  | .ok bytes =>
      let answer := Backend.set storage key bytes
      (answer.1, match answer.2 with
        | .ok () => .ok key
        | .error error => .error (.storage (storageMessage error)))

def loadBytes {α : Type} (storage : σ) (key : Text) (read : List UInt8 → Except Text α) :
    Except CitationStorageError (Option α) :=
  match Backend.get storage key with
  | .error error => .error (.storage (storageMessage error))
  | .ok none => .ok none
  | .ok (some bytes) =>
      match read bytes with
      | .ok value => .ok (some value)
      | .error message => .error (.invalidInput message)

def storeSnapshot (storage : σ) (snapshot : SnapshotEnvelope Url) :
    σ × Except CitationStorageError Text :=
  storeBytes storage (snapshotStorageKey snapshot.contentHash) (library.writeSnapshot snapshot)

def loadSnapshot (storage : σ) (contentHash : Text) :
    Except CitationStorageError (Option (SnapshotEnvelope Url)) :=
  loadBytes storage (snapshotStorageKey contentHash) library.readSnapshot

def storeVerdict (storage : σ) (verdict : VerdictEnvelope) : σ × Except CitationStorageError Text :=
  storeBytes storage (verdictStorageKey library verdict.snapshotHash verdict.claim)
    (library.writeVerdict verdict)

def loadVerdict (storage : σ) (snapshotHash claim : Text) :
    Except CitationStorageError (Option VerdictEnvelope) :=
  loadBytes storage (verdictStorageKey library snapshotHash claim) library.readVerdict

end Store

section Records

/-- What the two builders are called with. -/
inductive EvidenceRecord (Url : Type) where
  | snapshot (sourceUrl : Url) (bodyText : Text) (fetchedAtMs : Int)
  | verdict (claim : Text) (finding : CitationFinding Url) (panelVotes : List ModelVote)
      (panelRef : List ModelRef) (recordedAtMs : Int)

variable {Url : Type} (library : EvidenceLibrary Url)

namespace EvidenceRecord

def envelope : EvidenceRecord Url → SnapshotEnvelope Url ⊕ VerdictEnvelope
  | .snapshot sourceUrl bodyText fetchedAtMs =>
      .inl (buildSnapshot library sourceUrl bodyText fetchedAtMs)
  | .verdict claim finding panelVotes panelRef recordedAtMs =>
      .inr (buildVerdictEnvelope claim finding panelVotes panelRef recordedAtMs)

def key (record : EvidenceRecord Url) : Text :=
  match record.envelope library with
  | .inl taken => snapshotStorageKey taken.contentHash
  | .inr judged => verdictStorageKey library judged.snapshotHash judged.claim

variable {σ : Type} [Backend σ]

def store (storage : σ) (record : EvidenceRecord Url) : σ × Except CitationStorageError Text :=
  match record.envelope library with
  | .inl taken => storeSnapshot library storage taken
  | .inr judged => storeVerdict library storage judged

/-- What the library writes for the record it reads back. -/
def ReadBack (record : EvidenceRecord Url) : Prop :=
  match record.envelope library with
  | .inl taken => ∃ bytes, library.writeSnapshot taken = .ok bytes ∧
      library.readSnapshot bytes = .ok taken
  | .inr judged => ∃ bytes, library.writeVerdict judged = .ok bytes ∧
      library.readVerdict bytes = .ok judged

/-- The record is loaded as it was stored. -/
def Loads (storage : σ) (record : EvidenceRecord Url) : Prop :=
  match record.envelope library with
  | .inl taken => loadSnapshot library storage taken.contentHash = .ok (some taken)
  | .inr judged => loadVerdict library storage judged.snapshotHash judged.claim = .ok (some judged)

end EvidenceRecord

/-- Every call succeeds, all that was stored is still there, and no snapshot is a forged one. -/
structure Immutable {σ : Type} [Backend σ] (storage : σ) (records : List (EvidenceRecord Url)) :
    Prop where
  accepted : ∀ call ∈ Run.trace (EvidenceRecord.store library) storage records,
    ∃ key, call.2 = .ok key
  kept : ∀ record ∈ records,
    record.Loads library (Run.final (EvidenceRecord.store library) storage records)
  genuine : ∀ contentHash snapshot,
    loadSnapshot library (Run.final (EvidenceRecord.store library) storage records) contentHash =
      .ok (some snapshot) → library.sha256Hex snapshot.bodyText = contentHash

/-- There is room for every record, records that share a key are the same, and what the store held
before under the key of a snapshot is genuine unless it is stored anew. -/
structure Unforged {σ : Type} [Backend σ] (room : σ → Text → Prop) (storage : σ)
    (records : List (EvidenceRecord Url)) : Prop where
  room : Run.Along (EvidenceRecord.store library) (fun storage record => room storage (record.key library))
    storage records
  alike : ∀ record ∈ records, ∀ other ∈ records, record.key library = other.key library →
    record.envelope library = other.envelope library
  before : ∀ contentHash snapshot,
    (∀ record ∈ records, record.key library ≠ snapshotStorageKey contentHash) →
      loadSnapshot library storage contentHash = .ok (some snapshot) →
        library.sha256Hex snapshot.bodyText = contentHash

end Records

section Keys

variable {Url : Type} (library : EvidenceLibrary Url)

theorem snapshotStorageKey_inj {a b : Text} (same : snapshotStorageKey a = snapshotStorageKey b) :
    a = b := List.append_cancel_left same

/-- The prefixes of the keys differ. -/
theorem verdict_key_ne (snapshotHash claim contentHash : Text) :
    verdictStorageKey library snapshotHash claim ≠ snapshotStorageKey contentHash := by
  intro same
  unfold verdictStorageKey snapshotStorageKey at same
  rw [List.append_assoc] at same
  have cut := congrArg (List.take 10) same
  rw [List.take_append_of_le_length (by decide), List.take_append_of_le_length (by decide)] at cut
  exact absurd cut (by decide)

end Keys

section Steps

variable {Url : Type} {library : EvidenceLibrary Url} {σ : Type} [Backend σ] {room : σ → Text → Prop}

theorem loadBytes_congr {α : Type} {storage other : σ} {key : Text}
    (same : Backend.get other key = Backend.get storage key) (read : List UInt8 → Except Text α) :
    loadBytes other key read = loadBytes storage key read := by
  unfold loadBytes
  rw [same]

theorem loadBytes_of {α : Type} {storage : σ} {key : Text} {bytes : List UInt8} {value : α}
    {read : List UInt8 → Except Text α} (found : Backend.get storage key = .ok (some bytes))
    (reads : read bytes = .ok value) : loadBytes storage key read = .ok (some value) := by
  simp only [loadBytes, found, reads]

namespace EvidenceRecord

def written (library : EvidenceLibrary Url) (record : EvidenceRecord Url) : Except Text (List UInt8) :=
  match record.envelope library with
  | .inl taken => library.writeSnapshot taken
  | .inr judged => library.writeVerdict judged

theorem store_eq (storage : σ) (record : EvidenceRecord Url) :
    record.store library storage = storeBytes storage (record.key library) (record.written library) := by
  cases record with
  | snapshot sourceUrl bodyText fetchedAtMs => rfl
  | verdict claim finding panelVotes panelRef recordedAtMs => rfl

/-- Whether a record loads is decided by the bytes under its key. -/
theorem loads_congr {storage other : σ} {record : EvidenceRecord Url}
    (same : Backend.get other (record.key library) = Backend.get storage (record.key library)) :
    record.Loads library other ↔ record.Loads library storage := by
  cases record with
  | snapshot sourceUrl bodyText fetchedAtMs =>
      have load := loadBytes_congr same library.readSnapshot
      exact Eq.congr_left load
  | verdict claim finding panelVotes panelRef recordedAtMs =>
      have load := loadBytes_congr same library.readVerdict
      exact Eq.congr_left load

theorem written_ok {record : EvidenceRecord Url} (readBack : record.ReadBack library) :
    ∃ bytes, record.written library = .ok bytes ∧ ∀ storage : σ,
      Backend.get storage (record.key library) = .ok (some bytes) → record.Loads library storage := by
  cases record with
  | snapshot sourceUrl bodyText fetchedAtMs =>
      obtain ⟨bytes, write, read⟩ := readBack
      exact ⟨bytes, write, fun storage found => loadBytes_of found read⟩
  | verdict claim finding panelVotes panelRef recordedAtMs =>
      obtain ⟨bytes, write, read⟩ := readBack
      exact ⟨bytes, write, fun storage found => loadBytes_of found read⟩

theorem store_ok_iff (reliable : Storage.Reliable σ room) (storage : σ)
    {record : EvidenceRecord Url} (readBack : record.ReadBack library) :
    (∃ key, (record.store library storage).2 = .ok key) ↔ room storage (record.key library) := by
  obtain ⟨bytes, write, -⟩ := @written_ok _ library σ _ record readBack
  rw [store_eq, write]
  by_cases fits : room storage (record.key library)
  · have accepted := reliable.accepts storage (record.key library) bytes fits
    simp only [storeBytes, accepted, fits, iff_true]
    exact ⟨record.key library, rfl⟩
  · obtain ⟨error, refused⟩ := reliable.refuses storage (record.key library) bytes fits
    simp only [storeBytes, refused, fits, reduceCtorEq, exists_false]

theorem store_loads (reliable : Storage.Reliable σ room) {storage : σ}
    {record : EvidenceRecord Url} (readBack : record.ReadBack library) (fits : room storage (record.key library)) :
    record.Loads library (record.store library storage).1 := by
  obtain ⟨bytes, write, loads⟩ := @written_ok _ library σ _ record readBack
  rw [store_eq, write]
  exact loads _ (reliable.same storage (record.key library) bytes fits)

theorem store_frame (reliable : Storage.Reliable σ room) (storage : σ) (record : EvidenceRecord Url)
    {key : Text} (different : record.key library ≠ key) :
    Backend.get (record.store library storage).1 key = Backend.get storage key := by
  rw [store_eq]
  unfold storeBytes
  cases record.written library with
  | error message => rfl
  | ok bytes => exact reliable.other storage (record.key library) bytes key different.symm

/-- A record of the same envelope loads just as well. -/
theorem loads_alike {storage : σ} {record other : EvidenceRecord Url}
    (same : other.envelope library = record.envelope library) :
    other.Loads library storage ↔ record.Loads library storage := by
  unfold Loads
  rw [same]

/-- Of the records of one key the store holds one envelope. -/
theorem loads_unique {storage : σ} {record other : EvidenceRecord Url}
    (same : record.key library = other.key library) (loads : record.Loads library storage)
    (too : other.Loads library storage) : record.envelope library = other.envelope library := by
  cases record with
  | snapshot sourceUrl bodyText fetchedAtMs =>
      cases other with
      | snapshot otherUrl otherText otherTime =>
          have hash : library.sha256Hex bodyText = library.sha256Hex otherText :=
            snapshotStorageKey_inj same
          have first : loadSnapshot library storage (library.sha256Hex bodyText) =
            .ok (some (buildSnapshot library sourceUrl bodyText fetchedAtMs)) := loads
          have second : loadSnapshot library storage (library.sha256Hex otherText) =
            .ok (some (buildSnapshot library otherUrl otherText otherTime)) := too
          rw [hash, second] at first
          exact congrArg Sum.inl (Option.some.inj (Except.ok.inj first)).symm
      | verdict claim finding panelVotes panelRef recordedAtMs =>
          exact absurd same.symm (verdict_key_ne library _ _ _)
  | verdict claim finding panelVotes panelRef recordedAtMs =>
      cases other with
      | snapshot otherUrl otherText otherTime => exact absurd same (verdict_key_ne library _ _ _)
      | verdict otherClaim otherFinding otherVotes otherRef otherTime =>
          have first : loadBytes storage
            (verdictStorageKey library finding.provenance.contentHash claim) library.readVerdict =
              .ok (some (buildVerdictEnvelope claim finding panelVotes panelRef recordedAtMs)) := loads
          have second : loadBytes storage
            (verdictStorageKey library otherFinding.provenance.contentHash otherClaim)
              library.readVerdict = .ok (some
                (buildVerdictEnvelope otherClaim otherFinding otherVotes otherRef otherTime)) := too
          have keys : verdictStorageKey library finding.provenance.contentHash claim =
            verdictStorageKey library otherFinding.provenance.contentHash otherClaim := same
          rw [keys, second] at first
          exact congrArg Sum.inr (Option.some.inj (Except.ok.inj first)).symm

end EvidenceRecord

theorem final_frame (reliable : Storage.Reliable σ room) {key : Text} (storage : σ)
    (records : List (EvidenceRecord Url)) (different : ∀ record ∈ records, record.key library ≠ key) :
    Backend.get (Run.final (EvidenceRecord.store library) storage records) key =
      Backend.get storage key := by
  induction records generalizing storage with
  | nil => rfl
  | cons record records ih =>
      have first := record.store_frame reliable storage (different record List.mem_cons_self)
      exact (ih _ fun other mem => different other (List.mem_cons_of_mem record mem)).trans first

/-- A record that loads still does after records of other keys or of its own envelope. -/
theorem loads_through (reliable : Storage.Reliable σ room) {record : EvidenceRecord Url}
    {storage : σ} {records : List (EvidenceRecord Url)}
    (readBack : ∀ other ∈ records, other.ReadBack library)
    (loads : record.Loads library storage)
    (fits : Run.Along (EvidenceRecord.store library)
      (fun storage record => room storage (record.key library)) storage records)
    (alike : ∀ other ∈ records, record.key library = other.key library →
      record.envelope library = other.envelope library) :
    record.Loads library (Run.final (EvidenceRecord.store library) storage records) := by
  induction records generalizing storage with
  | nil => exact loads
  | cons other records ih =>
      obtain ⟨first, rest⟩ := fits
      have next : record.Loads library (other.store library storage).1 := by
        by_cases same : record.key library = other.key library
        · have stored := other.store_loads reliable (readBack other List.mem_cons_self) first
          exact (EvidenceRecord.loads_alike (alike other List.mem_cons_self same)).mpr stored
        · have frame := other.store_frame reliable storage (Ne.symm same)
          exact (EvidenceRecord.loads_congr frame).mpr loads
      exact ih (fun later mem => readBack later (List.mem_cons_of_mem other mem)) next rest
        fun later mem => alike later (List.mem_cons_of_mem other mem)

theorem kept_of (reliable : Storage.Reliable σ room) {storage : σ}
    {records : List (EvidenceRecord Url)} (readBack : ∀ record ∈ records, record.ReadBack library)
    (fits : Run.Along (EvidenceRecord.store library)
      (fun storage record => room storage (record.key library)) storage records)
    (alike : ∀ record ∈ records, ∀ other ∈ records, record.key library = other.key library →
      record.envelope library = other.envelope library) :
    ∀ record ∈ records,
      record.Loads library (Run.final (EvidenceRecord.store library) storage records) := by
  induction records generalizing storage with
  | nil => exact fun record mem => nomatch mem
  | cons head records ih =>
      obtain ⟨first, rest⟩ := fits
      have later := fun record mem => readBack record (List.mem_cons_of_mem head mem)
      intro record mem
      rcases List.mem_cons.mp mem with rfl | mem
      · have loads := record.store_loads reliable (readBack record List.mem_cons_self) first
        have through := loads_through reliable later loads rest fun other mem =>
          alike record List.mem_cons_self other (List.mem_cons_of_mem record mem)
        exact through
      · exact ih later rest (fun one mem other too => alike one (List.mem_cons_of_mem head mem) other
          (List.mem_cons_of_mem head too)) record mem

end Steps

section Immutability

variable {Url : Type} {library : EvidenceLibrary Url} {σ : Type} [Backend σ] {room : σ → Text → Prop}

theorem accepted_iff (reliable : Storage.Reliable σ room) (storage : σ)
    {records : List (EvidenceRecord Url)} (readBack : ∀ record ∈ records, record.ReadBack library) :
    (∀ call ∈ Run.trace (EvidenceRecord.store library) storage records, ∃ key, call.2 = .ok key) ↔
      Run.Along (EvidenceRecord.store library)
        (fun storage record => room storage (record.key library)) storage records := by
  induction records generalizing storage with
  | nil => exact iff_of_true (fun call mem => nomatch mem) trivial
  | cons record records ih =>
      unfold Run.trace Run.Along
      have first := EvidenceRecord.store_ok_iff reliable storage (readBack record List.mem_cons_self)
      rw [List.forall_mem_cons, first,
        ih _ fun other mem => readBack other (List.mem_cons_of_mem record mem)]

/-- The snapshots that load at the end are those stored in the run and those loaded before. -/
theorem genuine_of (reliable : Storage.Reliable σ room) {storage : σ}
    {records : List (EvidenceRecord Url)} (readBack : ∀ record ∈ records, record.ReadBack library)
    (unforged : Unforged library room storage records)
    {contentHash : Text} {loaded : SnapshotEnvelope Url}
    (loads : loadSnapshot library (Run.final (EvidenceRecord.store library) storage records)
      contentHash = .ok (some loaded)) : library.sha256Hex loaded.bodyText = contentHash := by
  by_cases anew : ∃ record ∈ records, record.key library = snapshotStorageKey contentHash
  · obtain ⟨record, mem, same⟩ := anew
    have kept := kept_of reliable readBack unforged.room unforged.alike record mem
    cases record with
    | snapshot sourceUrl bodyText fetchedAtMs =>
        have hash : library.sha256Hex bodyText = contentHash := snapshotStorageKey_inj same
        have kept : loadSnapshot library (Run.final (EvidenceRecord.store library) storage records)
          (library.sha256Hex bodyText) =
            .ok (some (buildSnapshot library sourceUrl bodyText fetchedAtMs)) := kept
        rw [hash, loads] at kept
        cases kept
        exact hash
    | verdict claim finding panelVotes panelRef recordedAtMs =>
        exact absurd same (verdict_key_ne library finding.provenance.contentHash claim contentHash)
  · have different : ∀ record ∈ records, record.key library ≠ snapshotStorageKey contentHash :=
      fun record mem same => anew ⟨record, mem, same⟩
    have frame := final_frame reliable storage records different
    have before := loadBytes_congr frame library.readSnapshot
    exact unforged.before contentHash loaded different (before.symm.trans loads)

theorem immutable_iff (reliable : Storage.Reliable σ room) (storage : σ)
    {records : List (EvidenceRecord Url)} (readBack : ∀ record ∈ records, record.ReadBack library) :
    Immutable library storage records ↔ Unforged library room storage records := by
  constructor
  · intro immutable
    refine ⟨(accepted_iff reliable storage readBack).mp immutable.accepted, ?_, ?_⟩
    · intro record mem other too same
      have left := immutable.kept record mem
      have right := immutable.kept other too
      exact EvidenceRecord.loads_unique same left right
    · intro contentHash loaded different loads
      have frame := final_frame reliable storage records different
      have after := loadBytes_congr frame library.readSnapshot
      exact immutable.genuine contentHash loaded (after.trans loads)
  · intro unforged
    exact ⟨(accepted_iff reliable storage readBack).mpr unforged.room,
      kept_of reliable readBack unforged.room unforged.alike, fun _ _ => genuine_of reliable readBack unforged⟩

/-- A verdict on a snapshot with a hash of 64 digits never fits in a file name. -/
theorem verdict_unfit {snapshotHash claim : Text} (snapshotDigits : snapshotHash.length = 64)
    (claimDigits : (library.sha256Hex claim).length = 64) (storage : Storage.FileStorage) :
    ¬ Storage.nameFits storage (verdictStorageKey library snapshotHash claim) := by
  refine Storage.long_key_unfit ?_ storage
  unfold verdictStorageKey
  simp only [List.length_append, List.length_cons, snapshotDigits, claimDigits, String.length_toList]
  omega

/-- Stored evidence is immutable just where there is room for it, no two records share a key unless
they are the same, and the store held no forged snapshot that is not stored anew. -/
theorem evidence_immutable_iff (library : EvidenceLibrary Url) (records : List (EvidenceRecord Url))
    (readBack : ∀ record ∈ records, record.ReadBack library) :
    (∀ storage : Storage.MemoryStorage,
      Immutable library storage records ↔ Unforged library (fun _ _ => True) storage records) ∧
    ∀ storage : Storage.FileStorage,
      Immutable library storage records ↔ Unforged library Storage.nameFits storage records :=
  ⟨fun storage => immutable_iff Storage.memory_reliable storage readBack,
    fun storage => immutable_iff Storage.file_reliable storage readBack⟩

section Sample

def snapshotJson (envelope : SnapshotEnvelope Text) : Text :=
  "\x7b\"project\":\"".toList ++ envelope.project ++ "\",\"version\":".toList ++
    Text.ofNat envelope.version ++ ",\"source_url\":\"".toList ++ envelope.sourceUrl ++
    "\",\"fetched_at_ms\":".toList ++ Text.ofInt envelope.fetchedAtMs ++
    ",\"content_hash\":\"".toList ++ envelope.contentHash ++ "\",\"body_text\":\"".toList ++
    envelope.bodyText ++ "\"\x7d".toList

def abcHash : Text := "ba7816bf8f01cfea414140de5dae2223b00361a396177a9cb410ff61f20015ad".toList

/-- A library that knows one text and one snapshot of it. -/
def abcLibrary (known : SnapshotEnvelope Text) : EvidenceLibrary Text where
  sha256Hex text := if text = "abc".toList then abcHash else text
  writeSnapshot envelope := .ok (Storage.utf8 (snapshotJson envelope))
  readSnapshot bytes :=
    if bytes = Storage.utf8 (snapshotJson known) then .ok known else .error "unknown".toList
  writeVerdict _ := .error "unknown".toList
  readVerdict _ := .error "unknown".toList

def abcSnapshot (sourceUrl : Text) : SnapshotEnvelope Text where
  project := Storage.projectName
  version := snapshotSchemaVersion
  sourceUrl := sourceUrl
  fetchedAtMs := 7
  contentHash := abcHash
  bodyText := "abc".toList

def abcRecord (sourceUrl : Text) : EvidenceRecord Text := .snapshot sourceUrl "abc".toList 7

theorem abc_envelope (known : SnapshotEnvelope Text) (sourceUrl : Text) :
    (abcRecord sourceUrl).envelope (abcLibrary known) = .inl (abcSnapshot sourceUrl) := by
  have hash : (abcLibrary known).sha256Hex "abc".toList = abcHash := by
    simp only [abcLibrary, if_true]
  simp only [abcRecord, EvidenceRecord.envelope, buildSnapshot, hash, abcSnapshot]

theorem abc_readBack (sourceUrl : Text) :
    (abcRecord sourceUrl).ReadBack (abcLibrary (abcSnapshot sourceUrl)) := by
  unfold EvidenceRecord.ReadBack
  rw [abc_envelope]
  refine ⟨Storage.utf8 (snapshotJson (abcSnapshot sourceUrl)), rfl, ?_⟩
  simp only [abcLibrary, if_true]

theorem one_snapshot_immutable :
    Immutable (abcLibrary (abcSnapshot "https://a.example/".toList))
      (⟨fun _ => none⟩ : Storage.MemoryStorage) [abcRecord "https://a.example/".toList] := by
  have readBack : ∀ record ∈ [abcRecord "https://a.example/".toList],
      record.ReadBack (abcLibrary (abcSnapshot "https://a.example/".toList)) :=
    List.forall_mem_singleton.mpr (abc_readBack _)
  refine ((evidence_immutable_iff _ _ readBack).1 _).mpr ⟨⟨trivial, trivial⟩, ?_, ?_⟩
  · intro record mem other too same
    rw [List.mem_singleton] at mem too
    rw [mem, too]
  · intro contentHash loaded different loads
    cases loads

/-- The same text from a second URL: the first snapshot is overwritten. -/
theorem second_url_overwrites :
    ¬ Immutable (abcLibrary (abcSnapshot "https://b.example/".toList))
      (⟨fun _ => none⟩ : Storage.MemoryStorage)
      [abcRecord "https://a.example/".toList, abcRecord "https://b.example/".toList] := by
  intro immutable
  have first := immutable.kept (abcRecord "https://a.example/".toList) List.mem_cons_self
  have second := immutable.kept (abcRecord "https://b.example/".toList)
    (List.mem_cons_of_mem _ List.mem_cons_self)
  have keys (known : SnapshotEnvelope Text) (a b : Text) :
    (abcRecord a).key (abcLibrary known) = (abcRecord b).key (abcLibrary known) := rfl
  have same := EvidenceRecord.loads_unique (keys _ _ _) first second
  rw [abc_envelope, abc_envelope] at same
  exact absurd (congrArg SnapshotEnvelope.sourceUrl (Sum.inl.inj same)) (by decide)

end Sample

end Immutability

end SP42.Citation
