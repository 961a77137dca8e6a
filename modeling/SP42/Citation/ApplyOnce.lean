import Mathlib
import SP42.Citation.Apply

/-!
What an apply guarantees about the exchanges with the server: one write that may land, to
the record of the proposal, fresh from a read at the base revision, and success only when
a read shows the value.
-/
namespace SP42.Citation

abbrev Exchange (Url : Type) := HttpRequest Url × Answer

section Exchanges

variable {Url : Type}

def stateChanging (request : HttpRequest Url) : Bool := request.method != .get

/-- The refusal that comes before any mutation. -/
def refused : Answer → Bool
  | .ok response => response.status == 403
  | .error _ => false

/-- A state-changing request that was not refused, so that it may have landed. -/
def mayLand (exchange : Exchange Url) : Bool := stateChanging exchange.1 && !refused exchange.2

def Quiet (said : List (Exchange Url)) : Prop := ∀ exchange ∈ said, mayLand exchange = false

variable (site : ApplySite Url) (proposal : EnrichmentProposal)

/-- A write is addressed to the record's document or to its edit page. -/
def Targets (request : HttpRequest Url) : Prop :=
  match request.method with
  | .put => request.url = recordUrl site proposal.recordKey
  | .post => request.url = editUrl site proposal.recordKey
  | _ => False

/-- A read of the record that found the base revision. -/
def ShowsBase (exchange : Exchange Url) : Prop :=
  exchange.1 = buildRecordRequest site proposal.recordKey ∧
    ∃ record, recordOf site exchange.2 = .ok record ∧ record.revision = proposal.baseRevision

/-- A read of the record that found the proposed value. -/
def ShowsProposed (exchange : Exchange Url) (revision : Nat) : Prop :=
  exchange.1 = buildRecordRequest site proposal.recordKey ∧
    ∃ record, recordOf site exchange.2 = .ok record ∧
      record.raw.get proposal.field = some proposal.proposed ∧ record.revision = revision

/-- The record was seen at the base revision, and nothing may have landed since. -/
def FreshBase (said : List (Exchange Url)) : Prop :=
  ∃ earlier read between, said = earlier ++ read :: between ∧ ShowsBase site proposal read ∧
    Quiet between

/-- Every write so far is addressed to the record and was fresh. -/
structure WritesFresh (said : List (Exchange Url)) : Prop where
  targets : ∀ exchange ∈ said, stateChanging exchange.1 = true → Targets site proposal exchange.1
  fresh : ∀ before exchange after, said = before ++ exchange :: after →
    stateChanging exchange.1 = true → FreshBase site proposal before

/-- Outcomes that say that nothing was written. -/
def ApplyOutcome.refuses : ApplyOutcome → Bool
  | .refusedDrift _ _ => true
  | .refusedContractDrift _ => true
  | _ => false

/-- What the protocol promises of the exchanges and the outcome. -/
structure AppliesOnce (said : List (Exchange Url)) (outcome : ApplyOutcome) : Prop where
  once : (said.filter mayLand).length ≤ 1
  writes : WritesFresh site proposal said
  refusal : outcome.refuses = true → Quiet said
  applied : ∀ lane revision, outcome = .applied lane revision →
    ∃ before read, said = before ++ [read] ∧ (∃ write ∈ before, mayLand write = true) ∧
      ShowsProposed site proposal read revision

end Exchanges

section Steps

variable {Url : Type} {site : ApplySite Url} {proposal : EnrichmentProposal}
  {said : List (Exchange Url)} {exchange : Exchange Url}

theorem mayLand_of_read (read : stateChanging exchange.1 = false) : mayLand exchange = false := by
  simp [mayLand, read]

theorem mayLand_of_refused (no : refused exchange.2 = true) : mayLand exchange = false := by
  simp [mayLand, no]

theorem quiet_nil : Quiet ([] : List (Exchange Url)) := fun _ h => nomatch h

theorem Quiet.append (quiet : Quiet said) (silent : mayLand exchange = false) :
    Quiet (said ++ [exchange]) := by
  intro other member
  rcases List.mem_append.mp member with earlier | last
  · exact quiet other earlier
  · rw [List.mem_singleton.mp last]
    exact silent

theorem Quiet.filter (quiet : Quiet said) : said.filter mayLand = [] := by
  rw [List.filter_eq_nil_iff]
  intro other member
  simp [quiet other member]

theorem writesFresh_nil : WritesFresh site proposal [] where
  targets := fun _ h => nomatch h
  fresh := by
    intro before exchange after split
    exact absurd split (by simp)

theorem WritesFresh.append (fresh : WritesFresh site proposal said)
    (last : stateChanging exchange.1 = true →
      Targets site proposal exchange.1 ∧ FreshBase site proposal said) :
    WritesFresh site proposal (said ++ [exchange]) where
  targets := by
    intro other member write
    rcases List.mem_append.mp member with earlier | here
    · exact fresh.targets other earlier write
    · rw [List.mem_singleton.mp here] at write ⊢
      exact (last write).1
  fresh := by
    intro before other after split write
    rcases List.eq_nil_or_concat after with rfl | ⟨front, final, rfl⟩
    · obtain ⟨rfl, same⟩ := List.append_inj' split rfl
      obtain rfl : exchange = other := by simpa using same
      exact (last write).2
    · have shorter : said ++ [exchange] = (before ++ other :: front) ++ [final] := by
        simpa using split
      exact fresh.fresh before other front (List.append_inj' shorter rfl).1 write

theorem WritesFresh.read (fresh : WritesFresh site proposal said)
    (read : stateChanging exchange.1 = false) : WritesFresh site proposal (said ++ [exchange]) :=
  fresh.append fun write => absurd write (by simp [read])

theorem freshBase_read (shows : ShowsBase site proposal exchange) :
    FreshBase site proposal (said ++ [exchange]) := ⟨said, exchange, [], rfl, shows, quiet_nil⟩

theorem FreshBase.append (fresh : FreshBase site proposal said)
    (silent : mayLand exchange = false) : FreshBase site proposal (said ++ [exchange]) := by
  obtain ⟨earlier, read, between, rfl, shows, quiet⟩ := fresh
  exact ⟨earlier, read, between ++ [exchange], by simp, shows, quiet.append silent⟩

end Steps

section Phases

variable {Url : Type} (site : ApplySite Url) (proposal : EnrichmentProposal)

/-- Nothing may have landed yet. -/
structure Unwritten (said : List (Exchange Url)) : Prop where
  writes : WritesFresh site proposal said
  quiet : Quiet said

/-- Nothing may have landed and the record was just seen at the base revision. -/
structure Ready (said : List (Exchange Url)) : Prop extends Unwritten site proposal said where
  fresh : FreshBase site proposal said

/-- The one write that may land was sent. -/
structure Spent (said : List (Exchange Url)) : Prop where
  writes : WritesFresh site proposal said
  once : (said.filter mayLand).length ≤ 1
  sent : ∃ write ∈ said, mayLand write = true

variable {site proposal} {said : List (Exchange Url)} {exchange : Exchange Url}

theorem Unwritten.read (unwritten : Unwritten site proposal said)
    (read : stateChanging exchange.1 = false) : Unwritten site proposal (said ++ [exchange]) where
  writes := unwritten.writes.read read
  quiet := unwritten.quiet.append (mayLand_of_read read)

theorem Ready.read (ready : Ready site proposal said) (read : stateChanging exchange.1 = false) :
    Ready site proposal (said ++ [exchange]) where
  toUnwritten := ready.toUnwritten.read read
  fresh := ready.fresh.append (mayLand_of_read read)

theorem Ready.writes_append (ready : Ready site proposal said)
    (targets : Targets site proposal exchange.1) :
    WritesFresh site proposal (said ++ [exchange]) :=
  ready.writes.append fun _ => ⟨targets, ready.fresh⟩

theorem Ready.once_append (ready : Ready site proposal said) :
    ((said ++ [exchange]).filter mayLand).length ≤ 1 := by
  rw [List.filter_append, ready.quiet.filter, List.nil_append]
  exact List.length_filter_le _ [exchange]

theorem Ready.refused (ready : Ready site proposal said)
    (targets : Targets site proposal exchange.1) (no : refused exchange.2 = true) :
    Unwritten site proposal (said ++ [exchange]) where
  writes := ready.writes_append targets
  quiet := ready.quiet.append (mayLand_of_refused no)

theorem Ready.sent (ready : Ready site proposal said)
    (targets : Targets site proposal exchange.1) (lands : mayLand exchange = true) :
    Spent site proposal (said ++ [exchange]) where
  writes := ready.writes_append targets
  once := ready.once_append
  sent := ⟨exchange, by simp, lands⟩

theorem Unwritten.ends (unwritten : Unwritten site proposal said) {outcome : ApplyOutcome}
    (plain : ∀ lane revision, outcome ≠ .applied lane revision) :
    AppliesOnce site proposal said outcome where
  once := by simp [unwritten.quiet.filter]
  writes := unwritten.writes
  refusal := fun _ => unwritten.quiet
  applied := fun lane revision h => absurd h (plain lane revision)

/-- A failure promises nothing about what was written. -/
theorem appliesOnce_failed {message : Text} (writes : WritesFresh site proposal said)
    (once : (said.filter mayLand).length ≤ 1) :
    AppliesOnce site proposal said (.failed message) where
  once := once
  writes := writes
  refusal := fun h => nomatch h
  applied := fun lane revision h => nomatch h

end Phases

section Protocol

open Dialogue

variable {Url : Type} {site : ApplySite Url} {session : OpenLibrarySession}
  {proposal : EnrichmentProposal} {said : List (Exchange Url)}

theorem always_readRecord {R : Type} {Ends : List (Exchange Url) → R → Prop} {key : Text}
    (f : Except Text OpenLibraryRecord → Apply Url R) :
    Always Ends said (readRecord site key >>= f) ↔
      ∀ answer, Always Ends (said ++ [(buildRecordRequest site key, answer)])
        (f (recordOf site answer)) := Iff.rfl

theorem run_readRecord {R : Type} {server : List (Exchange Url) → HttpRequest Url → Answer}
    {key : Text} (f : Except Text OpenLibraryRecord → Apply Url R) :
    run server said (readRecord site key >>= f) =
      run server (said ++ [(buildRecordRequest site key,
        server said (buildRecordRequest site key))])
        (f (recordOf site (server said (buildRecordRequest site key)))) := rfl

theorem readBack_keeps (spent : Spent site proposal said) (lane : ApplyLane) :
    Always (AppliesOnce site proposal) said (readBack site proposal lane) := by
  rw [readBack, always_readRecord]
  intro answer
  have writes : WritesFresh site proposal
      (said ++ [(buildRecordRequest site proposal.recordKey, answer)]) := spent.writes.read rfl
  have once : ((said ++ [(buildRecordRequest site proposal.recordKey, answer)]).filter
      mayLand).length ≤ 1 := by
    rw [List.filter_append, List.filter_cons_of_neg (Bool.eq_false_iff.mp (mayLand_of_read rfl)),
      List.filter_nil, List.append_nil]
    exact spent.once
  cases found : recordOf site answer with
  | error message => exact appliesOnce_failed writes once
  | ok record =>
      dsimp only
      split
      case isFalse => exact appliesOnce_failed writes once
      case isTrue shows =>
          refine ⟨once, writes, nofun, ?_⟩
          intro lane revision same
          cases same
          exact ⟨said, _, rfl, spent.sent, rfl, record, found, eq_of_beq shows, rfl⟩

/-- From a fresh read on, the form lane keeps the promise. -/
theorem formLane_keeps (ready : Ready site proposal said) :
    Always (AppliesOnce site proposal) said (formLane site session proposal) := by
  rw [formLane, always_put_bind]
  intro page
  have later : Ready site proposal
      (said ++ [(buildEditFormRequest site session proposal.recordKey, page)]) := ready.read rfl
  cases page with
  | error error => exact later.ends nofun
  | ok page =>
      dsimp only
      split
      · exact later.ends nofun
      · split
        · exact later.ends nofun
        · rename_i form parsed
          split
          · exact later.ends nofun
          · rename_i filled done
            rw [always_put_bind]
            intro submit
            have targets : Targets site proposal (buildFormSubmitRequest site session filled) := by
              show onOrigin site filled.actionPath = editUrl site proposal.recordKey
              rw [fillEditForm_actionPath done, parseEditForm_actionPath _ _ parsed]
              rfl
            have sent : WritesFresh site proposal (_ ++ [(_, submit)]) := later.writes_append targets
            cases submit with
            | error error => exact appliesOnce_failed sent later.once_append
            | ok submit =>
                dsimp only
                split
                case isFalse => exact appliesOnce_failed sent later.once_append
                case isTrue redirected =>
                    refine readBack_keeps (later.sent targets ?_) .form
                    have moved : submit.status ≠ 403 := by
                      simp only [formSubmitSucceeded, Bool.and_eq_true, decide_eq_true_eq]
                        at redirected
                      omega
                    simpa [mayLand, refused, stateChanging, buildFormSubmitRequest] using moved

/-- The end of a part that also hands back the lane cache. -/
theorem always_pair {part : Apply Url ApplyOutcome} {lane : Option ApplyLane}
    (keeps : Always (AppliesOnce site proposal) said part) :
    Always (fun said result => AppliesOnce site proposal said result.1) said
      (do return (← part, lane)) :=
  (always_bind said part fun outcome => pure (outcome, lane)).mpr keeps

/-- A read that found the base revision readies the lane after it. -/
theorem ready_of_read (unwritten : Unwritten site proposal said) {answer : Answer}
    {record : OpenLibraryRecord} (found : recordOf site answer = .ok record)
    (same : record.revision = proposal.baseRevision) :
    Ready site proposal (said ++ [(buildRecordRequest site proposal.recordKey, answer)]) where
  toUnwritten := unwritten.read rfl
  fresh := freshBase_read ⟨rfl, record, found, same⟩

theorem withoutDrift_keeps (unwritten : Unwritten site proposal said)
    {next : OpenLibraryRecord → Apply Url (ApplyOutcome × Option ApplyLane)}
    {lane : Option ApplyLane}
    (keeps : ∀ answer record, recordOf site answer = .ok record →
      record.revision = proposal.baseRevision →
      Always (fun said result => AppliesOnce site proposal said result.1)
        (said ++ [(buildRecordRequest site proposal.recordKey, answer)]) (next record)) :
    Always (fun said result => AppliesOnce site proposal said result.1) said
      (withoutDrift site proposal next lane) := by
  rw [withoutDrift, always_readRecord]
  intro answer
  have later : Unwritten site proposal
      (said ++ [(buildRecordRequest site proposal.recordKey, answer)]) := unwritten.read rfl
  cases found : recordOf site answer with
  | error message => exact later.ends nofun
  | ok record =>
      dsimp only
      split
      case isTrue drifted => exact later.ends nofun
      case isFalse same => exact keeps answer record found (not_not.mp same)

/-- The lanes keep the promise when the first write, if there is one, goes to the record. -/
theorem lanes_keep (ready : Ready site proposal said) {laneCache : Option ApplyLane}
    {record : OpenLibraryRecord}
    (addressed : laneCache = some .form ∨
      recordUrl site record.key = recordUrl site proposal.recordKey) :
    Always (fun said result => AppliesOnce site proposal said result.1) said
      (writeLanes site session proposal laneCache record) := by
  unfold writeLanes
  split
  case isTrue cached => exact always_pair (formLane_keeps ready)
  case isFalse uncached =>
      have targets : Targets site proposal (buildRestApplyRequest site session record proposal) :=
        addressed.resolve_left uncached
      rw [always_put_bind]
      intro answer
      have sent : WritesFresh site proposal (_ ++ [(_, answer)]) := ready.writes_append targets
      cases answer with
      | error error => exact appliesOnce_failed sent ready.once_append
      | ok response =>
          dsimp only
          split
          case isTrue forbidden =>
              have unwritten : Unwritten site proposal (_ ++ [(_, .ok response)]) :=
                ready.refused targets (beq_iff_eq.mpr forbidden)
              refine withoutDrift_keeps unwritten ?_
              intro second record found same
              exact always_pair (formLane_keeps (ready_of_read unwritten found same))
          case isFalse allowed =>
              split
              · refine always_pair (readBack_keeps (ready.sent targets ?_) .rest)
                simpa [mayLand, refused, stateChanging, buildRestApplyRequest] using allowed
              · exact appliesOnce_failed sent ready.once_append

/-- The first read lets the REST lane write to the record of the proposal only. -/
def Addressed (site : ApplySite Url) (proposal : EnrichmentProposal)
    (laneCache : Option ApplyLane) (first : Answer) : Prop :=
  laneCache = some .form ∨ ∀ record, recordOf site first = .ok record →
    record.revision = proposal.baseRevision →
    recordUrl site record.key = recordUrl site proposal.recordKey

theorem addressed_iff {laneCache : Option ApplyLane} {first : Answer} {record : OpenLibraryRecord}
    (found : recordOf site first = .ok record) (same : record.revision = proposal.baseRevision) :
    Addressed site proposal laneCache first ↔
      (laneCache = some .form ∨ recordUrl site record.key = recordUrl site proposal.recordKey) := by
  unfold Addressed
  rw [found]
  constructor
  · rintro (cached | addressed)
    · exact .inl cached
    · exact .inr (addressed record rfl same)
  · rintro (cached | addressed)
    · exact .inl cached
    · refine .inr ?_
      rintro other read -
      cases read
      exact addressed

/-- A record under another address is written to. -/
theorem misdirected {laneCache : Option ApplyLane} {record : OpenLibraryRecord}
    (uncached : laneCache ≠ some .form)
    (elsewhere : recordUrl site record.key ≠ recordUrl site proposal.recordKey)
    (server : List (Exchange Url) → HttpRequest Url → Answer) :
    ¬ WritesFresh site proposal
      (run server said (writeLanes site session proposal laneCache record)).1 := by
  intro writes
  unfold writeLanes at writes
  rw [if_neg uncached] at writes
  exact elsewhere (writes.targets _ (mem_run_put_bind said _ _) rfl)

/-- The apply keeps its promise in every run exactly if the record that the first read found
at the base revision lives at the address of the proposal's record, unless the session is
known to write over the form. -/
theorem applies_once_iff (site : ApplySite Url) (session : OpenLibrarySession)
    (proposal : EnrichmentProposal) (laneCache : Option ApplyLane)
    (server : List (Exchange Url) → HttpRequest Url → Answer) :
    (AppliesOnce site proposal
      (run server [] (executeEnrichmentApplyUnchecked site session proposal laneCache)).1
      (run server [] (executeEnrichmentApplyUnchecked site session proposal laneCache)).2.1) ↔
    Addressed site proposal laneCache
      (server [] (buildRecordRequest site proposal.recordKey)) := by
  unfold executeEnrichmentApplyUnchecked
  rw [withoutDrift, run_readRecord]
  have start : Unwritten site proposal [] := ⟨writesFresh_nil, quiet_nil⟩
  have later : Unwritten site proposal [(buildRecordRequest site proposal.recordKey,
      server [] (buildRecordRequest site proposal.recordKey))] := start.read rfl
  generalize server [] (buildRecordRequest site proposal.recordKey) = first at later ⊢
  cases found : recordOf site first with
  | error message =>
      refine iff_of_true (later.ends nofun) (.inr ?_)
      intro record read
      rw [found] at read
      cases read
  | ok record =>
      dsimp only
      split
      case isTrue drifted =>
          refine iff_of_true (later.ends nofun) (.inr ?_)
          intro other read same
          rw [found] at read
          cases read
          exact absurd same drifted
      case isFalse same =>
          have ready := ready_of_read start found (not_not.mp same)
          constructor
          · intro keeps
            by_contra astray
            rw [addressed_iff found (not_not.mp same), not_or] at astray
            exact misdirected astray.1 astray.2 server keeps.writes
          · intro addressed
            rw [addressed_iff found (not_not.mp same)] at addressed
            exact run_of_always (lanes_keep ready addressed)

end Protocol

section Merged

def mergedText : Text := "\x7b\"key\":\"/books/OL2M\",\"revision\":3\x7d".toList

def merged : OpenLibraryRecord where
  key := "/books/OL2M".toList
  revision := 3
  raw := .object [("key", .string "/books/OL2M".toList), ("revision", .number 3)]

def writtenText : Text :=
  "\x7b\"_comment\":\"Add isbn_13\",\"isbn_13\":[\"9780140328721\"],\"key\":\"/books/OL2M\",\"revision\":3\x7d".toList

/-- Libraries that know the texts of one exchange. -/
def catalogue : ApplySite (Text × List Text) where
  urls := httpsUrls
  originBase := ("openlibrary.org".toList, [[]])
  fromSlice body := if body = utf8Bytes mergedText then some merged.raw else none
  toBytes _ := utf8Bytes writtenText
  utf8Lossy body := body.map fun byte => Char.ofNat byte.toNat
  formUrlencoded _ := []
  patterns :=
    { formOpen := fun _ => [], selectBlock := fun _ => [], textareaBlock := fun _ => []
      selectedOption := fun _ => none, optionValue := fun _ => none, radioTag := fun _ => []
      inputTag := fun _ => [], attrName := fun _ => none, attrValue := fun _ => none
      attrType := fun _ => none }
  toLowercase := List.map Char.toLower

def addIsbn : EnrichmentProposal where
  recordKey := "/books/OL1M".toList
  baseRevision := 3
  field := "isbn_13"
  current := none
  proposed := .array [.string "9780140328721".toList]
  source := "derived from ISBN-10 0140328726 (record)".toList
  comment := "Add isbn_13".toList

/-- A server that merged the record into another one and answers with that. -/
def mergedServer (_ : List (Exchange (Text × List Text))) (_ : HttpRequest (Text × List Text)) :
    Answer := .ok { status := 200, headers := [], body := utf8Bytes mergedText }

theorem recordOf_read {response : HttpResponse} {record : OpenLibraryRecord}
    (good : isSuccess response.status = true)
    (whole : parseRecord catalogue response.body = some record) :
    recordOf catalogue (.ok response) = .ok record := by
  simp only [recordOf, bind, Except.bind, good, if_true, whole]

/-- The read is redirected to another record, and that one is written. -/
theorem merged_written : ¬ AppliesOnce catalogue addIsbn
    (Dialogue.run mergedServer []
      (executeEnrichmentApplyUnchecked catalogue ⟨"session=a".toList⟩ addIsbn none)).1
    (Dialogue.run mergedServer []
      (executeEnrichmentApplyUnchecked catalogue ⟨"session=a".toList⟩ addIsbn none)).2.1 := by
  have read : recordOf catalogue (mergedServer [] (buildRecordRequest catalogue
      addIsbn.recordKey)) = .ok merged := by
    have parsed : catalogue.fromSlice (utf8Bytes mergedText) = some merged.raw := by
      simp only [catalogue, if_pos]
    have whole : parseRecord catalogue (utf8Bytes mergedText) = some merged := by
      rw [parseRecord, parsed]
      rfl
    exact recordOf_read (by decide) whole
  intro keeps
  have writes := keeps.writes
  unfold executeEnrichmentApplyUnchecked at writes
  rw [withoutDrift, run_readRecord, read] at writes
  have elsewhere : recordUrl catalogue merged.key ≠ recordUrl catalogue addIsbn.recordKey := by
    decide
  have uncached : (none : Option ApplyLane) ≠ some .form := by decide
  exact misdirected uncached elsewhere mergedServer writes

end Merged

end SP42.Citation
