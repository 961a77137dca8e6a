import SP42.Citation.Panel
import SP42.Citation.Grounding

/-!
The panel accounts for every model, and a repair turn repairs transcriptions only: the
votes, the verdict and the agreement stay, and a located finding stays located.
-/
namespace SP42.Citation

section Turn

variable {Url : Type} {engine : Engine Url} {models : ModelClient}

/-- A vote with the same call, verdict and quote, repaired or not. -/
def SameVote (vote other : ModelVerdict) : Prop :=
  other.invocation = vote.invocation ∧ other.parsed = vote.parsed

theorem forall₂_modify {α : Type} {R : α → α → Prop} {items others : List α}
    (related : List.Forall₂ R items others) {change : α → α}
    (keeps : ∀ item other, R item other → R item (change other)) (position : Nat) :
    List.Forall₂ R items (others.modify position change) := by
  induction related generalizing position with
  | nil => simp
  | cons first _ ih =>
      cases position with
      | zero => exact .cons (keeps _ _ first) ‹_›
      | succ position => exact .cons first (ih position)

theorem sameVote_repairs (repairs : List (Nat × Except CitationVerificationError RepairAttempt))
    {verdicts others : List ModelVerdict} (related : List.Forall₂ SameVote verdicts others) :
    List.Forall₂ SameVote verdicts (repairs.foldl recordRepair others) := by
  induction repairs generalizing others with
  | nil => exact related
  | cons repair rest ih =>
      apply ih
      unfold recordRepair
      split
      · rename_i attempt _
        exact @forall₂_modify _ SameVote _ _ related
          (fun vote => { vote with repair := some attempt }) (fun _ _ same => same) _
      · exact related

theorem runRepairTurn_same (params : SamplingParams) (concurrency : Nat)
    (inputs : VerifyModelInputs) (sourceText : Text) (verdicts : List ModelVerdict) :
    List.Forall₂ SameVote verdicts
      (runRepairTurn engine models params concurrency inputs sourceText verdicts).1 := by
  apply sameVote_repairs
  exact List.forall₂_same.mpr fun vote _ => ⟨rfl, rfl⟩

/-- One call for each vote that waits, in their order. -/
theorem runRepairTurn_calls (params : SamplingParams) (concurrency : Nat)
    (inputs : VerifyModelInputs) (sourceText : Text) (verdicts : List ModelVerdict) :
    (runRepairTurn engine models params concurrency inputs sourceText verdicts).2.map
        (fun call => (call.kind, call.position)) =
      (pendingRepairs engine sourceText verdicts).map fun pending =>
        (CallKind.repair, pending.position) := by
  unfold runRepairTurn
  dsimp only
  rw [mapWithConcurrency_map, List.flatMap_map]
  generalize pendingRepairs engine sourceText verdicts = waiting
  induction waiting with
  | nil => rfl
  | cons pending rest ih =>
      rw [List.flatMap_cons, List.map_append, List.map_cons, ih]
      rfl

end Turn

section Votes

variable {Url : Type} {engine : Engine Url} {models : ModelClient} {params : SamplingParams}
  {inputs : VerifyModelInputs}

/-- Where the claim and the source are not blank, every model's vote is there. -/
theorem panelVote_ok (claim : Text.trim inputs.claim ≠ []) (source : Text.trim inputs.sourceText ≠ [])
    (model : ModelRef) (position : Nat) :
    ∃ vote request, panelVote engine models params inputs model position =
        (.ok vote, [⟨.verify, position, request⟩]) ∧
      vote.invocation.model = model ∧ vote.repair = none := by
  have built : ∃ request invocation,
      buildVerifyCompletionRequest engine model params inputs = .ok (request, invocation) ∧
        invocation.model = model := by
    unfold buildVerifyCompletionRequest
    rw [if_neg claim, if_neg source]
    exact ⟨_, _, rfl, rfl⟩
  obtain ⟨request, invocation, run, same⟩ := built
  unfold panelVote executeCitationVerify sourceUnavailableModelVote
  rw [run]
  dsimp only
  cases models.verify position request with
  | error message => exact ⟨_, request, rfl, same, rfl⟩
  | ok completion => exact ⟨_, request, rfl, same, rfl⟩

theorem mapM_ok {α ε β : Type} {items : List α} {f : α → Except ε β} {g : α → β}
    (total : ∀ item ∈ items, f item = .ok (g item)) : items.mapM f = .ok (items.map g) := by
  induction items with
  | nil => rfl
  | cons item rest ih =>
      rw [List.mapM_cons, total item List.mem_cons_self,
        ih fun other member => total other (List.mem_cons_of_mem item member)]
      rfl

/-- The panel votes in its order, each model is asked once, and nothing is repaired yet. -/
theorem panel_votes (claim : Text.trim inputs.claim ≠ []) (source : Text.trim inputs.sourceText ≠ [])
    (panel : List ModelRef) (limit : Nat) :
    ∃ verdicts,
      ((mapWithConcurrency panel limit (panelVote engine models params inputs)).map Prod.fst).mapM id
        = .ok verdicts ∧
      verdicts.map (fun vote => vote.invocation.model) = panel ∧
      (∀ vote ∈ verdicts, vote.repair = none) ∧
      ∀ call ∈ (mapWithConcurrency panel limit (panelVote engine models params inputs)).flatMap
        Prod.snd, call.kind = .verify := by
  choose vote request run same fresh using
    @panelVote_ok Url engine models params inputs claim source
  have results : mapWithConcurrency panel limit (panelVote engine models params inputs) =
      panel.zipIdx.map fun entry => (Except.ok (vote entry.1 entry.2),
        [⟨CallKind.verify, entry.2, request entry.1 entry.2⟩]) := by
    rw [mapWithConcurrency_zipIdx]
    simp only [run]
  refine ⟨panel.zipIdx.map fun entry => vote entry.1 entry.2, ?_, ?_, ?_, ?_⟩
  · rw [results, List.map_map, List.mapM_map]
    exact mapM_ok fun entry _ => rfl
  · rw [List.map_map]
    calc panel.zipIdx.map _ = panel.zipIdx.map Prod.fst := by
          apply List.map_congr_left
          intro entry _
          exact same entry.1 entry.2
      _ = panel := List.zipIdx_map_fst 0 panel
  · intro ballot member
    obtain ⟨entry, _, rfl⟩ := List.mem_map.mp member
    exact fresh entry.1 entry.2
  · intro call member
    rw [results, List.flatMap_map] at member
    obtain ⟨entry, _, inside⟩ := List.mem_flatMap.mp member
    rw [List.mem_singleton.mp inside]

end Votes

section Account

variable {Url : Type}

/-- A vote of the support class whose claimed quote does not stand in the source. -/
def needsRepair (unicode : Unicode) (sourceText : Text) (vote : ModelVote) : Bool :=
  (vote.verdict = .judged .supported || vote.verdict = .judged .partially) &&
    vote.claimedQuote.any fun quote => (locateQuote unicode quote sourceText).isNone

/-- The positions that a repair call was issued for. -/
def repairPositions (calls : List Call) : List Nat :=
  (calls.filter fun call => call.kind = .repair).map Call.position

/-- What the claim and the fetched source must be for the panel to be asked. -/
structure Judgeable (engine : Engine Url) (fetch : Url → Except Text HttpResponse)
    (panel : List ModelRef) (request : CitationVerificationRequest Url) (options : VerifyOptions)
    (fetched : FetchedSource) : Prop where
  panel : panel ≠ []
  claim : Text.trim request.claim ≠ []
  source : options.prefetched.elim
    (fetchSource engine fetch (engine.urls.asStr request.sourceUrl)) Except.ok = .ok fetched
  usable : (sourceUsability engine (engine.urls.asStr request.sourceUrl) fetched).usable = true
  snippet : fetched.bookSnippet = true → Text.trim fetched.text ≠ []

/-- The run without repairs and the run with them, side by side. -/
structure RepairAccount (unicode : Unicode) (sourceText : Text) (panel : List ModelRef)
    (off on : VerificationOutcome Url) (offCalls onCalls : List Call) : Prop where
  offVotes : off.votes.map (fun vote => vote.invocation.model) = panel
  onVotes : on.votes.map (fun vote => vote.invocation.model) = panel
  verdict : on.finding.verdict = off.finding.verdict
  agreement : on.finding.agreement = off.finding.agreement
  votes : on.votes.map (fun vote => (vote.verdict, vote.claimedQuote)) =
    off.votes.map fun vote => (vote.verdict, vote.claimedQuote)
  offCalls : repairPositions offCalls = []
  onCalls : repairPositions onCalls =
    (off.votes.zipIdx.filter fun entry => needsRepair unicode sourceText entry.1).map Prod.snd
  located : off.finding.groundingStatus = .located → on.finding.groundingStatus = .located
  fuzzy : off.finding.groundingStatus = .locatedFuzzy →
    on.finding.groundingStatus = .located ∨ on.finding.groundingStatus = .locatedFuzzy

/-- A body that may be judged is not blank. -/
theorem Judgeable.notBlank {engine : Engine Url} {fetch : Url → Except Text HttpResponse}
    {panel : List ModelRef} {request : CitationVerificationRequest Url} {options : VerifyOptions}
    {fetched : FetchedSource}
    (judgeable : Judgeable engine fetch panel request options fetched) :
    Text.trim fetched.text ≠ [] := by
  by_cases book : fetched.bookSnippet = true
  · exact judgeable.snippet book
  · have usable := judgeable.usable
    unfold sourceUsability at usable
    rw [Bool.not_eq_true] at book
    simp only [book, Bool.false_and, Bool.false_eq_true, if_false] at usable
    obtain ⟨body, whole, long⟩ := classifySourceUsability_usable usable
    split at whole
    · cases whole
    · cases whole
      intro blank
      rw [blank] at long
      exact absurd long (by decide)

theorem needsRepair_map (engine : Engine Url) (sourceText : Text) (votes : List ModelVerdict) :
    (buildModelVotes engine.unicode votes sourceText).map (needsRepair engine.unicode sourceText) =
      votes.map fun vote => (failedQuote engine sourceText vote).isSome := by
  unfold buildModelVotes needsRepair failedQuote
  rw [List.map_map]
  apply List.map_congr_left
  intro vote _
  dsimp only [Function.comp_apply]
  cases vote.parsed.verdict <;> cases vote.parsed.quote <;>
    simp [Verdict.toCitation, Verdict.isSupportClass, Option.filter]
  all_goals split <;> simp_all [Option.isSome_iff_ne_none]

/-- The positions kept by a test depend on the answers of the test alone. -/
theorem filter_zipIdx_map {α β : Type} (test : α → Bool) (other : β → Bool) {items : List α}
    {others : List β} (same : items.map test = others.map other) :
    (items.zipIdx.filter fun entry => test entry.1).map Prod.snd =
      (others.zipIdx.filter fun entry => other entry.1).map Prod.snd := by
  have flags {γ : Type} (keep : γ → Bool) (members : List γ) :
      (members.zipIdx.filter fun entry => keep entry.1).map Prod.snd =
        ((members.map keep).zipIdx.filter fun entry => entry.1).map Prod.snd := by
    rw [List.zipIdx_map, List.filter_map, List.map_map]
    rfl
  rw [flags, same, ← flags]

theorem pendingRepairs_positions (engine : Engine Url) (sourceText : Text)
    (verdicts : List ModelVerdict) :
    (pendingRepairs engine sourceText verdicts).map Pending.position =
      (verdicts.zipIdx.filter fun entry => (failedQuote engine sourceText entry.1).isSome).map
        Prod.snd := by
  unfold pendingRepairs
  generalize verdicts.zipIdx = entries
  induction entries with
  | nil => rfl
  | cons entry rest ih =>
      rw [List.filterMap_cons, List.filter_cons]
      cases failedQuote engine sourceText entry.1 with
      | none => exact ih
      | some quote => exact congrArg (entry.2 :: ·) ih

theorem repairPositions_of_verify {calls : List Call} (asked : ∀ call ∈ calls, call.kind = .verify) :
    repairPositions calls = [] := by
  unfold repairPositions
  rw [List.map_eq_nil_iff, List.filter_eq_nil_iff]
  intro call member
  simp [asked call member]

theorem repairPositions_of_repair {calls : List Call} {waiting : List Pending}
    (asked : calls.map (fun call => (call.kind, call.position)) =
      waiting.map fun pending => (CallKind.repair, pending.position)) :
    repairPositions calls = waiting.map Pending.position := by
  induction waiting generalizing calls with
  | nil => rw [List.map_eq_nil_iff.mp asked]; rfl
  | cons pending rest ih =>
      cases calls with
      | nil => cases asked
      | cons call others =>
          obtain ⟨first, later⟩ := List.cons.inj asked
          obtain ⟨kind, position⟩ := Prod.mk.inj first
          unfold repairPositions
          rw [List.filter_cons, if_pos (decide_eq_true kind), List.map_cons, position]
          exact congrArg (pending.position :: ·) (ih later)

/-- What is found for a vote is found for it after a repair too. -/
theorem locateVoteQuote_repaired {unicode : Unicode} {sourceText : Text}
    {vote other : ModelVerdict} (same : SameVote vote other) (fresh : vote.repair = none)
    (found : (locateVoteQuote unicode vote sourceText).isSome = true) :
    (locateVoteQuote unicode other sourceText).isSome = true := by
  unfold locateVoteQuote at found ⊢
  rw [same.2, Option.isSome_or, Bool.or_eq_true]
  left
  rw [fresh] at found
  simpa using found

theorem fuzzyLocateVoteQuote_repaired {unicode : Unicode} {sourceText : Text}
    {vote other : ModelVerdict} (same : SameVote vote other) (fresh : vote.repair = none)
    (found : (fuzzyLocateVoteQuote unicode vote sourceText).isSome = true) :
    (fuzzyLocateVoteQuote unicode other sourceText).isSome = true := by
  unfold fuzzyLocateVoteQuote at found ⊢
  rw [same.2, Option.isSome_or, Bool.or_eq_true]
  left
  rw [fresh] at found
  simpa using found

section Repaired

variable {unicode : Unicode} {sourceText : Text} {votes others : List ModelVerdict}

theorem verdictsOf_same (related : List.Forall₂ SameVote votes others) :
    verdictsOf others = verdictsOf votes := by
  induction related with
  | nil => rfl
  | cons first _ ih => exact congrArg₂ List.cons (congrArg ParsedVerdict.verdict first.2) ih

theorem anyFound_repaired {α : Type} {find : ModelVerdict → Option α} {verdict : Verdict}
    (related : List.Forall₂ SameVote votes others)
    (keeps : ∀ vote other, vote ∈ votes → SameVote vote other → (find vote).isSome = true →
      (find other).isSome = true)
    (found : anyFound votes find verdict = true) : anyFound others find verdict = true := by
  unfold anyFound at found ⊢
  induction related with
  | nil => exact found
  | cons first _ ih =>
      rw [List.any_cons, Bool.or_eq_true] at found ⊢
      rcases found with here | later
      · left
        rw [Bool.and_eq_true] at here ⊢
        rw [first.2]
        exact ⟨here.1, keeps _ _ List.mem_cons_self first here.2⟩
      · right
        apply ih _ later
        intro vote other member
        exact keeps vote other (List.mem_cons_of_mem _ member)

theorem gateStatus_repaired (related : List.Forall₂ SameVote votes others)
    (fresh : ∀ vote ∈ votes, vote.repair = none) :
    (gateStatus unicode sourceText votes = .located →
      gateStatus unicode sourceText others = .located) ∧
    (gateStatus unicode sourceText votes = .locatedFuzzy →
      gateStatus unicode sourceText others = .located ∨
        gateStatus unicode sourceText others = .locatedFuzzy) := by
  have elected : electedVerdict others = electedVerdict votes := by
    unfold electedVerdict
    rw [verdictsOf_same related]
  unfold gateStatus
  rw [elected]
  cases electedVerdict votes with
  | none => simp
  | some verdict =>
      have stands := @anyFound_repaired _ _ _
        (fun vote => locateVoteQuote unicode vote sourceText) verdict related
        fun vote other member same => locateVoteQuote_repaired same (fresh vote member)
      have near := @anyFound_repaired _ _ _
        (fun vote => fuzzyLocateVoteQuote unicode vote sourceText) verdict related
        fun vote other member same => fuzzyLocateVoteQuote_repaired same (fresh vote member)
      cases supports : verdict.isSupportClass with
      | false => simp [supports]
      | true =>
          cases exactly : anyFound votes (fun vote => locateVoteQuote unicode vote sourceText)
              verdict with
          | true => simp [supports, exactly, stands exactly]
          | false =>
              cases fuzzily : anyFound votes
                  (fun vote => fuzzyLocateVoteQuote unicode vote sourceText) verdict with
              | false => simp [supports, exactly, fuzzily]
              | true =>
                  have found := near fuzzily
                  cases repaired : anyFound others
                      (fun vote => locateVoteQuote unicode vote sourceText) verdict with
                  | true => simp [supports, exactly, fuzzily, repaired]
                  | false => simp [supports, exactly, fuzzily, repaired, found]

end Repaired

theorem judge_eq {engine : Engine Url} {models : ModelClient} {panel : List ModelRef}
    {inputs : VerifyModelInputs} {options : VerifyOptions} {verdicts : List ModelVerdict}
    (counted : ((mapWithConcurrency panel (max options.concurrency 1)
      (panelVote engine models options.params inputs)).map Prod.fst).mapM id = .ok verdicts) :
    judge engine models panel inputs options =
      if options.repairTurn then
        (.ok (runRepairTurn engine models options.params (max options.concurrency 1) inputs
            inputs.sourceText verdicts).1,
          (mapWithConcurrency panel (max options.concurrency 1)
            (panelVote engine models options.params inputs)).flatMap Prod.snd ++
          (runRepairTurn engine models options.params (max options.concurrency 1) inputs
            inputs.sourceText verdicts).2)
      else (.ok verdicts, (mapWithConcurrency panel (max options.concurrency 1)
        (panelVote engine models options.params inputs)).flatMap Prod.snd) := by
  unfold judge
  dsimp only
  rw [counted]

section Runs

variable {engine : Engine Url} {fetch : Url → Except Text HttpResponse} {models : ModelClient}
  {nowMs : Int} {panel : List ModelRef} {request : CitationVerificationRequest Url}
  {context : Option ClaimContext} {useSiteOrdinal : Nat} {options : VerifyOptions}
  {fetched : FetchedSource}

theorem outcomeOf_votes (provenance : SourceProvenance Url) (sourceText : Text)
    (verdicts : List ModelVerdict) :
    (outcomeOf engine provenance sourceText verdicts useSiteOrdinal).votes =
      buildModelVotes engine.unicode verdicts sourceText := rfl

theorem outcomeOf_finding (provenance : SourceProvenance Url) (sourceText : Text)
    (verdicts : List ModelVerdict) :
    let finding := (outcomeOf engine provenance sourceText verdicts useSiteOrdinal).finding
    finding.verdict = gateVerdict verdicts ∧ finding.agreement = gateAgreement verdicts ∧
      finding.groundingStatus = gateStatus engine.unicode sourceText verdicts := by
  obtain ⟨verdict, agreement, status, _⟩ :=
    @assembleCitationFinding_spec Url engine.unicode sourceText verdicts provenance useSiteOrdinal
  exact ⟨verdict, agreement, status⟩

theorem buildModelVotes_same {unicode : Unicode} {sourceText : Text}
    {votes others : List ModelVerdict} (related : List.Forall₂ SameVote votes others) :
    (buildModelVotes unicode others sourceText).map
        (fun vote => (vote.invocation, vote.verdict, vote.claimedQuote)) =
      (buildModelVotes unicode votes sourceText).map
        fun vote => (vote.invocation, vote.verdict, vote.claimedQuote) := by
  unfold buildModelVotes
  rw [List.map_map, List.map_map]
  induction related with
  | nil => rfl
  | cons first _ ih =>
      rw [List.map_cons, List.map_cons, ih]
      dsimp only [Function.comp_apply]
      rw [first.1, first.2]

/-- The runs without and with repairs, from the votes that both start with. -/
theorem repairAccount_of_votes {verdicts repaired : List ModelVerdict} {asked repairs : List Call}
    {provenance : SourceProvenance Url} {sourceText : Text}
    (ballots : verdicts.map (fun vote => vote.invocation.model) = panel)
    (fresh : ∀ vote ∈ verdicts, vote.repair = none)
    (verifyOnly : ∀ call ∈ asked, call.kind = .verify)
    (related : List.Forall₂ SameVote verdicts repaired)
    (turn : repairs.map (fun call => (call.kind, call.position)) =
      (pendingRepairs engine sourceText verdicts).map fun pending =>
        (CallKind.repair, pending.position)) :
    RepairAccount engine.unicode sourceText panel
      (outcomeOf engine provenance sourceText verdicts useSiteOrdinal)
      (outcomeOf engine provenance sourceText repaired useSiteOrdinal) asked
      (asked ++ repairs) := by
  obtain ⟨verdict, agreement, status⟩ := @outcomeOf_finding Url engine useSiteOrdinal provenance
    sourceText verdicts
  obtain ⟨verdict', agreement', status'⟩ := @outcomeOf_finding Url engine useSiteOrdinal provenance
    sourceText repaired
  have kept := @gateStatus_repaired engine.unicode sourceText _ _ related fresh
  have same := @buildModelVotes_same engine.unicode sourceText _ _ related
  have counted := verdictsOf_same related
  have offVotes : (buildModelVotes engine.unicode verdicts sourceText).map
      (fun vote => vote.invocation.model) = panel := by
    rw [← ballots]
    unfold buildModelVotes
    rw [List.map_map]
    rfl
  refine ⟨offVotes, ?_, ?_, ?_, ?_, repairPositions_of_verify verifyOnly, ?_, ?_, ?_⟩
  · have models := congrArg (List.map fun entry => entry.1.model) same
    rw [List.map_map, List.map_map] at models
    rw [outcomeOf_votes, ← offVotes]
    exact models
  · rw [verdict, verdict', gateVerdict, gateVerdict, electedVerdict, electedVerdict, counted]
  · rw [agreement, agreement', gateAgreement, gateAgreement, counted]
  · have contents := congrArg (List.map Prod.snd) same
    rw [List.map_map, List.map_map] at contents
    exact contents
  · rw [repairPositions, List.filter_append, List.map_append]
    have quiet := repairPositions_of_verify verifyOnly
    have issued := repairPositions_of_repair turn
    unfold repairPositions at quiet issued
    rw [quiet, issued, List.nil_append, pendingRepairs_positions]
    exact filter_zipIdx_map _ _ (needsRepair_map engine sourceText verdicts).symm
  · rw [status, status']
    exact kept.1
  · rw [status, status']
    exact kept.2

end Runs

/-- The panel accounts for every model, and the repair turn repairs transcriptions only. -/
theorem panel_accounts (engine : Engine Url) (fetch : Url → Except Text HttpResponse)
    (models : ModelClient) (nowMs : Int) (panel : List ModelRef)
    (request : CitationVerificationRequest Url) (context : Option ClaimContext)
    (useSiteOrdinal : Nat) (options : VerifyOptions) (fetched : FetchedSource)
    (judgeable : Judgeable engine fetch panel request options fetched) :
    ∃ off on offCalls onCalls,
      verifyCitationUseSite engine fetch models nowMs panel request context useSiteOrdinal
          { options with repairTurn := false } = (.ok off, offCalls) ∧
      verifyCitationUseSite engine fetch models nowMs panel request context useSiteOrdinal
          { options with repairTurn := true } = (.ok on, onCalls) ∧
      RepairAccount engine.unicode fetched.text panel off on offCalls onCalls := by
  let inputs := modelInputs engine fetch request context options fetched
  let limit := max options.concurrency 1
  let asked := (mapWithConcurrency panel limit
    (panelVote engine models options.params inputs)).flatMap Prod.snd
  obtain ⟨verdicts, counted, ballots, fresh, verifyOnly⟩ :=
    @panel_votes Url engine models options.params inputs judgeable.claim judgeable.notBlank panel
      limit
  let turn := runRepairTurn engine models options.params limit inputs fetched.text verdicts
  let provenance := provenanceOf engine nowMs request.sourceUrl fetched
  have off : Judgeable engine fetch panel request { options with repairTurn := false } fetched :=
    ⟨judgeable.panel, judgeable.claim, judgeable.source, judgeable.usable, judgeable.snippet⟩
  have on : Judgeable engine fetch panel request { options with repairTurn := true } fetched :=
    ⟨judgeable.panel, judgeable.claim, judgeable.source, judgeable.usable, judgeable.snippet⟩
  refine ⟨outcomeOf engine provenance fetched.text verdicts useSiteOrdinal,
    outcomeOf engine provenance fetched.text turn.1 useSiteOrdinal, asked, asked ++ turn.2,
    verifyCitationUseSite_votes off.panel off.source off.usable ?_,
    verifyCitationUseSite_votes on.panel on.source on.usable ?_, ?_⟩
  · exact (@judge_eq Url engine models panel inputs { options with repairTurn := false } verdicts
      counted).trans (if_neg Bool.false_ne_true)
  · exact (@judge_eq Url engine models panel inputs { options with repairTurn := true } verdicts
      counted).trans (if_pos rfl)
  · exact repairAccount_of_votes ballots fresh verifyOnly
      (runRepairTurn_same options.params limit inputs fetched.text verdicts)
      (runRepairTurn_calls options.params limit inputs fetched.text verdicts)

end Account

/-- An engine for plain texts in which no detector fires. -/
def plainEngine : Engine (Text × List Text) where
  urls := httpsUrls
  parseWithParams := fun base params =>
    httpsUrls.parse (base ++ ['?'] ++ Text.join ['&'] (params.map fun param =>
      param.1 ++ ['='] ++ param.2.map fun c => if c = ' ' then '+' else c))
  metadataBase := ("archive.org".toList, ["metadata".toList])
  booksApiBase := ("openlibrary.org".toList, ["api".toList, "books".toList])
  unicode := asciiTables
  patterns :=
    { jsonLdPrefix := fun _ => false
      jsonLdKeyword := fun _ => false
      cssRuleLike := fun _ => false
      antiBot := fun _ => false
      waybackRedirect := fun _ => false
      waybackBanner := fun _ => false
      waybackCaptures := fun _ => false
      waybackCollected := fun _ => false
      amazonStub := fun _ => false
      contentTierGated := fun _ => false
      paywallPhrase := fun _ => false
      consentMarker := fun _ => false
      sentenceEnds := fun _ => 0
      ldJsonBlocks := fun _ => [] }
  extraction :=
    { rewriteWaybackUrl := id
      utf8Lossy := fun body => body.map fun byte => Char.ofNat byte.toNat
      looksLikeHtml := fun _ _ => false
      htmlToText := id
      recoverWaybackBody := id }
  fromStr := fun _ => none
  fromSlice := fun _ => none
  debugText := fun text => ['"'] ++ text ++ ['"']
  sha256Hex := fun _ => []
  serialize := fun messages => utf8Bytes (messages.flatMap ChatMessage.content)
  instructions := ⟨[], []⟩
  parseVerdictResponse := fun text => some ⟨.supported, some text⟩
  parseRepairResponse := some
  citoidUrl := fun _ => ("en.wikipedia.org".toList, [])
  citoidMetadata := fun _ _ => none

def plainBody : FetchedSource := ⟨List.replicate 300 'a', 200, "text/plain".toList, none, false⟩

def plainRequest : CitationVerificationRequest (Text × List Text) :=
  ⟨"enwiki".toList, 7, "Cats".toList, "Cats purr.".toList, ("example.org".toList, [])⟩

def plainOptions : VerifyOptions := ⟨false, 3, ⟨[]⟩, true, some plainBody, none⟩

def plainPanel : List ModelRef := [⟨"local".toList, "one".toList, "one".toList⟩]

theorem plain_judgeable : Judgeable plainEngine (fun _ => .error []) plainPanel plainRequest
    plainOptions plainBody where
  panel := by decide
  claim := by decide +kernel
  source := rfl
  usable := by decide +kernel
  snippet := by decide +kernel

def plainModels : ModelClient := ⟨fun _ _ => .ok "aab".toList, fun _ _ => .ok "aaa".toList⟩

theorem panel_accounts_plain : ∃ off on offCalls onCalls,
    verifyCitationUseSite plainEngine (fun _ => .error []) plainModels 0 plainPanel plainRequest none
        0 { plainOptions with repairTurn := false } = (.ok off, offCalls) ∧
    verifyCitationUseSite plainEngine (fun _ => .error []) plainModels 0 plainPanel plainRequest none
        0 { plainOptions with repairTurn := true } = (.ok on, onCalls) ∧
    RepairAccount plainEngine.unicode plainBody.text plainPanel off on offCalls onCalls :=
  panel_accounts plainEngine (fun _ => .error []) plainModels 0 plainPanel plainRequest none 0
    plainOptions plainBody plain_judgeable

end SP42.Citation
