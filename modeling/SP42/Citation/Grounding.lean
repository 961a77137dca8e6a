import SP42.Citation.Finding

/-!
The grounding gate is exact. A finding is groundable when the elected verdict is a support
judgment and a vote for it offers a quote that stands in the source, and only then; it
does not depend on the order of the votes.
-/
namespace SP42.Citation

def verdictsOf (votes : List ModelVerdict) : List Verdict := votes.map fun vote => vote.parsed.verdict

def electedVerdict (votes : List ModelVerdict) : Option Verdict :=
  (nClassVote (verdictsOf votes)).map NClassVote.winner

/-- The claimed and the repaired quote of a vote. -/
def offeredQuotes (vote : ModelVerdict) : List Text :=
  vote.parsed.quote.toList ++ (vote.repair.bind RepairAttempt.quote).toList

section Gate

variable {Url : Type} (unicode : Unicode) (sourceText : Text) (votes : List ModelVerdict)

/-- A vote for the verdict offers the quote, and the quote stands in the source at the
offset. -/
def Backs (verdict : Verdict) (quote : Text) (offset : Nat) : Prop :=
  ∃ vote ∈ votes, vote.parsed.verdict = verdict ∧ quote ∈ offeredQuotes vote ∧
    locateQuote unicode quote sourceText = some offset

/-- The elected verdict is a support judgment that a located quote backs. -/
def SupportBacked : Prop :=
  ∃ verdict, electedVerdict votes = some verdict ∧ verdict.isSupportClass = true ∧
    ∃ quote offset, Backs unicode sourceText votes verdict quote offset

structure GateExact (provenance : SourceProvenance Url) (useSiteOrdinal : Nat) : Prop where
  groundable : isGroundableSupport
      (assembleCitationFinding unicode sourceText provenance votes useSiteOrdinal) = true ↔
    SupportBacked unicode sourceText votes
  grounded : isGroundableSupport
      (assembleCitationFinding unicode sourceText provenance votes useSiteOrdinal) = true →
    ∃ verdict quote offset, electedVerdict votes = some verdict ∧
      Backs unicode sourceText votes verdict quote offset ∧
      (assembleCitationFinding unicode sourceText provenance votes useSiteOrdinal).passage =
        some ⟨quote, offset⟩ ∧
      (assembleCitationFinding unicode sourceText provenance votes useSiteOrdinal).grounding =
        .locatedQuote quote provenance.contentHash offset
  fuzzy : (assembleCitationFinding unicode sourceText provenance votes
      useSiteOrdinal).groundingStatus = .locatedFuzzy →
    ¬ SupportBacked unicode sourceText votes ∧
      ∃ passage rest,
        (assembleCitationFinding unicode sourceText provenance votes useSiteOrdinal).passage =
          some passage ∧
        Bytes.sliceFrom sourceText passage.offset = some rest ∧ passage.quote <+: rest
  supported : (assembleCitationFinding unicode sourceText provenance votes
      useSiteOrdinal).verdict = .judged .supported →
    ∀ verdict, verdict ≠ Verdict.supported →
      (verdictsOf votes).count verdict < (verdictsOf votes).count .supported
  reordered : ∀ others : List ModelVerdict, votes.Perm others →
    (assembleCitationFinding unicode sourceText provenance others useSiteOrdinal).verdict =
        (assembleCitationFinding unicode sourceText provenance votes useSiteOrdinal).verdict ∧
      (assembleCitationFinding unicode sourceText provenance others useSiteOrdinal).agreement =
        (assembleCitationFinding unicode sourceText provenance votes useSiteOrdinal).agreement ∧
      (assembleCitationFinding unicode sourceText provenance others
          useSiteOrdinal).groundingStatus =
        (assembleCitationFinding unicode sourceText provenance votes
          useSiteOrdinal).groundingStatus

/-- Some vote for the verdict has a quote that is found. -/
def anyFound {α : Type} (find : ModelVerdict → Option α) (verdict : Verdict) : Bool :=
  votes.any fun vote => decide (vote.parsed.verdict = verdict) && (find vote).isSome

/-- The grounding status, from the elected verdict and what is found for it. -/
def gateStatus : GroundingStatus :=
  match electedVerdict votes with
  | none => .notApplicable
  | some verdict =>
      if verdict.isSupportClass then
        if anyFound votes (fun vote => locateVoteQuote unicode vote sourceText) verdict then .located
        else if anyFound votes (fun vote => fuzzyLocateVoteQuote unicode vote sourceText) verdict
          then .locatedFuzzy
        else .unlocated
      else .notApplicable

def gateVerdict : CitationVerdict :=
  (electedVerdict votes).elim .sourceUnavailable Verdict.toCitation

def gateAgreement : PanelAgreement :=
  ((nClassVote (verdictsOf votes)).map NClassVote.agreement).getD ⟨0, 0⟩

variable {unicode sourceText votes}

theorem locateWith_eq {quote : Text} {hit : Text × Nat}
    (located : locateWith unicode quote sourceText = some hit) :
    hit.1 = quote ∧ locateQuote unicode quote sourceText = some hit.2 := by
  obtain ⟨offset, found, rfl⟩ := Option.map_eq_some_iff.mp located
  exact ⟨rfl, found⟩

/-- What is found for a vote is one of its quotes. -/
theorem locateVoteQuote_eq {vote : ModelVerdict} {hit : Text × Nat}
    (located : locateVoteQuote unicode vote sourceText = some hit) :
    hit.1 ∈ offeredQuotes vote ∧ locateQuote unicode hit.1 sourceText = some hit.2 := by
  rcases Option.or_eq_some_iff.mp located with claimed | ⟨_, repaired⟩
  · obtain ⟨quote, offered, found⟩ := Option.bind_eq_some_iff.mp claimed
    obtain ⟨rfl, found⟩ := locateWith_eq found
    exact ⟨List.mem_append_left _ (Option.mem_toList.mpr offered), found⟩
  · obtain ⟨quote, offered, found⟩ := Option.bind_eq_some_iff.mp repaired
    obtain ⟨rfl, found⟩ := locateWith_eq found
    exact ⟨List.mem_append_right _ (Option.mem_toList.mpr offered), found⟩

theorem locateVoteQuote_isSome {vote : ModelVerdict} {quote : Text} {offset : Nat}
    (offered : quote ∈ offeredQuotes vote)
    (found : locateQuote unicode quote sourceText = some offset) :
    (locateVoteQuote unicode vote sourceText).isSome = true := by
  unfold locateVoteQuote
  rw [Option.isSome_or, Bool.or_eq_true]
  rcases List.mem_append.mp offered with claimed | repaired
  · left
    rw [Option.mem_toList.mp claimed]
    simp [locateWith, found]
  · right
    rw [Option.mem_toList.mp repaired]
    simp [locateWith, found]

theorem anyFound_exact {verdict : Verdict} :
    anyFound votes (fun vote => locateVoteQuote unicode vote sourceText) verdict = true ↔
      ∃ quote offset, Backs unicode sourceText votes verdict quote offset := by
  unfold anyFound
  rw [List.any_eq_true]
  constructor
  · rintro ⟨vote, member, found⟩
    obtain ⟨same, found⟩ := Bool.and_eq_true_iff.mp found
    obtain ⟨hit, located⟩ := Option.isSome_iff_exists.mp found
    obtain ⟨offered, quoted⟩ := locateVoteQuote_eq located
    exact ⟨hit.1, hit.2, vote, member, of_decide_eq_true same, offered, quoted⟩
  · rintro ⟨quote, offset, vote, member, same, offered, quoted⟩
    refine ⟨vote, member, Bool.and_eq_true_iff.mpr ⟨decide_eq_true same, ?_⟩⟩
    exact locateVoteQuote_isSome offered quoted

/-- The search through the votes for a verdict succeeds when one of them has a quote. -/
theorem findSome_filter_isSome {α β : Type} (build : α → β) (find : ModelVerdict → Option α)
    (verdict : Verdict) :
    ((votes.filter fun vote => vote.parsed.verdict = verdict).findSome? fun vote =>
      (find vote).map build).isSome = anyFound votes find verdict := by
  unfold anyFound
  induction votes with
  | nil => rfl
  | cons vote rest ih =>
      rw [List.filter_cons, List.any_cons]
      by_cases same : vote.parsed.verdict = verdict
      · rw [if_pos (decide_eq_true same), List.findSome?_cons]
        cases found : find vote with
        | none => simpa [same] using ih
        | some hit => simp [same]
      · rw [if_neg (by simpa using same), ih]
        simp [same]

theorem gateStatus_perm {others : List ModelVerdict} (reordered : votes.Perm others) :
    gateStatus unicode sourceText others = gateStatus unicode sourceText votes := by
  have elected : electedVerdict others = electedVerdict votes := by
    unfold electedVerdict verdictsOf
    rw [nClassVote_perm (reordered.symm.map _)]
  unfold gateStatus anyFound
  rw [elected]
  cases electedVerdict votes with
  | none => rfl
  | some verdict => simp only [reordered.symm.any_eq]

theorem fuzzyLocateVoteQuote_eq {vote : ModelVerdict} {hit : FuzzyLocate}
    (located : fuzzyLocateVoteQuote unicode vote sourceText = some hit) :
    ∃ quote, locateQuoteFuzzy unicode quote sourceText = some hit := by
  rcases Option.or_eq_some_iff.mp located with claimed | ⟨_, repaired⟩
  · obtain ⟨quote, _, found⟩ := Option.bind_eq_some_iff.mp claimed
    exact ⟨quote, found⟩
  · obtain ⟨quote, _, found⟩ := Option.bind_eq_some_iff.mp repaired
    exact ⟨quote, found⟩

/-- The votes for a verdict. -/
abbrev winners (votes : List ModelVerdict) (verdict : Verdict) : List ModelVerdict :=
  votes.filter fun candidate => candidate.parsed.verdict = verdict

theorem locateWinner_exact {verdict : Verdict}
    (found : anyFound votes (fun vote => locateVoteQuote unicode vote sourceText) verdict = true) :
    ∃ quote offset, Backs unicode sourceText votes verdict quote offset ∧
      locateWinner unicode sourceText (winners votes verdict) = some (⟨quote, offset⟩, .located) := by
  rw [← findSome_filter_isSome
    fun hit => ((⟨hit.1, hit.2⟩ : LocatedPassage), GroundingStatus.located)] at found
  obtain ⟨passage, first⟩ := Option.isSome_iff_exists.mp found
  obtain ⟨vote, member, located⟩ := List.exists_of_findSome?_eq_some first
  obtain ⟨hit, quoted, rfl⟩ := Option.map_eq_some_iff.mp located
  obtain ⟨inside, same⟩ := List.mem_filter.mp member
  obtain ⟨offered, stands⟩ := locateVoteQuote_eq quoted
  refine ⟨hit.1, hit.2, ⟨vote, inside, of_decide_eq_true same, offered, stands⟩, ?_⟩
  rw [locateWinner, first, Option.some_or]

theorem locateWinner_fuzzy {verdict : Verdict}
    (missed : anyFound votes (fun vote => locateVoteQuote unicode vote sourceText) verdict = false)
    (found : anyFound votes (fun vote => fuzzyLocateVoteQuote unicode vote sourceText) verdict =
      true) :
    ∃ quote hit, locateQuoteFuzzy unicode quote sourceText = some hit ∧
      locateWinner unicode sourceText (winners votes verdict) =
        some (⟨hit.span, hit.offset⟩, .locatedFuzzy) := by
  rw [← findSome_filter_isSome
    fun hit => ((⟨hit.1, hit.2⟩ : LocatedPassage), GroundingStatus.located)] at missed
  rw [← findSome_filter_isSome
    fun hit => ((⟨hit.span, hit.offset⟩ : LocatedPassage), GroundingStatus.locatedFuzzy)] at found
  obtain ⟨passage, first⟩ := Option.isSome_iff_exists.mp found
  obtain ⟨vote, member, located⟩ := List.exists_of_findSome?_eq_some first
  obtain ⟨hit, quoted, rfl⟩ := Option.map_eq_some_iff.mp located
  obtain ⟨quote, stands⟩ := fuzzyLocateVoteQuote_eq quoted
  refine ⟨quote, hit, stands, ?_⟩
  rw [locateWinner, Option.isSome_eq_false_iff.mp missed |> Option.isNone_iff_eq_none.mp, first,
    Option.none_or]

theorem locateWinner_none {verdict : Verdict}
    (missed : anyFound votes (fun vote => locateVoteQuote unicode vote sourceText) verdict = false)
    (lost : anyFound votes (fun vote => fuzzyLocateVoteQuote unicode vote sourceText) verdict =
      false) : locateWinner unicode sourceText (winners votes verdict) = none := by
  rw [← findSome_filter_isSome
    fun hit => ((⟨hit.1, hit.2⟩ : LocatedPassage), GroundingStatus.located)] at missed
  rw [← findSome_filter_isSome
    fun hit => ((⟨hit.span, hit.offset⟩ : LocatedPassage), GroundingStatus.locatedFuzzy)] at lost
  rw [locateWinner, Option.isSome_eq_false_iff.mp missed |> Option.isNone_iff_eq_none.mp,
    Option.isSome_eq_false_iff.mp lost |> Option.isNone_iff_eq_none.mp, Option.none_or]

/-- The outcome of the assembly: which of its branches was taken, and what it returned. -/
inductive Assembled (unicode : Unicode) (sourceText : Text) (votes : List ModelVerdict)
    (finding : CitationFinding Url) : Prop
  | unsupported (supports : ¬ SupportBacked unicode sourceText votes)
      (status : finding.groundingStatus = .notApplicable ∨ finding.groundingStatus = .unlocated)
  | located {verdict : Verdict} {quote : Text} {offset : Nat}
      (elected : electedVerdict votes = some verdict) (supports : verdict.isSupportClass = true)
      (backed : Backs unicode sourceText votes verdict quote offset)
      (status : finding.groundingStatus = .located) (same : finding.verdict = verdict.toCitation)
      (passage : finding.passage = some ⟨quote, offset⟩)
      (grounding : finding.grounding =
        .locatedQuote quote finding.provenance.contentHash offset)
  | fuzzy {quote : Text} {hit : FuzzyLocate} (supports : ¬ SupportBacked unicode sourceText votes)
      (matched : locateQuoteFuzzy unicode quote sourceText = some hit)
      (status : finding.groundingStatus = .locatedFuzzy)
      (passage : finding.passage = some ⟨hit.span, hit.offset⟩)

variable {provenance : SourceProvenance Url} {useSiteOrdinal : Nat}

theorem not_supportBacked {verdict : Verdict} (elected : electedVerdict votes = some verdict)
    (missed : verdict.isSupportClass = true →
      anyFound votes (fun vote => locateVoteQuote unicode vote sourceText) verdict = false) :
    ¬ SupportBacked unicode sourceText votes := by
  rintro ⟨other, same, supports, backed⟩
  rw [elected] at same
  cases same
  rw [anyFound_exact.mpr backed] at missed
  exact absurd (missed supports) (by simp)

theorem assembleCitationFinding_spec :
    let finding := assembleCitationFinding unicode sourceText provenance votes useSiteOrdinal
    finding.verdict = gateVerdict votes ∧ finding.agreement = gateAgreement votes ∧
      finding.groundingStatus = gateStatus unicode sourceText votes ∧
      finding.provenance = provenance ∧ Assembled unicode sourceText votes finding := by
  unfold gateVerdict gateAgreement gateStatus assembleCitationFinding electedVerdict verdictsOf
  cases ballot : nClassVote (votes.map fun vote => vote.parsed.verdict) with
  | none =>
      refine ⟨rfl, rfl, rfl, rfl, .unsupported ?_ (.inl rfl)⟩
      rintro ⟨verdict, elected, _⟩
      rw [electedVerdict, verdictsOf, ballot] at elected
      cases elected
  | some vote =>
      have elected : electedVerdict votes = some vote.winner := by
        rw [electedVerdict, verdictsOf, ballot]
        rfl
      cases supports : vote.winner.isSupportClass with
      | false =>
          refine ⟨by simp [supports, noQuoteFinding], by simp [supports, noQuoteFinding],
            by simp [supports, noQuoteFinding], by simp [supports, noQuoteFinding],
            .unsupported (not_supportBacked elected ?_) (by simp [supports, noQuoteFinding])⟩
          intro judged
          rw [supports] at judged
          cases judged
      | true =>
          cases exact_ : anyFound votes (fun vote => locateVoteQuote unicode vote sourceText)
              vote.winner with
          | true =>
              obtain ⟨quote, offset, backed, winner⟩ := locateWinner_exact exact_
              simp only [Option.map_some, Option.elim_some, Option.getD_some, supports, exact_,
                if_true, winner, locatedFinding]
              exact ⟨trivial, trivial, trivial, trivial,
                .located elected supports backed rfl rfl rfl rfl⟩
          | false =>
              have unbacked := not_supportBacked elected fun _ => exact_
              cases near : anyFound votes (fun vote => fuzzyLocateVoteQuote unicode vote sourceText)
                  vote.winner with
              | true =>
                  obtain ⟨quote, hit, matched, winner⟩ := locateWinner_fuzzy exact_ near
                  simp only [Option.map_some, Option.elim_some, Option.getD_some, supports, exact_,
                    near, if_true, winner, locatedFinding]
                  exact ⟨trivial, trivial, by simp, trivial, .fuzzy unbacked matched rfl rfl⟩
              | false =>
                  have winner := locateWinner_none exact_ near
                  simp only [Option.map_some, Option.elim_some, Option.getD_some, supports, exact_,
                    near, if_true, winner, noQuoteFinding]
                  exact ⟨trivial, trivial, by simp, trivial, .unsupported unbacked (.inr rfl)⟩

theorem isGroundableSupport_iff {finding : CitationFinding Url}
    (assembled : Assembled unicode sourceText votes finding) :
    isGroundableSupport finding = true ↔ SupportBacked unicode sourceText votes := by
  unfold isGroundableSupport
  constructor
  · intro groundable
    have status := of_decide_eq_true (Bool.and_eq_true_iff.mp groundable).1
    cases assembled with
    | unsupported _ missed => rcases missed with missed | missed <;> simp [missed] at status
    | located elected supports backed => exact ⟨_, elected, supports, _, _, backed⟩
    | fuzzy _ _ near => simp [near] at status
  · intro backed
    cases assembled with
    | unsupported missed => exact absurd backed missed
    | @located verdict _ _ _ supports _ status same =>
        rw [status, same]
        cases verdict <;> first | rfl | cases supports
    | fuzzy missed => exact absurd backed missed

theorem gate_exact (unicode : Unicode) (sourceText : Text) (votes : List ModelVerdict)
    (provenance : SourceProvenance Url) (useSiteOrdinal : Nat) :
    GateExact unicode sourceText votes provenance useSiteOrdinal := by
  obtain ⟨verdict, agreement, status, fetched, assembled⟩ :=
    @assembleCitationFinding_spec Url unicode sourceText votes provenance useSiteOrdinal
  refine ⟨isGroundableSupport_iff assembled, ?_, ?_, ?_, ?_⟩
  · intro groundable
    have backed := (isGroundableSupport_iff assembled).mp groundable
    cases assembled with
    | unsupported missed => exact absurd backed missed
    | located elected _ stands _ _ passage grounding =>
        exact ⟨_, _, _, elected, stands, passage, by rw [grounding, fetched]⟩
    | fuzzy missed => exact absurd backed missed
  · intro near
    cases assembled with
    | unsupported _ missed => rcases missed with missed | missed <;> simp [missed] at near
    | located _ _ _ located => simp [located] at near
    | fuzzy missed matched _ passage =>
        obtain ⟨rest, cut, initial⟩ := locateQuoteFuzzy_span matched
        exact ⟨missed, _, rest, passage, cut, initial⟩
  · intro judged other different
    rw [verdict, gateVerdict, electedVerdict] at judged
    by_cases empty : verdictsOf votes = []
    · rw [empty] at judged
      cases judged
    · obtain ⟨winner, run, elected⟩ := nClassVote_spec empty
      rw [run] at judged
      obtain rfl : winner = .supported := Verdict.toCitation_injective judged
      exact elected.supported_strict different
  · intro others reordered
    obtain ⟨verdict', agreement', status', _, _⟩ :=
      @assembleCitationFinding_spec Url unicode sourceText others provenance useSiteOrdinal
    have same : nClassVote (verdictsOf others) = nClassVote (verdictsOf votes) :=
      nClassVote_perm (reordered.symm.map _)
    refine ⟨?_, ?_, ?_⟩
    · rw [verdict, verdict', gateVerdict, gateVerdict, electedVerdict, electedVerdict, same]
    · rw [agreement, agreement', gateAgreement, gateAgreement, same]
    · rw [status, status', gateStatus_perm reordered]

end Gate

end SP42.Citation
