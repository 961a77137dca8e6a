import Mathlib.Data.List.Dedup
import SP42.Citation.Reverified

/-!
How many references a page has and how many its report says it saw: the references that were used,
those that were only skipped and those that failed. An unresolved short cite with another source
in a block without text is among the last two.
-/
namespace SP42.Citation

variable {Url : Type}

section Kinds

/-- A reference with the block that it stands in. -/
abbrev Cited (Url : Type) := ParsoidBlock Url × BlockRef Url

def citedRefs (blocks : List (ParsoidBlock Url)) : List (Cited Url) :=
  blocks.flatMap fun block => block.refs.map (block, ·)

def Cited.refId (cited : Cited Url) : Text := cited.2.refId

def Cited.sourced (cited : Cited Url) : Bool :=
  !(cited.2.sources.isEmpty && cited.2.bookSources.isEmpty)

def Cited.blank (cited : Cited Url) : Bool := (Text.trim cited.1.text).isEmpty

def Cited.used (cited : Cited Url) : Bool := cited.sourced && !cited.blank

def Cited.failed (cited : Cited Url) : Bool := cited.sourced && cited.blank

def Cited.disclosed (cited : Cited Url) : Bool := cited.2.shortCiteUnresolved || !cited.sourced

/-- It is disclosed as a skip and has a source, but no claim. -/
def Cited.countedTwice (cited : Cited Url) : Bool := cited.failed && cited.2.shortCiteUnresolved

end Kinds

section Extraction

variable {letters : Letters} {page : PageVerificationRequest}

def usedIds (outcome : ExtractOutcome Url) : List Text :=
  outcome.useSites.map CitationUseSite.refId ++ outcome.bookUseSites.map BookUseSite.refId

/-- What the extraction of some references holds of each of them. -/
structure Extracts (cited : List (Cited Url)) (outcome : ExtractOutcome Url) : Prop where
  used : ∀ id, id ∈ usedIds outcome ↔ ∃ one ∈ cited, one.used = true ∧ one.refId = id
  skipped : outcome.skipped.map SkippedRef.refId = (cited.filter Cited.disclosed).map Cited.refId
  failures : outcome.failures.length = cited.countP Cited.failed

theorem foldl_addSite (site : CitedSource Url → Nat → CitationUseSite Url) {refId : Text}
    (same : ∀ source ordinal, (site source ordinal).refId = refId)
    (sources : List (CitedSource Url)) : ∀ state : Extracted Url,
    let last := sources.foldl (fun state source => state.addSite (site source)) state
    (∀ id, id ∈ usedIds last.outcome ↔ id ∈ usedIds state.outcome ∨ sources ≠ [] ∧ refId = id) ∧
      last.outcome.skipped = state.outcome.skipped ∧
      last.outcome.failures = state.outcome.failures := by
  induction sources with
  | nil =>
      intro state
      exact ⟨fun id => by simp, rfl, rfl⟩
  | cons source rest ih =>
      intro state
      obtain ⟨used, skipped, failures⟩ := ih (state.addSite (site source))
      refine ⟨fun id => (used id).trans ?_, skipped, failures⟩
      have added : id ∈ usedIds (state.addSite (site source)).outcome ↔
          id ∈ usedIds state.outcome ∨ refId = id := by
        simp only [usedIds, Extracted.addSite, List.map_append, List.map_cons, List.map_nil,
          List.mem_append, List.mem_singleton, same]
        grind
      rw [added]
      grind

theorem foldl_addBook (site : BookSource → Nat → BookUseSite) {refId : Text}
    (same : ∀ book ordinal, (site book ordinal).refId = refId)
    (books : List BookSource) : ∀ state : Extracted Url,
    let last := books.foldl (fun state book => state.addBook (site book)) state
    (∀ id, id ∈ usedIds last.outcome ↔ id ∈ usedIds state.outcome ∨ books ≠ [] ∧ refId = id) ∧
      last.outcome.skipped = state.outcome.skipped ∧
      last.outcome.failures = state.outcome.failures := by
  induction books with
  | nil =>
      intro state
      exact ⟨fun id => by simp, rfl, rfl⟩
  | cons book rest ih =>
      intro state
      obtain ⟨used, skipped, failures⟩ := ih (state.addBook (site book))
      refine ⟨fun id => (used id).trans ?_, skipped, failures⟩
      have added : id ∈ usedIds (state.addBook (site book)).outcome ↔
          id ∈ usedIds state.outcome ∨ refId = id := by
        simp only [usedIds, Extracted.addBook, List.map_append, List.map_cons, List.map_nil,
          List.mem_append, List.mem_singleton, same]
        grind
      rw [added]
      grind

/-- What one reference adds to an extraction. -/
structure AddsRef (cited : Cited Url) (before after : ExtractOutcome Url) : Prop where
  used : ∀ id, id ∈ usedIds after ↔ id ∈ usedIds before ∨ cited.used = true ∧ cited.refId = id
  skipped : after.skipped.map SkippedRef.refId = before.skipped.map SkippedRef.refId ++
    if cited.disclosed then [cited.refId] else []
  failures : after.failures.length = before.failures.length + if cited.failed then 1 else 0

/-- The skip that discloses an unresolved short cite. -/
theorem disclosed_adds (block : ParsoidBlock Url) (ref : BlockRef Url) (state : Extracted Url) :
    let disclosed :=
      if ref.shortCiteUnresolved then state.skip block ref .unresolvedShortCite else state
    usedIds disclosed.outcome = usedIds state.outcome ∧
      disclosed.outcome.failures = state.outcome.failures ∧
      disclosed.outcome.skipped.map SkippedRef.refId = state.outcome.skipped.map SkippedRef.refId ++
        if ref.shortCiteUnresolved then [ref.refId] else [] := by
  cases ref.shortCiteUnresolved with
  | false => exact ⟨rfl, rfl, (List.append_nil _).symm⟩
  | true => exact ⟨rfl, rfl, List.map_append⟩

theorem visitRef_adds (block : ParsoidBlock Url) (ref : BlockRef Url) (state : Extracted Url) :
    AddsRef (block, ref) state.outcome
      (visitRef page block (segmentSentences letters block.text) state ref).outcome := by
  have blank : (Cited.blank (block, ref) = true) ↔
      (claimOf block (segmentSentences letters block.text) ref.offset).1 = [] := by
    rw [claimOf_eq_nil]
    exact List.isEmpty_iff
  obtain ⟨ids, failures, skips⟩ := disclosed_adds block ref state
  unfold visitRef
  dsimp only
  by_cases bare : ref.sources = [] ∧ ref.bookSources = []
  · rw [if_pos bare]
    have unsourced : Cited.sourced (block, ref) = false := by simp [Cited.sourced, bare]
    have unused : Cited.used (block, ref) = false := by rw [Cited.used, unsourced]; rfl
    have settled : Cited.failed (block, ref) = false := by rw [Cited.failed, unsourced]; rfl
    have disclosed : Cited.disclosed (block, ref) = true := by
      rw [Cited.disclosed, unsourced]
      exact Bool.or_true _
    cases short : ref.shortCiteUnresolved with
    | true =>
        rw [short, if_pos rfl] at ids failures skips
        rw [if_pos rfl, if_pos rfl]
        refine ⟨fun id => ?_, ?_, ?_⟩
        · rw [ids, unused]
          simp
        · rw [disclosed, skips]
          rfl
        · rw [failures, settled]
          rfl
    | false =>
        refine ⟨fun id => ?_, ?_, ?_⟩
        · rw [unused]
          simp [usedIds, Extracted.skip]
        · rw [disclosed]
          exact List.map_append
        · rw [settled]
          rfl
  · rw [if_neg bare]
    have sourced : Cited.sourced (block, ref) = true := by
      simp only [Cited.sourced, Bool.not_eq_true', Bool.and_eq_false_iff, List.isEmpty_eq_false_iff]
      exact not_and_or.mp bare
    have disclosed : Cited.disclosed (block, ref) = ref.shortCiteUnresolved := by
      rw [Cited.disclosed, sourced]
      exact Bool.or_false _
    have used : Cited.used (block, ref) = !Cited.blank (block, ref) := by
      rw [Cited.used, sourced]
      rfl
    have failed : Cited.failed (block, ref) = Cited.blank (block, ref) := by
      rw [Cited.failed, sourced]
      rfl
    by_cases silent : (claimOf block (segmentSentences letters block.text) ref.offset).1 = []
    · rw [if_pos silent]
      have empty := blank.mpr silent
      refine ⟨fun id => ?_, ?_, ?_⟩
      · rw [used, empty]
        refine (iff_of_eq (congrArg (id ∈ ·) ids)).trans ?_
        simp
      · rw [disclosed]
        exact skips
      · rw [failed, empty]
        exact List.length_append.trans (congrArg (·.length + 1) failures)
    · rw [if_neg silent]
      have solid := eq_false_of_ne_true (mt blank.mp silent)
      have kept {last : Extracted Url} (added : ∀ id, id ∈ usedIds last.outcome ↔
            id ∈ usedIds (if ref.shortCiteUnresolved then
              state.skip block ref .unresolvedShortCite else state).outcome ∨ ref.refId = id)
          (skipped : last.outcome.skipped = (if ref.shortCiteUnresolved then
            state.skip block ref .unresolvedShortCite else state).outcome.skipped)
          (failing : last.outcome.failures = (if ref.shortCiteUnresolved then
            state.skip block ref .unresolvedShortCite else state).outcome.failures) :
          AddsRef (block, ref) state.outcome last.outcome := by
        refine ⟨fun id => ?_, ?_, ?_⟩
        · rw [used, solid, added, ids]
          exact or_congr_right ⟨fun same => ⟨rfl, same⟩, And.right⟩
        · rw [skipped, skips, disclosed]
          rfl
        · rw [failing, failures, failed, solid]
          rfl
      generalize (claimOf block (segmentSentences letters block.text) ref.offset).1 = claim
      generalize (⟨page.title, (claimOf block (segmentSentences letters block.text)
        ref.offset).2⟩ : ClaimContext) = context
      by_cases offline : ref.sources = []
      · rw [if_pos offline]
        have books : ref.bookSources ≠ [] := fun none => bare ⟨offline, none⟩
        obtain ⟨added, skipped, failing⟩ := foldl_addBook
          (fun book ordinal => bookSite block ref claim context ordinal book) (fun _ _ => rfl)
          ref.bookSources
          (if ref.shortCiteUnresolved then state.skip block ref .unresolvedShortCite else state)
        refine kept (fun id => (added id).trans ?_) skipped failing
        exact or_congr_right ⟨And.right, fun same => ⟨books, same⟩⟩
      · rw [if_neg offline]
        obtain ⟨added, skipped, failing⟩ := foldl_addSite
          (fun source ordinal => urlSite page block ref claim context ordinal source)
          (fun _ _ => rfl) ref.sources
          (if ref.shortCiteUnresolved then state.skip block ref .unresolvedShortCite else state)
        refine kept (fun id => (added id).trans ?_) skipped failing
        exact or_congr_right ⟨And.right, fun same => ⟨offline, same⟩⟩

theorem Extracts.step {cited : List (Cited Url)} {one : Cited Url}
    {before after : ExtractOutcome Url} (extracts : Extracts cited before)
    (adds : AddsRef one before after) : Extracts (cited ++ [one]) after where
  used := by
    intro id
    rw [adds.used, extracts.used]
    simp only [List.mem_append, List.mem_singleton, or_and_right, exists_or, exists_eq_left]
  skipped := by
    rw [adds.skipped, extracts.skipped, List.filter_append, List.map_append, List.filter_singleton]
    cases one.disclosed <;> rfl
  failures := by
    rw [adds.failures, extracts.failures, List.countP_append, List.countP_singleton]

/-- The references of one block: the inner loop. -/
theorem visitRefs_extracts (block : ParsoidBlock Url) (refs : List (BlockRef Url)) :
    ∀ {cited : List (Cited Url)} {state : Extracted Url}, Extracts cited state.outcome →
      Extracts (cited ++ refs.map (block, ·))
        (refs.foldl (visitRef page block (segmentSentences letters block.text)) state).outcome := by
  induction refs with
  | nil =>
      intro cited state extracts
      rw [List.map_nil, List.append_nil]
      exact extracts
  | cons ref rest ih =>
      intro cited state extracts
      rw [List.map_cons, List.append_cons]
      exact ih (extracts.step (visitRef_adds block ref state))

/-- The blocks of a page: the outer loop. -/
theorem visitBlocks_extracts (blocks : List (ParsoidBlock Url)) :
    ∀ {cited : List (Cited Url)} {state : Extracted Url}, Extracts cited state.outcome →
      Extracts (cited ++ citedRefs blocks)
        (blocks.foldl (visitBlock letters page) state).outcome := by
  induction blocks with
  | nil =>
      intro cited state extracts
      rw [citedRefs, List.flatMap_nil, List.append_nil]
      exact extracts
  | cons block rest ih =>
      intro cited state extracts
      rw [citedRefs, List.flatMap_cons, ← List.append_assoc]
      exact ih (visitRefs_extracts block block.refs extracts)

theorem extractUseSites_extracts (blocks : List (ParsoidBlock Url)) :
    Extracts (citedRefs blocks) (extractUseSites letters page blocks) := by
  have start : Extracts [] (⟨[], [], [], []⟩ : ExtractOutcome Url) :=
    ⟨fun id => iff_of_false List.not_mem_nil nofun, rfl, rfl⟩
  exact @visitBlocks_extracts _ letters page blocks [] ⟨⟨[], [], [], []⟩, 0⟩ start

end Extraction

section Counting

variable {cited : List (Cited Url)} {outcome : ExtractOutcome Url}

theorem used_length (extracts : Extracts cited outcome) (distinct : (cited.map Cited.refId).Nodup) :
    (usedIds outcome).dedup.length = cited.countP Cited.used := by
  have same : (usedIds outcome).dedup.Perm ((cited.filter Cited.used).map Cited.refId) := by
    refine (List.perm_ext_iff_of_nodup (List.nodup_dedup _)
      (distinct.sublist (List.filter_sublist.map _))).mpr fun id => ?_
    rw [List.mem_dedup, extracts.used]
    simp only [List.mem_map, List.mem_filter, and_assoc]
  rw [same.length_eq, List.length_map, List.countP_eq_length_filter]

/-- Where the references have different names, the name of a reference was used if it was. -/
theorem used_iff (extracts : Extracts cited outcome) (distinct : (cited.map Cited.refId).Nodup)
    {one : Cited Url} (member : one ∈ cited) :
    one.refId ∈ (usedIds outcome).dedup ↔ one.used = true := by
  rw [List.mem_dedup, extracts.used]
  constructor
  · rintro ⟨other, held, used, same⟩
    rwa [List.inj_on_of_nodup_map distinct held member same] at used
  · exact fun used => ⟨one, member, used, rfl⟩

theorem skipped_length (extracts : Extracts cited outcome)
    (distinct : (cited.map Cited.refId).Nodup) :
    (outcome.skipped.filter fun skip => skip.refId ∉ (usedIds outcome).dedup).length =
      cited.countP fun one => one.disclosed && !one.used := by
  have names : (outcome.skipped.filter fun skip => skip.refId ∉ (usedIds outcome).dedup).length =
      (outcome.skipped.map SkippedRef.refId).countP fun id => id ∉ (usedIds outcome).dedup := by
    rw [List.countP_map, List.countP_eq_length_filter]
    rfl
  rw [names, extracts.skipped, List.countP_map, List.countP_filter]
  refine List.countP_congr fun one member => ?_
  have used := used_iff extracts distinct member
  simp only [Function.comp_apply, Bool.and_eq_true, decide_eq_true_eq, Bool.not_eq_true',
    ← Bool.not_eq_true, used]
  exact and_comm

theorem kinds_of_one (sourced blank short : Bool) :
    (if sourced && !blank then 1 else 0) +
        (if (short || !sourced) && !(sourced && !blank) then 1 else 0) +
        (if sourced && blank then 1 else 0) =
      1 + if sourced && blank && short then 1 else 0 := by
  cases sourced <;> cases blank <;> cases short <;> rfl

/-- Each reference is counted once, but for those that are disclosed and fail. -/
theorem kinds_count (cited : List (Cited Url)) :
    cited.countP Cited.used + (cited.countP fun one => one.disclosed && !one.used) +
      cited.countP Cited.failed = cited.length + cited.countP Cited.countedTwice := by
  induction cited with
  | nil => rfl
  | cons one rest ih =>
      have here := kinds_of_one one.sourced one.blank one.2.shortCiteUnresolved
      have used : Cited.used one = (one.sourced && !one.blank) := rfl
      have failed : Cited.failed one = (one.sourced && one.blank) := rfl
      have disclosed : Cited.disclosed one = (one.2.shortCiteUnresolved || !one.sourced) := rfl
      have twice : Cited.countedTwice one =
        (one.sourced && one.blank && one.2.shortCiteUnresolved) := rfl
      simp only [List.countP_cons, List.length_cons, used, failed, disclosed, twice]
      omega

theorem refsSeen_eq (extracts : Extracts cited outcome)
    (distinct : (cited.map Cited.refId).Nodup) :
    refsSeen outcome = cited.length + cited.countP Cited.countedTwice := by
  rw [← kinds_count, ← used_length extracts distinct, ← skipped_length extracts distinct,
    ← extracts.failures]
  rfl

/-- The references that are counted twice: a short cite without a target, with another source, in
a block without text. -/
theorem countedTwice_iff {one : Cited Url} : one.countedTwice = true ↔
    one.2.shortCiteUnresolved = true ∧ (one.2.sources ≠ [] ∨ one.2.bookSources ≠ []) ∧
      Text.trim one.1.text = [] := by
  simp only [Cited.countedTwice, Cited.failed, Cited.sourced, Cited.blank, Bool.and_eq_true,
    Bool.not_eq_true', Bool.and_eq_false_iff, List.isEmpty_eq_false_iff, List.isEmpty_iff]
  exact and_comm

end Counting

section Report

variable {engine : Engine Url} {fetch : Url → Except Text HttpResponse} {models : ModelClient}
  {nowMs : Int} {panel : List ModelRef} {page : PageVerificationRequest} {options : VerifyOptions}
  {report : PageVerificationReport Url}

theorem reported_refsSeen {extract : ExtractOutcome Url} {pageConcurrency : Nat}
    (reported : verifyPage engine fetch models nowMs panel page extract options pageConcurrency =
      some report) : report.stats.refsSeen = refsSeen extract := by
  unfold verifyPage verifyPageWith at reported
  dsimp only at reported
  obtain ⟨results, books, rfl⟩ := Option.map_eq_some_iff.mp reported
  exact (tallyStats_frame _ _ _ _ _).1

/-- The report counts the references exactly when none of them is counted twice. -/
theorem refsSeen_counts_references {letters : Letters} {blocks : List (ParsoidBlock Url)}
    {pageConcurrency : Nat} (distinct : ((citedRefs blocks).map Cited.refId).Nodup)
    (reported : verifyPage engine fetch models nowMs panel page
      (extractUseSites letters page blocks) options pageConcurrency = some report) :
    report.stats.refsSeen = (citedRefs blocks).length ↔
      ∀ block ∈ blocks, ∀ ref ∈ block.refs, ¬ (ref.shortCiteUnresolved = true ∧
        (ref.sources ≠ [] ∨ ref.bookSources ≠ []) ∧ Text.trim block.text = []) := by
  rw [reported_refsSeen reported, refsSeen_eq (extractUseSites_extracts blocks) distinct]
  have none : (citedRefs blocks).length + (citedRefs blocks).countP Cited.countedTwice =
      (citedRefs blocks).length ↔ (citedRefs blocks).countP Cited.countedTwice = 0 := by omega
  rw [none, List.countP_eq_zero]
  constructor
  · intro once block blockMem ref refMem twice
    exact once (block, ref)
      (List.mem_flatMap.mpr ⟨block, blockMem, List.mem_map_of_mem refMem⟩)
      (countedTwice_iff.mpr twice)
  · intro once one member
    obtain ⟨block, blockMem, paired⟩ := List.mem_flatMap.mp member
    obtain ⟨ref, refMem, rfl⟩ := List.mem_map.mp paired
    exact mt countedTwice_iff.mp (once block blockMem ref refMem)

end Report

theorem refsSeen_counts_references_cats :
    ∃ report, verifyPage plainEngine refuse plainModels 0 plainPanel catsPage
        (extractUseSites asciiLetters catsPage [citedBlock urlRef]) plainOptions 8 = some report ∧
      report.stats.refsSeen = (citedRefs [citedBlock urlRef]).length := by
  obtain ⟨report, reported⟩ : ∃ report, verifyPage plainEngine refuse plainModels 0 plainPanel
      catsPage (extractUseSites asciiLetters catsPage [citedBlock urlRef]) plainOptions 8 =
        some report := Option.isSome_iff_exists.mp (by decide +kernel)
  have distinct : ((citedRefs [citedBlock urlRef]).map Cited.refId).Nodup := List.nodup_singleton _
  refine ⟨report, reported, (refsSeen_counts_references distinct reported).mpr ?_⟩
  intro block blockMem ref refMem
  obtain rfl := List.mem_singleton.mp blockMem
  obtain rfl := List.mem_singleton.mp refMem
  exact fun twice => Bool.false_ne_true twice.1

/-- A cell of a table that holds nothing but a reference to a page and to a missing entry. -/
def emptyCell : ParsoidBlock (Text × List Text) :=
  ⟨[], [⟨0, "cite_ref-3".toList, [⟨("example.org".toList, []), []⟩], [], false, true⟩], 0⟩

theorem refsSeen_counts_twice :
    ¬ ∀ blocks : List (ParsoidBlock (Text × List Text)),
      ((citedRefs blocks).map Cited.refId).Nodup →
      (verifyPage plainEngine refuse plainModels 0 plainPanel catsPage
        (extractUseSites asciiLetters catsPage blocks) plainOptions 8).map
          (fun report => report.stats.refsSeen) = some (citedRefs blocks).length := by
  intro counts
  have one := counts [emptyCell] (List.nodup_singleton _)
  have two : (verifyPage plainEngine refuse plainModels 0 plainPanel catsPage
      (extractUseSites asciiLetters catsPage [emptyCell]) plainOptions 8).map
        (fun report => report.stats.refsSeen) = some 2 := by decide +kernel
  rw [two] at one
  cases one

end SP42.Citation
