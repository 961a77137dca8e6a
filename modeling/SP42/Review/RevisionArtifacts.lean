import SP42.Base.Machine
import SP42.Base.Number
import SP42.Lib.Expiring

/-!
The diffs and previews of a pair of revisions. They are computed from what MediaWiki returns to
the token of a request, and kept for five minutes in caches that every session is served from.
-/
namespace SP42.Review

def revisionArtifactCacheTtlMs : Int := 5 * 60 * 1000

def renderedHunkCacheTtlMs : Int := 5 * 60 * 1000

/-- An entry is served while it is younger than the limit. -/
def youngerThan (limit now fetchedAtMs : Int) : Bool :=
  decide (i64SaturatingSub now fetchedAtMs < limit)

structure RevisionContent where
  content : Text
  contentModel : Option Text

structure RenderedHunkSide where
  sectionLabel : Text
  html : Text
  missing : Bool
  deriving DecidableEq

structure RenderedHunkPreview where
  hunkIndex : Nat
  before : RenderedHunkSide
  after : RenderedHunkSide
  warnings : List Text
  deriving DecidableEq

/-- What the request's token is returned: the revisions asked for, labels of entities as far as
they are found, the sections of a revision, and the HTML of a section. -/
structure Wiki where
  revisionContents : List Nat → Except Text (List (Nat × RevisionContent))
  entityLabels : List Text → List (Text × Text)
  revisionSections : Nat → Except Text (List (Text × Nat))
  sectionHtml : Nat → Nat → Except Text Text

/-- The functions that make diffs and reports of contents. -/
structure Tools (Diff Media Report Entity : Type) where
  isEntity : Option Text → Bool
  wikitextSignals : Option Text → Bool
  routeEntity : Option Text → Option Text → Text → Option Entity
  labelIds : Entity → List Text
  renderEntity : Entity → List (Text × Text) → Report
  diffLines : Text → Text → Diff
  hunkSections : Diff → List (Option Text × Option Text)
  mediaDiff : Text → Text → Option Media

structure RevisionArtifacts (Diff Media Report : Type) where
  diff : Diff
  mediaDiff : Option Media
  contentDiff : Option Report

inductive ContentDiffReport (Diff Report : Type) where
  | entity (report : Report)
  | text (diff : Diff)

section Fetching

variable {Diff Media Report Entity : Type}

/-- `fetch_revision_content_pair`: nothing before only where an entity begins. -/
def fetchRevisionContentPair (tools : Tools Diff Media Report Entity) (wiki : Wiki)
    (revId oldRevId : Nat) : Except Text (Option (Option RevisionContent × RevisionContent)) := do
  let revisions ← wiki.revisionContents (if oldRevId = 0 then [revId] else [oldRevId, revId])
  match revisions.lookup revId with
  | none => return none
  | some after =>
      if oldRevId = 0 then
        return if tools.isEntity after.contentModel then some (none, after) else none
      else
        -- The map has lost the newer revision when the older one is looked up.
        match (revisions.filter fun entry => entry.1 ≠ revId).lookup oldRevId with
        | none => return none
        | some before => return some (some before, after)

/-- The artifacts of a pair of contents. -/
def buildArtifacts (tools : Tools Diff Media Report Entity) (wiki : Wiki)
    (before : Option RevisionContent) (after : RevisionContent) :
    RevisionArtifacts Diff Media Report :=
  let routed := tools.routeEntity after.contentModel (before.map RevisionContent.content) after.content
  let contentDiff := routed.map fun entity =>
    let ids := (tools.labelIds entity).take 50
    tools.renderEntity entity (if ids = [] then [] else wiki.entityLabels ids)
  let beforeContent := (before.map RevisionContent.content).getD []
  let mediaDiff :=
    if tools.wikitextSignals after.contentModel then tools.mediaDiff beforeContent after.content
    else none
  ⟨tools.diffLines beforeContent after.content, mediaDiff, contentDiff⟩

def leadLabel : Text := "Lead".toList

def renderRevisionSectionSide (wiki : Wiki) (revId : Nat) (sectionLabel : Option Text) :
    Except Text RenderedHunkSide := do
  let label := Text.trim (sectionLabel.getD leadLabel)
  if label = [] ∨ label = leadLabel then
    let html ← wiki.sectionHtml revId 0
    return ⟨leadLabel, html, false⟩
  else
    let sections ← wiki.revisionSections revId
    match sections.lookup label with
    | none => return ⟨label, [], true⟩
    | some sectionIndex =>
        let html ← wiki.sectionHtml revId sectionIndex
        return ⟨label, html, false⟩

def missingWarning (side : Text) (label : Text) : Text :=
  side ++ " revision section \"".toList ++ label ++
    "\" could not be rendered directly; the article structure may have changed.".toList

def scopeWarning : Text :=
  ("Rendered preview is section-scoped and may omit cross-section references or " ++
    "context-sensitive template output.").toList

/-- The preview of a hunk, from its sections in both revisions. -/
def renderPreview (wiki : Wiki) (revId oldRevId hunkIndex : Nat)
    (sections : Option Text × Option Text) : Except Text RenderedHunkPreview := do
  let before ← renderRevisionSectionSide wiki oldRevId sections.1
  let after ← renderRevisionSectionSide wiki revId sections.2
  let warnings :=
    (if before.missing then [missingWarning "Before".toList before.sectionLabel] else []) ++
      ((if after.missing then [missingWarning "After".toList after.sectionLabel] else []) ++
        [scopeWarning])
  return ⟨hunkIndex, before, after, warnings⟩

end Fetching

section Caches

/-- `revision_artifact_cache_key`: the session is no part of it. -/
def revisionArtifactCacheKey (wikiId : Text) (revId oldRevId : Nat) : Text :=
  wikiId ++ ':' :: (Text.ofNat oldRevId ++ ':' :: Text.ofNat revId)

def renderedHunkCacheKey (wikiId : Text) (revId oldRevId hunkIndex : Nat) : Text :=
  wikiId ++ ':' :: (Text.ofNat oldRevId ++ ':' :: (Text.ofNat revId ++ ":hunk:".toList ++
    Text.ofNat hunkIndex))

inductive Query where
  | revisionDiff
  | revisionContentDiff
  | revisionMediaDiff
  | renderedHunkPreview (hunkIndex : Nat)
  deriving DecidableEq

/-- A request of a session, with whether it has a token, whether the wiki is configured, and what
the clock shows at each of its two readings. -/
structure Request (Session : Type) where
  session : Session
  hasToken : Bool
  config : Except Text Unit
  wikiId : Text
  revId : Nat
  oldRevId : Nat
  query : Query
  hunkNowMs : Int
  nowMs : Int

/-- The error of a response, with its HTTP status. -/
inductive Refusal where
  | unauthorized (message : Text)
  | badRequest (message : Text)
  | badGateway (message : Text)
  deriving DecidableEq

variable {Diff Media Report Entity Session : Type}

inductive Payload (Diff Media Report : Type) where
  | diff (diff : Option Diff)
  | content (report : Option (ContentDiffReport Diff Report))
  | media (report : Option Media)
  | preview (preview : Option RenderedHunkPreview)

abbrev ArtifactCache (Session Diff Media Report : Type) :=
  Expiring.Cache Text Int Session (RevisionArtifacts Diff Media Report)

abbrev PreviewCache (Session : Type) := Expiring.Cache Text Int Session RenderedHunkPreview

/-- The caches of the server. That an entry knows whose request filled it is for the proofs only. -/
structure Caches (Session Diff Media Report : Type) where
  revisionArtifacts : ArtifactCache Session Diff Media Report
  renderedHunks : PreviewCache Session

def Caches.empty : Caches Session Diff Media Report := ⟨fun _ => none, fun _ => none⟩

def Request.artifactKey (request : Request Session) : Text :=
  revisionArtifactCacheKey request.wikiId request.revId request.oldRevId

def Request.hunkKey (request : Request Session) (hunkIndex : Nat) : Text :=
  renderedHunkCacheKey request.wikiId request.revId request.oldRevId hunkIndex

def servedArtifacts (caches : Caches Session Diff Media Report) (request : Request Session) :=
  Expiring.serve (youngerThan revisionArtifactCacheTtlMs) caches.revisionArtifacts
    request.artifactKey request.nowMs

def servedPreview (caches : Caches Session Diff Media Report) (request : Request Session)
    (hunkIndex : Nat) :=
  Expiring.serve (youngerThan renderedHunkCacheTtlMs) caches.renderedHunks
    (request.hunkKey hunkIndex) request.hunkNowMs

/-- `revision_artifacts_for_pair`. -/
def revisionArtifactsForPair (tools : Tools Diff Media Report Entity) (wiki : Wiki)
    (request : Request Session) (caches : Caches Session Diff Media Report) :
    Except Text (Option (RevisionArtifacts Diff Media Report)) × Caches Session Diff Media Report :=
  match servedArtifacts caches request with
  | some entry => (.ok (some entry.value), caches)
  | none =>
      match fetchRevisionContentPair tools wiki request.revId request.oldRevId with
      | .error error => (.error error, caches)
      | .ok none => (.ok none, caches)
      | .ok (some (before, after)) =>
          let artifacts := buildArtifacts tools wiki before after
          let entry := ⟨request.nowMs, request.session, artifacts⟩
          (.ok (some artifacts),
            ⟨Expiring.fill caches.revisionArtifacts request.artifactKey entry, caches.renderedHunks⟩)

/-- `fetch_rendered_hunk_preview_by_ids`. -/
def fetchRenderedHunkPreviewByIds (tools : Tools Diff Media Report Entity) (wiki : Wiki)
    (request : Request Session) (hunkIndex : Nat) (caches : Caches Session Diff Media Report) :
    Except Text (Option RenderedHunkPreview) × Caches Session Diff Media Report :=
  match servedPreview caches request hunkIndex with
  | some entry => (.ok (some entry.value), caches)
  | none =>
      let (fetched, caches) := revisionArtifactsForPair tools wiki request caches
      match fetched with
      | .error error => (.error error, caches)
      | .ok none => (.ok none, caches)
      | .ok (some artifacts) =>
          match (tools.hunkSections artifacts.diff)[hunkIndex]? with
          | none => (.ok none, caches)
          | some sections =>
              match renderPreview wiki request.revId request.oldRevId hunkIndex sections with
              | .error error => (.error error, caches)
              | .ok preview =>
                  let entry := ⟨request.hunkNowMs, request.session, preview⟩
                  (.ok (some preview),
                    ⟨caches.revisionArtifacts,
                      Expiring.fill caches.renderedHunks (request.hunkKey hunkIndex) entry⟩)

abbrev Response (Diff Media Report : Type) := Except Refusal (Payload Diff Media Report)

def noSession : Text := "No authenticated Wikimedia session is active.".toList

/-- A failed lookup is a bad gateway. -/
def respond {α : Type} (payload : α → Payload Diff Media Report) :
    Except Text α → Response Diff Media Report
  | .error error => .error (.badGateway error)
  | .ok result => .ok (payload result)

/-- The four handlers. -/
def handle (tools : Tools Diff Media Report Entity) (wiki : Wiki) (request : Request Session)
    (caches : Caches Session Diff Media Report) :
    Response Diff Media Report × Caches Session Diff Media Report :=
  if request.hasToken = false then (.error (.unauthorized noSession), caches)
  else
    match request.config with
    | .error error => (.error (.badRequest error), caches)
    | .ok () =>
        match request.query with
        | .revisionDiff =>
            let (fetched, caches) := revisionArtifactsForPair tools wiki request caches
            (respond (fun artifacts => .diff (artifacts.map RevisionArtifacts.diff)) fetched, caches)
        | .revisionContentDiff =>
            let (fetched, caches) := revisionArtifactsForPair tools wiki request caches
            (respond (fun artifacts => .content (artifacts.map fun artifacts =>
              match artifacts.contentDiff with
              | some report => .entity report
              | none => .text artifacts.diff)) fetched, caches)
        | .revisionMediaDiff =>
            let (fetched, caches) := revisionArtifactsForPair tools wiki request caches
            (respond (fun artifacts => .media (artifacts.bind RevisionArtifacts.mediaDiff)) fetched,
              caches)
        | .renderedHunkPreview hunkIndex =>
            let (fetched, caches) := fetchRenderedHunkPreviewByIds tools wiki request hunkIndex caches
            (respond .preview fetched, caches)

/-- A run: the responses to the requests in order, each with the session it goes to. -/
def run (tools : Tools Diff Media Report Entity) :
    Caches Session Diff Media Report → List (Request Session × Wiki) →
      List (Session × Response Diff Media Report)
  | _, [] => []
  | caches, (request, wiki) :: rest =>
      let (response, next) := handle tools wiki request caches
      (request.session, response) :: run tools next rest

/-- Whose request filled the entry that a request is answered from. -/
def answeredBy (caches : Caches Session Diff Media Report) (request : Request Session) :
    Option Session :=
  if request.hasToken = false ∨ request.config.isOk = false then none
  else
    match request.query with
    | .renderedHunkPreview hunkIndex =>
        match servedPreview caches request hunkIndex with
        | some entry => some entry.owner
        | none => (servedArtifacts caches request).map Expiring.Entry.owner
    | _ => (servedArtifacts caches request).map Expiring.Entry.owner

/-- In the run, the session is answered from no entry that another session filled. -/
def OwnOnly (tools : Tools Diff Media Report Entity) (session : Session) :
    Caches Session Diff Media Report → List (Request Session × Wiki) → Prop
  | _, [] => True
  | caches, (request, wiki) :: rest =>
      (request.session = session → ∀ other, answeredBy caches request = some other → other = session) ∧
        OwnOnly tools session (handle tools wiki request caches).2 rest

/-- The same requests, with MediaWiki returning the same to the session. -/
def SameFor (session : Session) (one two : List (Request Session × Wiki)) : Prop :=
  List.Forall₂ (fun a b => a.1 = b.1 ∧ (a.1.session = session → a.2 = b.2)) one two

end Caches

section TwoRuns

variable {Diff Media Report Entity Session : Type} {tools : Tools Diff Media Report Entity}
  {session : Session} {request : Request Session} {wiki : Wiki}
  {caches one two : Caches Session Diff Media Report}

theorem ages {limit : Int} (low : 0 ≤ limit) (high : limit ≤ i64Max) :
    Expiring.Ages (youngerThan limit) := by
  have above : i64Min < limit := by unfold i64Min; omega
  intro now later earlier stale before
  unfold youngerThan at *
  rw [decide_eq_false_iff_not, Int.not_lt, le_i64SaturatingSub above high] at *
  omega

theorem ages_artifacts : Expiring.Ages (youngerThan revisionArtifactCacheTtlMs) :=
  ages (by decide) (by decide)

theorem ages_hunks : Expiring.Ages (youngerThan renderedHunkCacheTtlMs) :=
  ages (by decide) (by decide)

/-- The caches of two runs agree on what the session filled last. -/
structure CachesAgree (session : Session) (one two : Caches Session Diff Media Report) : Prop where
  artifacts : Expiring.Agree (youngerThan revisionArtifactCacheTtlMs) session one.revisionArtifacts
    two.revisionArtifacts
  hunks : Expiring.Agree (youngerThan renderedHunkCacheTtlMs) session one.renderedHunks
    two.renderedHunks

/-- What a request of another session does to the caches. -/
structure CachesGrow (session : Session) (caches next : Caches Session Diff Media Report) : Prop where
  artifacts : Expiring.Grows (youngerThan revisionArtifactCacheTtlMs) session
    caches.revisionArtifacts next.revisionArtifacts
  hunks : Expiring.Grows (youngerThan renderedHunkCacheTtlMs) session caches.renderedHunks
    next.renderedHunks

theorem CachesAgree.empty : CachesAgree session (Caches.empty : Caches Session Diff Media Report) .empty :=
  ⟨fun _ => ⟨none, .empty, .empty⟩, fun _ => ⟨none, .empty, .empty⟩⟩

theorem CachesAgree.grow {next next' : Caches Session Diff Media Report}
    (agree : CachesAgree session one two) (here : CachesGrow session one next)
    (there : CachesGrow session two next') : CachesAgree session next next' :=
  ⟨agree.artifacts.grow ages_artifacts here.artifacts there.artifacts,
    agree.hunks.grow ages_hunks here.hunks there.hunks⟩

theorem CachesGrow.refl : CachesGrow session caches caches := ⟨.same, .same⟩

section Others

/-- The artifacts of another session's request: an entry is filled where none is served. -/
theorem revisionArtifactsForPair_grows (other : request.session ≠ session) :
    CachesGrow session caches (revisionArtifactsForPair tools wiki request caches).2 ∧
      (revisionArtifactsForPair tools wiki request caches).2.renderedHunks = caches.renderedHunks := by
  unfold revisionArtifactsForPair
  split
  · exact ⟨.refl, rfl⟩
  · next missed =>
      split
      · exact ⟨.refl, rfl⟩
      · exact ⟨.refl, rfl⟩
      · exact ⟨⟨.fill _ _ other missed, .same⟩, rfl⟩

theorem fetchRenderedHunkPreviewByIds_grows (other : request.session ≠ session) (hunkIndex : Nat) :
    CachesGrow session caches
      (fetchRenderedHunkPreviewByIds tools wiki request hunkIndex caches).2 := by
  obtain ⟨grows, kept⟩ := @revisionArtifactsForPair_grows _ _ _ _ _ tools _ _ wiki caches other
  unfold fetchRenderedHunkPreviewByIds
  split
  · exact .refl
  · next missed =>
      dsimp only
      split
      · exact grows
      · exact grows
      · split
        · exact grows
        · split
          · exact grows
          · refine ⟨grows.artifacts, ?_⟩
            dsimp only
            rw [kept]
            exact .fill _ _ other missed

theorem handle_grows (other : request.session ≠ session) :
    CachesGrow session caches (handle tools wiki request caches).2 := by
  have artifacts := (@revisionArtifactsForPair_grows _ _ _ _ _ tools _ _ wiki caches other).1
  unfold handle
  split
  · exact .refl
  · split
    · exact .refl
    · split
      · exact artifacts
      · exact artifacts
      · exact artifacts
      · exact fetchRenderedHunkPreviewByIds_grows other _

end Others

section Own

/-- Nothing of another session is served. -/
def Mine {α : Type} (session : Session) (served : Option (Expiring.Entry Int Session α)) : Prop :=
  ∀ entry, served = some entry → entry.owner = session

theorem servedArtifacts_eq (agree : CachesAgree session one two)
    (here : Mine session (servedArtifacts one request))
    (there : Mine session (servedArtifacts two request)) :
    servedArtifacts one request = servedArtifacts two request :=
  agree.artifacts.serve ages_artifacts here there

theorem servedPreview_eq {hunkIndex : Nat} (agree : CachesAgree session one two)
    (here : Mine session (servedPreview one request hunkIndex))
    (there : Mine session (servedPreview two request hunkIndex)) :
    servedPreview one request hunkIndex = servedPreview two request hunkIndex :=
  agree.hunks.serve ages_hunks here there

/-- The artifacts of the session's request are the same in both runs. -/
theorem revisionArtifactsForPair_own (agree : CachesAgree session one two)
    (mine : request.session = session) (here : Mine session (servedArtifacts one request))
    (there : Mine session (servedArtifacts two request)) :
    (revisionArtifactsForPair tools wiki request one).1 =
        (revisionArtifactsForPair tools wiki request two).1 ∧
      CachesAgree session (revisionArtifactsForPair tools wiki request one).2
        (revisionArtifactsForPair tools wiki request two).2 := by
  have same := servedArtifacts_eq agree here there
  unfold revisionArtifactsForPair
  rw [same]
  split
  · exact ⟨rfl, agree⟩
  · split
    · exact ⟨rfl, agree⟩
    · exact ⟨rfl, agree⟩
    · exact ⟨rfl, agree.artifacts.fill mine _, agree.hunks⟩

theorem fetchRenderedHunkPreviewByIds_own {hunkIndex : Nat} (agree : CachesAgree session one two)
    (mine : request.session = session) (here : Mine session (servedPreview one request hunkIndex))
    (there : Mine session (servedPreview two request hunkIndex))
    (behind : servedPreview one request hunkIndex = none → servedPreview two request hunkIndex = none →
      Mine session (servedArtifacts one request) ∧ Mine session (servedArtifacts two request)) :
    (fetchRenderedHunkPreviewByIds tools wiki request hunkIndex one).1 =
        (fetchRenderedHunkPreviewByIds tools wiki request hunkIndex two).1 ∧
      CachesAgree session (fetchRenderedHunkPreviewByIds tools wiki request hunkIndex one).2
        (fetchRenderedHunkPreviewByIds tools wiki request hunkIndex two).2 := by
  have same := servedPreview_eq agree here there
  unfold fetchRenderedHunkPreviewByIds
  cases served : servedPreview two request hunkIndex with
  | some entry =>
      rw [same, served]
      exact ⟨rfl, agree⟩
  | none =>
      rw [same, served]
      obtain ⟨own, own'⟩ := behind (same.trans served) served
      obtain ⟨fetched, kept⟩ := @revisionArtifactsForPair_own _ _ _ _ _ tools session request wiki one
        two agree mine own own'
      dsimp only
      rw [fetched]
      split
      · exact ⟨rfl, kept⟩
      · exact ⟨rfl, kept⟩
      · split
        · exact ⟨rfl, kept⟩
        · split
          · exact ⟨rfl, kept⟩
          · exact ⟨rfl, kept.artifacts, kept.hunks.fill mine _⟩

/-- The request is answered from no entry of another session. -/
def AnsweredOwn (session : Session) (caches : Caches Session Diff Media Report)
    (request : Request Session) : Prop :=
  ∀ other, answeredBy caches request = some other → other = session

theorem mine_artifacts (accepted : ¬ (request.hasToken = false ∨ request.config.isOk = false))
    (plain : ∀ hunkIndex, request.query ≠ .renderedHunkPreview hunkIndex)
    (own : AnsweredOwn session caches request) : Mine session (servedArtifacts caches request) := by
  intro entry served
  refine own entry.owner ?_
  rw [answeredBy, if_neg accepted]
  cases asked : request.query with
  | renderedHunkPreview hunkIndex => exact absurd asked (plain hunkIndex)
  | revisionDiff => rw [served]; rfl
  | revisionContentDiff => rw [served]; rfl
  | revisionMediaDiff => rw [served]; rfl

theorem mine_preview {hunkIndex : Nat}
    (accepted : ¬ (request.hasToken = false ∨ request.config.isOk = false))
    (asked : request.query = .renderedHunkPreview hunkIndex)
    (own : AnsweredOwn session caches request) :
    Mine session (servedPreview caches request hunkIndex) ∧
      (servedPreview caches request hunkIndex = none →
        Mine session (servedArtifacts caches request)) := by
  unfold AnsweredOwn at own
  rw [answeredBy, if_neg accepted, asked] at own
  constructor
  · intro entry served
    refine own entry.owner ?_
    dsimp only
    rw [served]
  · intro missed entry served
    refine own entry.owner ?_
    dsimp only
    rw [missed, served]
    rfl

/-- A request of the session is answered the same in both runs, and fills the caches alike. -/
theorem handle_own (agree : CachesAgree session one two) (mine : request.session = session)
    (here : AnsweredOwn session one request) (there : AnsweredOwn session two request) :
    (handle tools wiki request one).1 = (handle tools wiki request two).1 ∧
      CachesAgree session (handle tools wiki request one).2 (handle tools wiki request two).2 := by
  by_cases accepted : request.hasToken = false ∨ request.config.isOk = false
  · unfold handle
    split
    · exact ⟨rfl, agree⟩
    · next token =>
        cases configured : request.config with
        | error error => exact ⟨rfl, agree⟩
        | ok unit =>
            rw [configured] at accepted
            rcases accepted with none | bad
            · exact absurd none token
            · cases bad
  · have artifacts (plain : ∀ hunkIndex, request.query ≠ .renderedHunkPreview hunkIndex) :=
      @revisionArtifactsForPair_own _ _ _ _ _ tools session request wiki one two agree mine
        (mine_artifacts accepted plain here) (mine_artifacts accepted plain there)
    unfold handle
    split
    · exact ⟨rfl, agree⟩
    · split
      · exact ⟨rfl, agree⟩
      · cases asked : request.query with
        | revisionDiff =>
            obtain ⟨fetched, kept⟩ := artifacts (by rw [asked]; nofun)
            exact ⟨congrArg (respond _) fetched, kept⟩
        | revisionContentDiff =>
            obtain ⟨fetched, kept⟩ := artifacts (by rw [asked]; nofun)
            exact ⟨congrArg (respond _) fetched, kept⟩
        | revisionMediaDiff =>
            obtain ⟨fetched, kept⟩ := artifacts (by rw [asked]; nofun)
            exact ⟨congrArg (respond _) fetched, kept⟩
        | renderedHunkPreview hunkIndex =>
            obtain ⟨preview, behind⟩ := mine_preview accepted asked here
            obtain ⟨preview', behind'⟩ := mine_preview accepted asked there
            obtain ⟨fetched, kept⟩ := @fetchRenderedHunkPreviewByIds_own _ _ _ _ _ tools session
              request wiki one two hunkIndex agree mine preview preview'
              fun missed missed' => ⟨behind missed, behind' missed'⟩
            exact ⟨congrArg (respond _) fetched, kept⟩

end Own

/-- What a session is sent in a run. -/
def sentTo [DecidableEq Session] (session : Session)
    (responses : List (Session × Response Diff Media Report)) : List (Response Diff Media Report) :=
  (responses.filter fun response => response.1 = session).map Prod.snd

theorem sentTo_agree [DecidableEq Session] {run₁ run₂ : List (Request Session × Wiki)}
    (agree : CachesAgree session one two) (same : SameFor session run₁ run₂)
    (here : OwnOnly tools session one run₁) (there : OwnOnly tools session two run₂) :
    sentTo session (run tools one run₁) = sentTo session (run tools two run₂) := by
  induction same generalizing one two with
  | nil => rfl
  | @cons first second rest₁ rest₂ alike same ih =>
      obtain ⟨request, wiki⟩ := first
      obtain ⟨request', wiki'⟩ := second
      obtain ⟨requests, returned⟩ := alike
      dsimp only at requests returned
      subst requests
      obtain ⟨own, later⟩ := here
      obtain ⟨own', later'⟩ := there
      by_cases mine : request.session = session
      · rw [returned mine] at later ⊢
        obtain ⟨response, agree⟩ := @handle_own _ _ _ _ _ tools session request wiki' one two agree mine
          (own mine) (own' mine)
        have rest := ih agree later later'
        simp only [run, sentTo, List.filter_cons, mine, decide_true, if_true, List.map_cons, response]
        exact congrArg _ rest
      · have rest := ih (agree.grow (handle_grows mine) (handle_grows mine)) later later'
        simpa only [run, sentTo, List.filter_cons, mine, decide_false, Bool.false_eq_true, if_false]
          using rest

/-- In two runs that differ only in what MediaWiki returns to the other sessions, a session is
sent the same, unless in one of them it is answered from an entry that another session filled. -/
theorem session_isolated [DecidableEq Session] (tools : Tools Diff Media Report Entity)
    (session : Session) {run₁ run₂ : List (Request Session × Wiki)}
    (same : SameFor session run₁ run₂) (here : OwnOnly tools session .empty run₁)
    (there : OwnOnly tools session .empty run₂) :
    sentTo session (run tools .empty run₁) = sentTo session (run tools .empty run₂) :=
  sentTo_agree .empty same here there

end TwoRuns

section Leak

/-- A diff that shows both contents, and no other report. -/
def plainTools : Tools (Text × Text) Unit Unit Unit where
  isEntity _ := false
  wikitextSignals _ := false
  routeEntity _ _ _ := none
  labelIds _ := []
  renderEntity _ _ := ()
  diffLines before after := (before, after)
  hunkSections _ := []
  mediaDiff _ _ := none

/-- MediaWiki returns these revisions to a token, and nothing else. -/
def returning (revisions : List (Nat × RevisionContent)) : Wiki where
  revisionContents _ := .ok revisions
  entityLabels _ := []
  revisionSections _ := .ok []
  sectionHtml _ _ := .ok []

def diffRequest (session : String) (nowMs : Int) : Request String :=
  ⟨session, true, .ok (), "frwiki".toList, 2, 1, .revisionDiff, nowMs, nowMs⟩

/-- What is hidden from ordinary users. -/
def hiddenPair : List (Nat × RevisionContent) :=
  [(1, ⟨"a".toList, none⟩), (2, ⟨"secret".toList, none⟩)]

/-- An administrator asks for a diff, and a patroller a minute later. -/
def twoRequests (toAdministrator : List (Nat × RevisionContent)) : List (Request String × Wiki) :=
  [(diffRequest "administrator" 0, returning toAdministrator),
    (diffRequest "patroller" 60000, returning [])]

/-- The patroller is sent what only the administrator's token could read. -/
theorem cache_leaks :
    SameFor "patroller" (twoRequests hiddenPair) (twoRequests []) ∧
      sentTo "patroller" (run plainTools .empty (twoRequests hiddenPair)) =
        [.ok (.diff (some ("a".toList, "secret".toList)))] ∧
      sentTo "patroller" (run plainTools .empty (twoRequests [])) = [.ok (.diff none)] := by
  refine ⟨?_, ?_, ?_⟩
  · refine .cons ⟨rfl, ?_⟩ (.cons ⟨rfl, fun _ => rfl⟩ .nil)
    intro same
    exact absurd same (by decide)
  · rfl
  · rfl

/-- Without the administrator's entry the patroller is sent the same in both runs. -/
theorem session_isolated_expired :
    sentTo "patroller" (run plainTools .empty
        [(diffRequest "administrator" 0, returning hiddenPair),
          (diffRequest "patroller" 300000, returning [])]) =
      sentTo "patroller" (run plainTools .empty
        [(diffRequest "administrator" 0, returning []),
          (diffRequest "patroller" 300000, returning [])]) := by
  refine session_isolated plainTools "patroller" ?_ ?_ ?_
  · refine .cons ⟨rfl, ?_⟩ (.cons ⟨rfl, fun _ => rfl⟩ .nil)
    intro same
    exact absurd same (by decide)
  · refine ⟨fun same => absurd same (by decide), fun _ other served => ?_, trivial⟩
    cases served
  · refine ⟨fun same => absurd same (by decide), fun _ other served => ?_, trivial⟩
    cases served

end Leak

end SP42.Review
