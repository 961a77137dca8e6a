import SP42.Citation.Books
import SP42.Citation.Segment

/-!
Extraction of the claims of a page: each reference attaches to the sentence that it
trails, and gives one use site for each of its URLs or, without URLs, of its books.
-/
namespace SP42.Citation

def maxPreceding : Nat := 3

/-- A URL that a reference cites, with archived copies of it. -/
structure CitedSource (Url : Type) where
  url : Url
  archiveUrls : List Url
  deriving DecidableEq

structure BlockRef (Url : Type) where
  offset : Nat
  refId : Text
  sources : List (CitedSource Url)
  bookSources : List BookSource
  isBareUrlRef : Bool
  shortCiteUnresolved : Bool
  deriving DecidableEq

structure ParsoidBlock (Url : Type) where
  text : Text
  refs : List (BlockRef Url)
  blockOrdinal : Nat
  deriving DecidableEq

structure CitationUseSite (Url : Type) where
  useSiteOrdinal : Nat
  blockOrdinal : Nat
  request : CitationVerificationRequest Url
  context : ClaimContext
  refId : Text
  archiveUrls : List Url
  isBareUrlRef : Bool

structure ExtractOutcome (Url : Type) where
  useSites : List (CitationUseSite Url)
  bookUseSites : List BookUseSite
  skipped : List SkippedRef
  failures : List BlockFailure

/-- The loop of `attach_index`, from the sentence with an index on. -/
def attachFrom (probe : Nat) : Nat → List Sentence → Nat
  | index, [] => index - 1
  | index, sentence :: rest =>
      if probe < sentence.start then index - 1
      else if probe < sentence.stop then index
      else attachFrom probe (index + 1) rest

theorem attachFrom_le (probe : Nat) (sentences : List Sentence) :
    ∀ index, attachFrom probe index sentences ≤ index + sentences.length - 1 := by
  induction sentences with
  | nil =>
      intro index
      exact Nat.le_refl _
  | cons sentence rest ih =>
      intro index
      rw [attachFrom, List.length_cons]
      split
      · omega
      · split
        · omega
        · have later := ih (index + 1)
          omega

def attachIndex (sentences : List Sentence) (offset : Nat) : Option Nat :=
  if sentences = [] then none else some (attachFrom (offset - 1) 0 sentences)

section Extracting

variable {Url : Type} (letters : Letters) (page : PageVerificationRequest)

/-- The claim that a reference attaches to, with the sentences before it. -/
def claimOf (block : ParsoidBlock Url) (sentences : List Sentence) (offset : Nat) :
    Text × List Text :=
  match attachIndex sentences offset with
  | some index =>
      ((sentences[index]?.map Sentence.text).getD [],
        ((sentences.take index).drop (index - maxPreceding)).map Sentence.text)
  | none => (Text.trim block.text, [])

def urlSite (block : ParsoidBlock Url) (ref : BlockRef Url) (claim : Text) (context : ClaimContext)
    (ordinal : Nat) (source : CitedSource Url) : CitationUseSite Url where
  useSiteOrdinal := ordinal
  blockOrdinal := block.blockOrdinal
  request := ⟨page.wikiId, page.revId, page.title, claim, source.url⟩
  context := context
  refId := ref.refId
  archiveUrls := source.archiveUrls
  isBareUrlRef := ref.isBareUrlRef

def bookSite (block : ParsoidBlock Url) (ref : BlockRef Url) (claim : Text) (context : ClaimContext)
    (ordinal : Nat) (book : BookSource) : BookUseSite where
  useSiteOrdinal := ordinal
  blockOrdinal := block.blockOrdinal
  refId := ref.refId
  claim := claim
  context := context
  book := book

/-- The loop state: what was extracted so far, and the next ordinal. -/
structure Extracted (Url : Type) where
  outcome : ExtractOutcome Url
  ordinal : Nat

def Extracted.skip (state : Extracted Url) (block : ParsoidBlock Url) (ref : BlockRef Url)
    (reason : SkippedReason) : Extracted Url :=
  { state with outcome := { state.outcome with
      skipped := state.outcome.skipped ++ [⟨ref.refId, reason, block.blockOrdinal, []⟩] } }

def Extracted.fail (state : Extracted Url) (block : ParsoidBlock Url) (reason : Text) :
    Extracted Url :=
  { state with outcome := { state.outcome with
      failures := state.outcome.failures ++ [⟨block.blockOrdinal, reason⟩] } }

def Extracted.addSite (site : Nat → CitationUseSite Url) (state : Extracted Url) : Extracted Url where
  outcome := { state.outcome with useSites := state.outcome.useSites ++ [site state.ordinal] }
  ordinal := state.ordinal + 1

def Extracted.addBook (site : Nat → BookUseSite) (state : Extracted Url) : Extracted Url where
  outcome := { state.outcome with
    bookUseSites := state.outcome.bookUseSites ++ [site state.ordinal] }
  ordinal := state.ordinal + 1

/-- The body of the loop over the references of a block. -/
def visitRef (block : ParsoidBlock Url) (sentences : List Sentence) (state : Extracted Url)
    (ref : BlockRef Url) : Extracted Url :=
  let disclosed := if ref.shortCiteUnresolved then state.skip block ref .unresolvedShortCite else state
  if ref.sources = [] ∧ ref.bookSources = [] then
    if ref.shortCiteUnresolved then disclosed else disclosed.skip block ref .nonUrlSource
  else
    let (claim, preceding) := claimOf block sentences ref.offset
    if claim = [] then
      disclosed.fail block ("ref ".toList ++ ref.refId ++ " has no resolvable claim text".toList)
    else
      let context : ClaimContext := ⟨page.title, preceding⟩
      if ref.sources = [] then
        ref.bookSources.foldl (fun state book =>
          state.addBook fun ordinal => bookSite block ref claim context ordinal book) disclosed
      else
        ref.sources.foldl (fun state source =>
          state.addSite fun ordinal => urlSite page block ref claim context ordinal source) disclosed

def visitBlock (state : Extracted Url) (block : ParsoidBlock Url) : Extracted Url :=
  block.refs.foldl (visitRef page block (segmentSentences letters block.text)) state

def extractUseSites (blocks : List (ParsoidBlock Url)) : ExtractOutcome Url :=
  (blocks.foldl (visitBlock letters page) ⟨⟨[], [], [], []⟩, 0⟩).outcome

variable {letters}

/-- A reference of a block that is not blank attaches to a sentence. -/
theorem attachIndex_lt {sentences : List Sentence} {offset index : Nat}
    (attached : attachIndex sentences offset = some index) : index < sentences.length := by
  unfold attachIndex at attached
  split at attached
  · cases attached
  · rename_i inhabited
    cases attached
    have bound := attachFrom_le (offset - 1) sentences 0
    have := List.length_pos_iff.mpr inhabited
    omega

/-- There is no claim exactly where the block is blank. -/
theorem claimOf_eq_nil {block : ParsoidBlock Url} {offset : Nat} :
    (claimOf block (segmentSentences letters block.text) offset).1 = [] ↔
      Text.trim block.text = [] := by
  unfold claimOf
  cases attached : attachIndex (segmentSentences letters block.text) offset with
  | none => rfl
  | some index =>
      have inside := attachIndex_lt attached
      have solid : Text.trim block.text ≠ [] := by
        intro blank
        rw [segmentSentences_eq_nil.mpr blank] at inside
        exact Nat.not_lt_zero index inside
      dsimp only
      rw [List.getElem?_eq_getElem inside]
      refine iff_of_false ?_ solid
      exact text_of_mem_segmentFrom (List.getElem_mem inside)

end Extracting

end SP42.Citation
