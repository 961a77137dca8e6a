import Mathlib.Data.List.Destutter
import Mathlib.Data.List.Sort
import SP42.Base.Machine
import SP42.Base.Number

/-!
The filters of the live operator view and the query pairs they travel as. The
encoder leaves out what it takes for a default; the decoder starts from
`LiveOperatorQuery.default`. Ten of the twelve fields return normalised; the two flags
whose omission rule is not their default always return as the default.
-/
namespace SP42.Live

structure LiveOperatorQuery where
  limit : U16
  includeBots : FlagState
  unpatrolledOnly : FlagState
  includeMinor : FlagState
  includeRegistered : FlagState
  includeAnonymous : FlagState
  includeTemporary : FlagState
  includeNewPages : FlagState
  namespaces : List I32
  minScore : Option I32
  tagFilter : Option Text
  rccontinue : Option Text
  deriving DecidableEq

def defaultLiveOperatorLimit : U16 := ⟨15, by decide⟩
def maxLiveOperatorLimit : Nat := 500

def normalizedOptionalText (value : Option Text) : Option Text :=
  (value.map Text.trim).filter (· ≠ [])

def parseBool (value : Text) : Bool :=
  Text.trim value ∈ ["1".toList, "true".toList, "TRUE".toList, "True".toList, "yes".toList, "on".toList]

/-- `sort_unstable` and then `dedup`. -/
def sortedDedup (namespaces : List I32) : List I32 :=
  (namespaces.insertionSort fun a b => a.val ≤ b.val).destutter (· ≠ ·)

def parseNamespaces (value : Text) : List I32 :=
  sortedDedup ((value.splitOn ',').filterMap fun entry => Text.parseI32 (Text.trim entry))

namespace LiveOperatorQuery

def default : LiveOperatorQuery where
  limit := defaultLiveOperatorLimit
  includeBots := .disabled
  unpatrolledOnly := .enabled
  includeMinor := .enabled
  includeRegistered := .disabled
  includeAnonymous := .enabled
  includeTemporary := .enabled
  includeNewPages := .enabled
  namespaces := []
  minScore := none
  tagFilter := none
  rccontinue := none

/-- `limit.clamp(1, MAX_LIVE_OPERATOR_LIMIT)`. -/
def clampLimit (limit : U16) : U16 :=
  ⟨max 1 (min limit.val maxLiveOperatorLimit), by
    unfold maxLiveOperatorLimit u16Max; omega⟩

def normalized (query : LiveOperatorQuery) : LiveOperatorQuery :=
  { query with
    limit := clampLimit query.limit
    tagFilter := normalizedOptionalText query.tagFilter
    rccontinue := normalizedOptionalText query.rccontinue
    namespaces := sortedDedup query.namespaces }

def applyQueryPair (query : LiveOperatorQuery) (key : String) (value : Text) : LiveOperatorQuery :=
  match key with
  | "limit" =>
    match Text.parseU16 value with
    | some limit => { query with limit }
    | none => query
  | "include_bots" => { query with includeBots := .ofBool (parseBool value) }
  | "unpatrolled_only" => { query with unpatrolledOnly := .ofBool (parseBool value) }
  | "include_minor" => { query with includeMinor := .ofBool (parseBool value) }
  | "include_registered" => { query with includeRegistered := .ofBool (parseBool value) }
  | "include_anonymous" => { query with includeAnonymous := .ofBool (parseBool value) }
  | "include_temporary" => { query with includeTemporary := .ofBool (parseBool value) }
  | "include_new_pages" => { query with includeNewPages := .ofBool (parseBool value) }
  | "namespaces" => { query with namespaces := parseNamespaces value }
  | "min_score" => { query with minScore := Text.parseI32 value }
  | "tag_filter" => { query with tagFilter := normalizedOptionalText (some value) }
  | "rccontinue" => { query with rccontinue := normalizedOptionalText (some value) }
  | _ => query

def applyQueryPairs (query : LiveOperatorQuery) (pairs : List (String × Text)) :
    LiveOperatorQuery :=
  pairs.foldl (fun query pair => query.applyQueryPair pair.1 pair.2) query

def fromQueryPairs (pairs : List (String × Text)) : LiveOperatorQuery :=
  (default.applyQueryPairs pairs).normalized

/-- A pair that is pushed under a condition. -/
def pushIf (condition : Bool) (key : String) (value : Text) : List (String × Text) :=
  if condition then [(key, value)] else []

def toQueryPairs (self : LiveOperatorQuery) : List (String × Text) :=
  let query := self.normalized
  [("limit", Text.ofNat query.limit.val)] ++
  pushIf query.includeBots.isEnabled "include_bots" "true".toList ++
  pushIf query.unpatrolledOnly.isEnabled "unpatrolled_only" "true".toList ++
  pushIf (!query.includeMinor.isEnabled) "include_minor" "false".toList ++
  pushIf (!query.includeRegistered.isEnabled) "include_registered" "false".toList ++
  pushIf (!query.includeAnonymous.isEnabled) "include_anonymous" "false".toList ++
  pushIf (!query.includeTemporary.isEnabled) "include_temporary" "false".toList ++
  pushIf (!query.includeNewPages.isEnabled) "include_new_pages" "false".toList ++
  pushIf (query.namespaces ≠ []) "namespaces"
    (Text.join ",".toList (query.namespaces.map fun z => Text.ofInt z.val)) ++
  (query.minScore.map fun score => ("min_score", Text.ofInt score.val)).toList ++
  (query.tagFilter.map fun tag => ("tag_filter", tag)).toList ++
  (query.rccontinue.map fun token => ("rccontinue", token)).toList

def toQueryString (self : LiveOperatorQuery) : Text :=
  Text.join "&".toList (self.toQueryPairs.map fun pair => pair.1.toList ++ "=".toList ++ pair.2)

end LiveOperatorQuery

theorem trim_true : Text.trim "true".toList = "true".toList := by decide

theorem trim_false : Text.trim "false".toList = "false".toList := by decide

@[simp] theorem parseBool_true : parseBool "true".toList = true := by
  unfold parseBool; rw [trim_true]; decide

@[simp] theorem parseBool_false : parseBool "false".toList = false := by
  unfold parseBool; rw [trim_false]; decide

section Normal

theorem sortedDedup_sorted (namespaces : List I32) :
    (sortedDedup namespaces).Pairwise fun a b => a.val ≤ b.val := by
  have total : Std.Total fun a b : I32 => a.val ≤ b.val := ⟨fun a b => Int.le_total a.val b.val⟩
  have trans : IsTrans I32 fun a b => a.val ≤ b.val := ⟨fun _ _ _ => Int.le_trans⟩
  exact (List.pairwise_insertionSort (fun a b : I32 => a.val ≤ b.val) namespaces).sublist
    (List.destutter_sublist _ _)

/-- A list that is sorted and free of repetitions stays as it is. -/
theorem sortedDedup_idem (namespaces : List I32) :
    sortedDedup (sortedDedup namespaces) = sortedDedup namespaces := by
  conv_lhs => rw [sortedDedup, (sortedDedup_sorted namespaces).insertionSort_eq]
  exact List.destutter_idem _ _

theorem normalizedOptionalText_some (text : Text) : normalizedOptionalText (some text) =
    if Text.trim text = [] then none else some (Text.trim text) := by
  by_cases blank : Text.trim text = [] <;> simp [normalizedOptionalText, Option.filter, blank]

theorem normalizedOptionalText_idem (value : Option Text) :
    normalizedOptionalText (normalizedOptionalText value) = normalizedOptionalText value := by
  cases value with
  | none => rfl
  | some text =>
      rw [normalizedOptionalText_some]
      split
      · rfl
      · rename_i solid
        rw [normalizedOptionalText_some, Text.trim_trim, if_neg solid]

theorem clampLimit_idem (limit : U16) :
    LiveOperatorQuery.clampLimit (LiveOperatorQuery.clampLimit limit) =
      LiveOperatorQuery.clampLimit limit := by
  refine Subtype.ext ?_
  simp only [LiveOperatorQuery.clampLimit, maxLiveOperatorLimit]
  omega

end Normal

section Fields

/-- The written namespaces are read back sorted and without repetitions. -/
theorem parseNamespaces_join {namespaces : List I32} (inhabited : namespaces ≠ []) :
    parseNamespaces (Text.join ",".toList (namespaces.map fun z => Text.ofInt z.val)) =
      sortedDedup namespaces := by
  have uncut : ∀ piece ∈ namespaces.map (fun z => Text.ofInt z.val), ',' ∉ piece := by
    intro piece member comma
    obtain ⟨z, -, rfl⟩ := List.mem_map.mp member
    rcases Text.mem_ofInt comma with digit | minus
    · revert digit; decide
    · revert minus; decide
  have pieces : (Text.join ",".toList (namespaces.map fun z => Text.ofInt z.val)).splitOn ',' =
      namespaces.map fun z => Text.ofInt z.val :=
    List.splitOn_intercalate ',' uncut (by rwa [ne_eq, List.map_eq_nil_iff])
  have entries : (namespaces.map fun z => Text.ofInt z.val).filterMap
      (fun entry => Text.parseI32 (Text.trim entry)) = namespaces := by
    rw [List.filterMap_map]
    conv_rhs => rw [← @List.filterMap_some _ namespaces]
    refine List.filterMap_congr fun z _ => ?_
    exact (congrArg Text.parseI32 (Text.trim_ofInt z.val)).trans (Text.parseI32_ofInt z)
  rw [parseNamespaces, pieces, entries]

end Fields

namespace LiveOperatorQuery

theorem normalized_idem (query : LiveOperatorQuery) : query.normalized.normalized = query.normalized := by
  simp only [normalized, clampLimit_idem, normalizedOptionalText_idem, sortedDedup_idem]

theorem applyQueryPairs_append (query : LiveOperatorQuery) (front rest : List (String × Text)) :
    query.applyQueryPairs (front ++ rest) = (query.applyQueryPairs front).applyQueryPairs rest :=
  List.foldl_append

/-- A pair under a condition: pushed it writes its field, left out the field has that value already. -/
theorem applyQueryPairs_pushIf {query next : LiveOperatorQuery} {condition : Bool} {key : String}
    {value : Text} (pushed : condition = true → query.applyQueryPair key value = next)
    (omitted : condition = false → query = next) :
    query.applyQueryPairs (pushIf condition key value) = next := by
  cases condition with
  | true => exact pushed rfl
  | false => exact omitted rfl

/-- A flag that is pushed when it is enabled, over a query that has it disabled. -/
theorem applyQueryPairs_enabled (set : LiveOperatorQuery → FlagState → LiveOperatorQuery)
    (key : String)
    (writes : ∀ query value, applyQueryPair query key value = set query (.ofBool (parseBool value)))
    {query : LiveOperatorQuery} {flag : FlagState} (omitted : set query .disabled = query) :
    query.applyQueryPairs (pushIf flag.isEnabled key "true".toList) = set query flag := by
  refine applyQueryPairs_pushIf (fun on => ?_) (fun off => ?_)
  · rw [writes, parseBool_true, ← on, FlagState.ofBool_isEnabled]
  · cases flag with
    | disabled => exact omitted.symm
    | enabled => cases off

/-- A flag that is pushed when it is disabled, over a query that has it enabled. -/
theorem applyQueryPairs_disabled (set : LiveOperatorQuery → FlagState → LiveOperatorQuery)
    (key : String)
    (writes : ∀ query value, applyQueryPair query key value = set query (.ofBool (parseBool value)))
    {query : LiveOperatorQuery} {flag : FlagState} (omitted : set query .enabled = query) :
    query.applyQueryPairs (pushIf (!flag.isEnabled) key "false".toList) = set query flag := by
  refine applyQueryPairs_pushIf (fun off => ?_) (fun on => ?_)
  · cases flag with
    | disabled => rw [writes, parseBool_false]; rfl
    | enabled => cases off
  · cases flag with
    | disabled => cases on
    | enabled => exact omitted.symm

/-- A text that is pushed when it is there, over a query that has none. -/
theorem applyQueryPairs_text (set : LiveOperatorQuery → Option Text → LiveOperatorQuery)
    (key : String)
    (writes : ∀ query value,
      applyQueryPair query key value = set query (normalizedOptionalText (some value)))
    {query : LiveOperatorQuery} {field : Option Text} (normal : normalizedOptionalText field = field)
    (omitted : set query none = query) :
    query.applyQueryPairs (field.map fun text => (key, text)).toList = set query field := by
  cases field with
  | none => exact omitted.symm
  | some text => exact (writes query text).trans (congrArg (set query) normal)

theorem applyQueryPairs_limit (limit : U16) :
    default.applyQueryPairs [("limit", Text.ofNat limit.val)] = { default with limit } := by
  show applyQueryPair default "limit" (Text.ofNat limit.val) = _
  simp only [applyQueryPair, Text.parseU16_ofNat]

theorem applyQueryPairs_namespaces {query : LiveOperatorQuery} {namespaces : List I32}
    (sorted : sortedDedup namespaces = namespaces) (fresh : query.namespaces = []) :
    query.applyQueryPairs (pushIf (namespaces ≠ []) "namespaces"
      (Text.join ",".toList (namespaces.map fun z => Text.ofInt z.val))) =
    { query with namespaces } := by
  refine applyQueryPairs_pushIf (fun inhabited => ?_) fun empty => ?_
  · show { query with namespaces := parseNamespaces _ } = _
    rw [parseNamespaces_join (of_decide_eq_true inhabited), sorted]
  · have none_ : namespaces = [] := not_not.mp (of_decide_eq_false empty)
    rw [none_, ← fresh]

theorem applyQueryPairs_minScore {query : LiveOperatorQuery} (score : Option I32)
    (fresh : query.minScore = none) :
    query.applyQueryPairs (score.map fun z => ("min_score", Text.ofInt z.val)).toList =
      { query with minScore := score } := by
  cases score with
  | none =>
      show query = { query with minScore := none }
      rw [← fresh]
  | some z =>
      show { query with minScore := Text.parseI32 (Text.ofInt z.val) } = _
      rw [Text.parseI32_ofInt]

/-- `unpatrolled_only` is pushed when it is what the decoder starts from. -/
theorem applyQueryPairs_unpatrolled {query : LiveOperatorQuery} (condition : Bool)
    (fresh : query.unpatrolledOnly = .enabled) :
    query.applyQueryPairs (pushIf condition "unpatrolled_only" "true".toList) = query := by
  refine applyQueryPairs_pushIf (fun _ => ?_) fun _ => rfl
  show { query with unpatrolledOnly := FlagState.ofBool (parseBool "true".toList) } = query
  rw [parseBool_true, show FlagState.ofBool true = query.unpatrolledOnly from fresh.symm]

/-- `include_registered` is pushed when it is what the decoder starts from. -/
theorem applyQueryPairs_registered {query : LiveOperatorQuery} (condition : Bool)
    (fresh : query.includeRegistered = .disabled) :
    query.applyQueryPairs (pushIf condition "include_registered" "false".toList) = query := by
  refine applyQueryPairs_pushIf (fun _ => ?_) fun _ => rfl
  show { query with includeRegistered := FlagState.ofBool (parseBool "false".toList) } = query
  rw [parseBool_false, show FlagState.ofBool false = query.includeRegistered from fresh.symm]

/-- A query as its pairs give it back: all of its fields but two. -/
def carried (query : LiveOperatorQuery) : LiveOperatorQuery :=
  { query.normalized with unpatrolledOnly := .enabled, includeRegistered := .disabled }

theorem applyQueryPairs_toQueryPairs (query : LiveOperatorQuery) :
    default.applyQueryPairs query.toQueryPairs = query.carried := by
  have normal := normalized_idem query
  unfold toQueryPairs carried
  generalize query.normalized = n at normal
  obtain ⟨limit, bots, unpatrolled, minor, registered, anonymous, temporary, newPages, namespaces,
    score, tag, token⟩ := n
  simp only [normalized, mk.injEq] at normal
  obtain ⟨-, -, -, -, -, -, -, -, sorted, -, tagNormal, tokenNormal⟩ := normal
  simp only [applyQueryPairs_append]
  rw [applyQueryPairs_limit, applyQueryPairs_enabled (fun q flag => { q with includeBots := flag })
      "include_bots" (fun _ _ => rfl) rfl,
    applyQueryPairs_unpatrolled _ rfl,
    applyQueryPairs_disabled (fun q flag => { q with includeMinor := flag })
      "include_minor" (fun _ _ => rfl) rfl,
    applyQueryPairs_registered _ rfl,
    applyQueryPairs_disabled (fun q flag => { q with includeAnonymous := flag })
      "include_anonymous" (fun _ _ => rfl) rfl,
    applyQueryPairs_disabled (fun q flag => { q with includeTemporary := flag })
      "include_temporary" (fun _ _ => rfl) rfl,
    applyQueryPairs_disabled (fun q flag => { q with includeNewPages := flag })
      "include_new_pages" (fun _ _ => rfl) rfl,
    applyQueryPairs_namespaces sorted rfl, applyQueryPairs_minScore _ rfl,
    applyQueryPairs_text (fun q text => { q with tagFilter := text })
      "tag_filter" (fun _ _ => rfl) tagNormal rfl,
    applyQueryPairs_text (fun q text => { q with rccontinue := text })
      "rccontinue" (fun _ _ => rfl) tokenNormal rfl]
  rfl

theorem carried_normalized (query : LiveOperatorQuery) : query.carried.normalized = query.carried := by
  have normal := normalized_idem query
  simp only [normalized, mk.injEq] at normal
  simp only [carried, normalized, mk.injEq, true_and]
  tauto

/-- Decoding the pairs gives the normalised query but for the two flags. -/
theorem fromQueryPairs_toQueryPairs (query : LiveOperatorQuery) :
    fromQueryPairs query.toQueryPairs = query.carried := by
  rw [fromQueryPairs, applyQueryPairs_toQueryPairs, carried_normalized]

theorem carried_eq_iff (query : LiveOperatorQuery) : query.carried = query.normalized ↔
    query.unpatrolledOnly = .enabled ∧ query.includeRegistered = .disabled := by
  simp only [carried, normalized, mk.injEq, and_true, true_and]
  exact and_congr eq_comm eq_comm

end LiveOperatorQuery

end SP42.Live
