import SP42.Base.FormEncoding
import SP42.Lib.Framing
import SP42.Live.Query

/-!
The query string: its pairs are joined without any escaping, so free text comes back
only where the form decoder reads it as it stands.
-/
namespace SP42.Live
open FormEncoding

/-- A query pair as the query string writes it. -/
def rendered (pair : String × Text) : Text := pair.1.toList ++ '=' :: pair.2

def queryKeys : List String :=
  ["limit", "include_bots", "unpatrolled_only", "include_minor", "include_registered",
    "include_anonymous", "include_temporary", "include_new_pages", "namespaces", "min_score",
    "tag_filter", "rccontinue"]

section Decoding

theorem percent_of_hasEscape {text : Text} (h : HasEscape text) : '%' ∈ text := by
  obtain ⟨a, b, found, -⟩ := h
  exact found.subset List.mem_cons_self

theorem plain_of_free {text : Text} (free : ∀ c ∈ text, c ≠ '&' ∧ c ≠ '+' ∧ c ≠ '%') :
    Plain text where
  uncut h := (free _ h).1 rfl
  noPlus h := (free _ h).2.1 rfl
  noEscape h := (free _ (percent_of_hasEscape h)).2.2 rfl

theorem plain_of_all {text : Text}
    (free : (text.all fun c => c != '&' && c != '+' && c != '%') = true) : Plain text := by
  simp only [List.all_eq_true, Bool.and_eq_true, bne_iff_ne, and_assoc] at free
  exact plain_of_free free

theorem queryKey_free {key : String} (h : key ∈ queryKeys) :
    ∀ c ∈ key.toList, c ≠ '&' ∧ c ≠ '+' ∧ c ≠ '%' ∧ c ≠ '=' := by
  have free : (queryKeys.all fun key => key.toList.all fun c =>
      c != '&' && c != '+' && c != '%' && c != '=') = true := by decide
  simp only [List.all_eq_true, Bool.and_eq_true, bne_iff_ne, and_assoc] at free
  exact free key h

theorem decode_queryKey {key : String} (h : key ∈ queryKeys) :
    decodeComponent key.toList = key.toList := by
  have free := queryKey_free h
  have plain : Plain key.toList := plain_of_free fun c hc =>
    ⟨(free c hc).1, (free c hc).2.1, (free c hc).2.2.1⟩
  exact decodeComponent_plain plain.noPlus plain.noEscape

/-- An uncut value is one pair again, its text as the decoder reads it. -/
theorem formPairs_rendered {key : String} {value : Text} (known : key ∈ queryKeys)
    (uncut : '&' ∉ value) : formPairs (rendered (key, value)) = [(key, decodeComponent value)] := by
  have whole : '&' ∉ rendered (key, value) := by
    intro h
    rcases List.mem_append.mp h with h | h
    · exact (queryKey_free known _ h).1 rfl
    · rcases List.mem_cons.mp h with h | h
      · exact absurd h (by decide)
      · exact uncut h
  rw [formPairs_uncut whole (by simp [rendered]), rendered,
    readPair_eq fun h => (queryKey_free known _ h).2.2.2 rfl, decode_queryKey known,
    String.ofList_toList]

/-- A value with an ampersand loses what follows it to further pairs. -/
theorem formPairs_rendered_cut {key : String} {front rest : Text} (known : key ∈ queryKeys)
    (uncut : '&' ∉ front) : formPairs (rendered (key, front ++ '&' :: rest)) =
      (key, decodeComponent front) :: formPairs rest := by
  have split : rendered (key, front ++ '&' :: rest) = rendered (key, front) ++ '&' :: rest := by
    simp [rendered]
  rw [split, formPairs_append, formPairs_rendered known uncut]
  rfl

theorem formPairs_join {pairs : List (String × Text)} (inhabited : pairs ≠ []) :
    formPairs (Text.join "&".toList (pairs.map rendered)) =
      pairs.flatMap fun pair => formPairs (rendered pair) := by
  have cut : (Text.join "&".toList (pairs.map rendered)).splitOn '&' =
      (pairs.map rendered).flatMap fun piece => piece.splitOn '&' :=
    Framing.splitOn_join (by rwa [ne_eq, List.map_eq_nil_iff])
  rw [formPairs, cut, List.flatMap_map, List.filter_flatMap, List.map_flatMap]
  rfl

end Decoding

namespace LiveOperatorQuery

/-- A text field that one key writes. -/
def WrittenBy (field : LiveOperatorQuery → Option Text) (key : String) : Prop :=
  ∀ query other value, field (applyQueryPair query other value) =
    if other = key then normalizedOptionalText (some value) else field query

theorem tagFilter_writtenBy : WrittenBy tagFilter "tag_filter" := by
  intro query other value
  unfold applyQueryPair
  split <;> first | rfl | (split <;> rfl) | simp_all

theorem rccontinue_writtenBy : WrittenBy rccontinue "rccontinue" := by
  intro query other value
  unfold applyQueryPair
  split <;> first | rfl | (split <;> rfl) | simp_all

theorem normalized_length {value kept : Text}
    (h : normalizedOptionalText (some value) = some kept) : kept.length ≤ value.length := by
  rw [normalizedOptionalText_some] at h
  split at h
  · cases h
  · cases h
    exact (Text.trim_sublist value).length_le

variable {field : LiveOperatorQuery → Option Text} {key : String}

/-- What shorter values leave in a text field stays shorter. -/
theorem applyQueryPairs_short (written : WrittenBy field key) {bound : Nat}
    {pairs : List (String × Text)} (short : ∀ pair ∈ pairs, pair.2.length < bound)
    {query : LiveOperatorQuery} (start : ∀ kept, field query = some kept → kept.length < bound) :
    ∀ kept, field (query.applyQueryPairs pairs) = some kept → kept.length < bound := by
  induction pairs generalizing query with
  | nil => exact start
  | cons pair pairs ih =>
      refine ih (fun other member => short other (List.mem_cons_of_mem _ member)) fun kept h => ?_
      rw [written] at h
      split at h
      · exact Nat.lt_of_le_of_lt (normalized_length h) (short pair List.mem_cons_self)
      · exact start kept h

theorem applyQueryPairs_normal (written : WrittenBy field key) (pairs : List (String × Text))
    {query : LiveOperatorQuery} (start : normalizedOptionalText (field query) = field query) :
    normalizedOptionalText (field (query.applyQueryPairs pairs)) =
      field (query.applyQueryPairs pairs) := by
  induction pairs generalizing query with
  | nil => exact start
  | cons pair pairs ih =>
      refine ih ?_
      rw [written]
      split
      · exact normalizedOptionalText_idem _
      · exact start

theorem applyQueryPairs_other (written : WrittenBy field key) {pairs : List (String × Text)}
    (other : ∀ pair ∈ pairs, pair.1 ≠ key) (query : LiveOperatorQuery) :
    field (query.applyQueryPairs pairs) = field query := by
  induction pairs generalizing query with
  | nil => rfl
  | cons pair pairs ih =>
      refine (ih (fun next member => other next (List.mem_cons_of_mem _ member)) _).trans ?_
      rw [written, if_neg (other pair List.mem_cons_self)]

/-- A normalised text comes back from its part of the query string exactly when it is plain. -/
theorem text_survives_iff (written : WrittenBy field key) (known : key ∈ queryKeys)
    {text : Text} (normal : normalizedOptionalText (some text) = some text)
    (query : LiveOperatorQuery) :
    field (query.applyQueryPairs (formPairs (rendered (key, text)))) = some text ↔ Plain text := by
  by_cases cut : '&' ∈ text
  · refine iff_of_false (fun kept => ?_) fun plain => plain.uncut cut
    obtain ⟨front, rest, rfl, uncut⟩ := List.eq_append_cons_of_mem cut
    rw [formPairs_rendered_cut known uncut] at kept
    have shorter : ∀ pair ∈ (key, decodeComponent front) :: formPairs rest,
        pair.2.length < (front ++ '&' :: rest).length := by
      intro pair member
      rw [List.length_append, List.length_cons]
      rcases List.mem_cons.mp member with rfl | member
      · have kept := decodeComponent_length front
        show (decodeComponent front).length < _
        omega
      · have := formPairs_value_length member; omega
    have first : ∀ kept, field (applyQueryPair query key (decodeComponent front)) = some kept →
        kept.length < (front ++ '&' :: rest).length := by
      intro kept h
      rw [written, if_pos rfl] at h
      exact Nat.lt_of_le_of_lt (normalized_length h) (shorter _ List.mem_cons_self)
    exact Nat.lt_irrefl _ (applyQueryPairs_short written
      (fun pair member => shorter pair (List.mem_cons_of_mem _ member)) first _ kept)
  · have read : field (query.applyQueryPairs (formPairs (rendered (key, text)))) =
        normalizedOptionalText (some (decodeComponent text)) := by
      rw [formPairs_rendered known cut]
      exact (written query key _).trans (if_pos rfl)
    rw [read]
    constructor
    · intro kept
      rw [normalizedOptionalText_some] at kept
      split at kept
      · cases kept
      · obtain ⟨noPlus, noEscape⟩ := plain_of_read_back (Option.some.inj kept)
        exact ⟨cut, noPlus, noEscape⟩
    · intro plain
      rw [decodeComponent_plain plain.noPlus plain.noEscape, normal]

/-- The pairs of a normalised query but for its two texts. -/
def plainPairs (query : LiveOperatorQuery) : List (String × Text) :=
  [("limit", Text.ofNat query.limit.val)] ++
  pushIf query.includeBots.isEnabled "include_bots" "true".toList ++
  pushIf query.unpatrolledOnly.isEnabled "unpatrolled_only" "true".toList ++
  pushIf (!query.includeMinor.isEnabled) "include_minor" "false".toList ++
  pushIf (!query.includeRegistered.isEnabled) "include_registered" "false".toList ++
  pushIf (!query.includeAnonymous.isEnabled) "include_anonymous" "false".toList ++
  pushIf (!query.includeTemporary.isEnabled) "include_temporary" "false".toList ++
  pushIf (!query.includeNewPages.isEnabled) "include_new_pages" "false".toList ++
  pushIf (query.namespaces ≠ []) "namespaces"
    (Text.join ",".toList (query.namespaces.map fun z => Text.ofInt z.val)) ++
  (query.minScore.map fun score => ("min_score", Text.ofInt score.val)).toList

def textPair (key : String) (field : Option Text) : List (String × Text) :=
  (field.map fun text => (key, text)).toList

theorem toQueryPairs_eq (query : LiveOperatorQuery) : query.toQueryPairs =
    query.normalized.plainPairs ++ textPair "tag_filter" query.normalized.tagFilter ++
      textPair "rccontinue" query.normalized.rccontinue := rfl

theorem mem_pushIf {pair : String × Text} {condition : Bool} {key : String} {value : Text}
    (h : pair ∈ pushIf condition key value) : pair = (key, value) := by
  cases condition with
  | true => exact List.mem_singleton.mp h
  | false => cases h

theorem plain_ofNat (n : Nat) : Plain (Text.ofNat n) := by
  refine plain_of_free fun c hc => ?_
  have digit := Text.isDigit_of_mem_ofNat hc
  refine ⟨?_, ?_, ?_⟩ <;> (rintro rfl; revert digit; decide)

theorem ofInt_free {z : Int} {c : Char} (hc : c ∈ Text.ofInt z) : c ≠ '&' ∧ c ≠ '+' ∧ c ≠ '%' := by
  rcases Text.mem_ofInt hc with digit | rfl
  · refine ⟨?_, ?_, ?_⟩ <;> (rintro rfl; revert digit; decide)
  · decide

/-- Everything but the two texts is digits, signs, commas and the words of the flags. -/
theorem plainPairs_plain {query : LiveOperatorQuery} {pair : String × Text}
    (h : pair ∈ query.plainPairs) :
    (pair.1 ∈ queryKeys ∧ pair.1 ≠ "tag_filter" ∧ pair.1 ≠ "rccontinue") ∧ Plain pair.2 := by
  have yes : Plain "true".toList := plain_of_all (by decide)
  have no : Plain "false".toList := plain_of_all (by decide)
  have numbers : Plain (Text.join ",".toList (query.namespaces.map fun z => Text.ofInt z.val)) := by
    refine plain_of_free fun c hc => ?_
    rcases Text.mem_join hc with comma | ⟨piece, member, inside⟩
    · obtain rfl : c = ',' := List.mem_singleton.mp comma
      decide
    · obtain ⟨z, -, rfl⟩ := List.mem_map.mp member
      exact ofInt_free inside
  have signed (z : Int) : Plain (Text.ofInt z) := plain_of_free fun c hc => ofInt_free hc
  have known {key : String} {value : Text} (named : pair = (key, value))
      (key_known : key ∈ queryKeys ∧ key ≠ "tag_filter" ∧ key ≠ "rccontinue")
      (value_plain : Plain value) :
      (pair.1 ∈ queryKeys ∧ pair.1 ≠ "tag_filter" ∧ pair.1 ≠ "rccontinue") ∧ Plain pair.2 := by
    subst named
    exact ⟨key_known, value_plain⟩
  simp only [plainPairs, List.mem_append] at h
  rcases h with ((((((((h | h) | h) | h) | h) | h) | h) | h) | h) | h
  · exact known (List.mem_singleton.mp h) (by decide) (plain_ofNat _)
  · exact known (mem_pushIf h) (by decide) yes
  · exact known (mem_pushIf h) (by decide) yes
  · exact known (mem_pushIf h) (by decide) no
  · exact known (mem_pushIf h) (by decide) no
  · exact known (mem_pushIf h) (by decide) no
  · exact known (mem_pushIf h) (by decide) no
  · exact known (mem_pushIf h) (by decide) no
  · exact known (mem_pushIf h) (by decide) numbers
  · obtain ⟨score, -, named⟩ := Option.map_eq_some_iff.mp (Option.mem_toList.mp h)
    exact known named.symm (by decide) (signed _)

/-- What the decoder finds in the query string. -/
theorem formPairs_toQueryString (query : LiveOperatorQuery) :
    formPairs query.toQueryString = query.normalized.plainPairs ++
      (textPair "tag_filter" query.normalized.tagFilter).flatMap (fun p => formPairs (rendered p)) ++
      (textPair "rccontinue" query.normalized.rccontinue).flatMap (fun p => formPairs (rendered p)) := by
  have written : query.toQueryString = Text.join "&".toList (query.toQueryPairs.map rendered) := by
    unfold toQueryString
    congr 1
    refine List.map_congr_left fun pair _ => ?_
    simp [rendered]
  have inhabited : query.toQueryPairs ≠ [] := by
    rw [toQueryPairs_eq]
    simp [plainPairs]
  have plain : query.normalized.plainPairs.flatMap (fun p => formPairs (rendered p)) =
      query.normalized.plainPairs := by
    conv_rhs => rw [← List.flatMap_singleton' query.normalized.plainPairs]
    refine List.flatMap_congr fun pair member => ?_
    obtain ⟨⟨known, -, -⟩, value⟩ := plainPairs_plain member
    have read := formPairs_rendered known value.uncut
    rw [decodeComponent_plain value.noPlus value.noEscape] at read
    exact read
  rw [written, formPairs_join inhabited, toQueryPairs_eq, List.flatMap_append, List.flatMap_append,
    plain]

theorem textPair_decoded {key : String} (known : key ∈ queryKeys) {field : Option Text}
    (plain : ∀ text ∈ field, Plain text) :
    (textPair key field).flatMap (fun p => formPairs (rendered p)) = textPair key field := by
  cases field with
  | none => rfl
  | some text =>
      have clear := plain text rfl
      show formPairs (rendered (key, text)) ++ [] = [(key, text)]
      rw [List.append_nil, formPairs_rendered known clear.uncut,
        decodeComponent_plain clear.noPlus clear.noEscape]

/-- Where both texts are plain the string gives the pairs back. -/
theorem formPairs_of_plain {query : LiveOperatorQuery}
    (tag : ∀ text ∈ query.normalized.tagFilter, Plain text)
    (token : ∀ text ∈ query.normalized.rccontinue, Plain text) :
    formPairs query.toQueryString = query.toQueryPairs := by
  rw [formPairs_toQueryString, textPair_decoded (by decide) tag, textPair_decoded (by decide) token,
    toQueryPairs_eq]

/-- A text that a decoded string returns was plain, when nothing after its pair writes it. -/
theorem plain_of_field {field : LiveOperatorQuery → Option Text} {key : String}
    (written : WrittenBy field key) (known : key ∈ queryKeys) {text : Option Text}
    (normal : normalizedOptionalText text = text) {start : LiveOperatorQuery}
    (returned : field (start.applyQueryPairs ((textPair key text).flatMap fun p =>
      formPairs (rendered p))) = text) : ∀ value ∈ text, Plain value := by
  rintro value rfl
  refine (text_survives_iff written known normal start).mp ?_
  have same : (textPair key (some value)).flatMap (fun p => formPairs (rendered p)) =
      formPairs (rendered (key, value)) := List.append_nil _
  rw [← same]
  exact returned

/-- The pairs bring a query back exactly when its two oddly defaulted flags have their default,
and the string exactly when, besides, the form decoder leaves its two texts as they are. -/
theorem query_survives_iff (query : LiveOperatorQuery) :
    (fromQueryPairs query.toQueryPairs = query.normalized ↔
      query.unpatrolledOnly = .enabled ∧ query.includeRegistered = .disabled) ∧
    (fromQueryPairs (formPairs query.toQueryString) = query.normalized ↔
      (query.unpatrolledOnly = .enabled ∧ query.includeRegistered = .disabled) ∧
        (∀ text ∈ query.normalized.tagFilter, Plain text) ∧
        ∀ text ∈ query.normalized.rccontinue, Plain text) := by
  have pairs : fromQueryPairs query.toQueryPairs = query.normalized ↔
      query.unpatrolledOnly = .enabled ∧ query.includeRegistered = .disabled := by
    rw [fromQueryPairs_toQueryPairs, carried_eq_iff]
  refine ⟨pairs, fun whole => ?_, fun ⟨flags, tag, token⟩ => ?_⟩
  · have tagNormal : normalizedOptionalText query.normalized.tagFilter = query.normalized.tagFilter :=
      normalizedOptionalText_idem _
    have tokenNormal : normalizedOptionalText query.normalized.rccontinue =
        query.normalized.rccontinue := normalizedOptionalText_idem _
    have tagBack := congrArg tagFilter whole
    have tokenBack := congrArg rccontinue whole
    simp only [fromQueryPairs, normalized] at tagBack tokenBack
    rw [applyQueryPairs_normal tagFilter_writtenBy _ rfl] at tagBack
    rw [applyQueryPairs_normal rccontinue_writtenBy _ rfl] at tokenBack
    rw [formPairs_toQueryString, applyQueryPairs_append] at tagBack tokenBack
    -- the token's pairs come last, so it is the first text known to be plain
    have token := plain_of_field rccontinue_writtenBy (by decide) tokenNormal tokenBack
    rw [textPair_decoded (by decide) token, applyQueryPairs_other tagFilter_writtenBy,
      applyQueryPairs_append] at tagBack
    · have tag := plain_of_field tagFilter_writtenBy (by decide) tagNormal tagBack
      rw [formPairs_of_plain tag token] at whole
      exact ⟨pairs.mp whole, tag, token⟩
    · intro pair member
      obtain ⟨text, -, rfl⟩ := Option.map_eq_some_iff.mp (Option.mem_toList.mp member)
      show "rccontinue" ≠ "tag_filter"
      decide
  · rw [formPairs_of_plain tag token]
    exact pairs.mpr flags

/-- A query for patrolled edits too comes back for unpatrolled ones only, and a tag with a plus
sign comes back with a blank. -/
theorem query_lost_in_url :
    fromQueryPairs ({ default with unpatrolledOnly := .disabled } : LiveOperatorQuery).toQueryPairs ≠
      ({ default with unpatrolledOnly := .disabled } : LiveOperatorQuery).normalized ∧
    fromQueryPairs (formPairs
        ({ default with tagFilter := some "c++".toList } : LiveOperatorQuery).toQueryString) ≠
      ({ default with tagFilter := some "c++".toList } : LiveOperatorQuery).normalized := by
  decide +kernel

end LiveOperatorQuery

end SP42.Live
