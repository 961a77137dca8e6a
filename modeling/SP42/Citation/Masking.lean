import Mathlib.Data.List.MinMax
import SP42.Citation.Offsets

/-!
What a fuzzy hit says about the numbers of the quote, and when the fuzzy locator finds a quote.
Each number is a token of the span, perhaps in another order. The first of the longest alignments
decides, and only its span is asked for the numbers: an alignment as long that leaves a number
out can mask another one.
-/
namespace SP42.Citation

section Hits

variable {unicode : Unicode} {quote source : Text}

/-- The tokens that the span of a hit covers, from the first matched one to the last. -/
def SpanTokens (unicode : Unicode) (source : Text) (hit : FuzzyLocate)
    (spanTokens : List SourceToken) : Prop :=
  ∃ first last a b span, first ≤ last ∧
    spanTokens = ((tokensOf unicode source).take (last + 1)).drop first ∧
    (tokensOf unicode source)[first]? = some a ∧ (tokensOf unicode source)[last]? = some b ∧
    (normalizeWithMap unicode source).offsets[a.startChar]? = some hit.offset ∧
    Bytes.slice source hit.offset (endByte unicode source b.endChar) = some span ∧
    hit.span = Text.trimEnd span

/-- The counts of a hit are those of an examined window. -/
def CountsOf (quoteTokens : List Text) (sourceTokens : List SourceToken) (hit : FuzzyLocate) : Prop :=
  ∃ start window matched, Examined quoteTokens sourceTokens start window ∧
    Lcs.Longest quoteTokens (words window) matched ∧
    hit.matchedTokens = min matched 0xffffffff ∧
    hit.quoteTokens = min quoteTokens.length 0xffffffff

/-- The threshold of a hit survives the counts being cut to 32 bits. -/
theorem threshold_min {matched total : Nat}
    (enough : ¬ matched * fuzzyThresholdDen < total * fuzzyThresholdNum) :
    min total 0xffffffff * 17 ≤ min matched 0xffffffff * 20 := by
  unfold fuzzyThresholdDen fuzzyThresholdNum at enough
  omega

/-- Every number of the quote is a token of the span; the matched tokens are counted by a longest
common subsequence with an examined window, and make up 85 percent of the quote. -/
theorem fuzzy_numbers {hit : FuzzyLocate}
    (located : locateQuoteFuzzy unicode quote source = some hit) :
    (∃ spanTokens, SpanTokens unicode source hit spanTokens ∧
      ∀ word ∈ tokenizeQuote unicode quote, hasDigit word = true → word ∈ words spanTokens) ∧
    CountsOf (tokenizeQuote unicode quote) (tokensOf unicode source) hit ∧
    hit.quoteTokens * 17 ≤ hit.matchedTokens * 20 := by
  unfold locateQuoteFuzzy at located
  dsimp only at located
  split at located
  · cases located
  · obtain ⟨⟨matched, first, last⟩, found, located⟩ := Option.bind_eq_some_iff.mp located
    obtain ⟨ordered, -, -⟩ := bestWindow_range found
    obtain ⟨a, b, byte, span, here, there, -, starts, -, -, -, cut⟩ := span_cut found
    obtain ⟨start, window, f, l, examined, aligned, -, -⟩ := bestWindow_spec found
    dsimp only at located
    split at located
    · cases located
    · next enough =>
        split at located
        · cases located
        · next bearing =>
            rw [here, there] at located
            simp only [Option.bind_eq_bind, Option.bind_some, starts] at located
            rw [← endByte, cut, Option.bind_some] at located
            cases located
            refine ⟨⟨_, ⟨first, last, a, b, span, ordered, rfl, here, there, starts, cut, rfl⟩, ?_⟩,
              ⟨start, window, matched, examined, (lcsMatch_eq_some aligned).1, rfl, rfl⟩,
              threshold_min enough⟩
            intro word member digit
            rw [Bool.not_eq_true', Bool.not_eq_false, List.all_eq_true] at bearing
            obtain ⟨token, inside, same⟩ := List.any_eq_true.mp
              (bearing word (List.mem_filter.mpr ⟨member, digit⟩))
            exact List.mem_map.mpr ⟨token, inside, of_decide_eq_true same⟩

def bridgeSource : Text :=
  "The first bridge across the river stood from 1985 to 1990 before the flood came.".toList

/-- The years of the source, the other way round. -/
def bridgeQuote : Text :=
  "The first bridge across the river stood from 1990 to 1985 before the flood came.".toList

def bridgeHit : FuzzyLocate := ⟨0, bridgeSource, 13, 15⟩

theorem fuzzy_numbers_bridge :
    locateQuoteFuzzy asciiTables bridgeQuote bridgeSource = some bridgeHit ∧
      (∃ spanTokens, SpanTokens asciiTables bridgeSource bridgeHit spanTokens ∧
        ∀ word ∈ tokenizeQuote asciiTables bridgeQuote, hasDigit word = true →
          word ∈ words spanTokens) ∧
      CountsOf (tokenizeQuote asciiTables bridgeQuote) (tokensOf asciiTables bridgeSource)
        bridgeHit := by
  have located : locateQuoteFuzzy asciiTables bridgeQuote bridgeSource = some bridgeHit := by
    have quote : bridgeQuote = _ := String.toList_ofList
    have source : bridgeSource = _ := String.toList_ofList
    unfold bridgeHit
    rw [quote, source]
    decide +kernel
  obtain ⟨numbers, counts, -⟩ := fuzzy_numbers located
  exact ⟨located, numbers, counts⟩

/-- A quote that swaps two years is located, in a span with each of them once. -/
theorem swapped_years_located :
    ∃ hit, locateQuoteFuzzy asciiTables bridgeQuote bridgeSource = some hit ∧
      (words (tokensOf asciiTables hit.span)).filter hasDigit = ["1985".toList, "1990".toList] ∧
      ¬ ((tokenizeQuote asciiTables bridgeQuote).filter hasDigit).Sublist
        ((words (tokensOf asciiTables hit.span)).filter hasDigit) := by
  have quote : bridgeQuote = _ := String.toList_ofList
  have source : bridgeSource = _ := String.toList_ofList
  refine ⟨bridgeHit, ?_⟩
  unfold bridgeHit
  rw [quote, source]
  decide +kernel

end Hits

section Table

variable {quoteTokens : List Text} {window : List SourceToken} {row col : Nat}

theorem tableAt_row_zero (inCols : col ≤ window.length) :
    tableAt (alignmentTable quoteTokens window) 0 col = 0 := by
  have here := @tableAt_longest quoteTokens window 0 col (Nat.zero_le _) inCols
  exact here.unique (.nil_left _)

theorem tableAt_col_zero (inRows : row ≤ quoteTokens.length) :
    tableAt (alignmentTable quoteTokens window) row 0 = 0 := by
  have here := @tableAt_longest quoteTokens window row 0 inRows (Nat.zero_le _)
  exact here.unique (.nil_right _)

/-- Two tokens that are the same lengthen the diagonal. -/
theorem tableAt_same (inRows : row < quoteTokens.length) (inCols : col < window.length)
    (same : quoteTokens[row] = window[col].cleaned) :
    tableAt (alignmentTable quoteTokens window) (row + 1) (col + 1) =
      tableAt (alignmentTable quoteTokens window) row col + 1 := by
  have here := @tableAt_longest quoteTokens window (row + 1) (col + 1) inRows inCols
  have diag := @tableAt_longest quoteTokens window row col (Nat.le_of_lt inRows)
    (Nat.le_of_lt inCols)
  have wide : col < (words window).length := by rwa [words, List.length_map]
  have last : (words window)[col] = quoteTokens[row] := by
    rw [same]
    exact List.getElem_map _
  rw [List.take_succ_eq_append_getElem inRows, List.take_succ_eq_append_getElem wide, last] at here
  exact here.unique (diag.same _)

/-- Of two tokens that differ one is left out. -/
theorem tableAt_differ (inRows : row < quoteTokens.length) (inCols : col < window.length)
    (different : quoteTokens[row] ≠ window[col].cleaned) :
    tableAt (alignmentTable quoteTokens window) (row + 1) (col + 1) =
      max (tableAt (alignmentTable quoteTokens window) row (col + 1))
        (tableAt (alignmentTable quoteTokens window) (row + 1) col) := by
  have here := @tableAt_longest quoteTokens window (row + 1) (col + 1) inRows inCols
  have up := @tableAt_longest quoteTokens window row (col + 1) (Nat.le_of_lt inRows) inCols
  have left := @tableAt_longest quoteTokens window (row + 1) col inRows (Nat.le_of_lt inCols)
  have wide : col < (words window).length := by rwa [words, List.length_map]
  have last : (words window)[col] = window[col].cleaned := List.getElem_map _
  rw [List.take_succ_eq_append_getElem inRows, List.take_succ_eq_append_getElem wide, last] at here
  rw [List.take_succ_eq_append_getElem wide, last] at up
  rw [List.take_succ_eq_append_getElem inRows] at left
  exact here.unique (.differ different up left)

end Table

section Traced

/-- The tokens of the window from the first to the last of a range. -/
def rangeTokens (tokens : List SourceToken) (first last : Nat) : List SourceToken :=
  (tokens.take (last + 1)).drop first

variable {quoteTokens : List Text} {window : List SourceToken} {row col : Nat}

/-- What the way back has traced behind a row and a column: a common subsequence, in the range. -/
inductive Traced (quoteTokens : List Text) (window : List SourceToken) (row col : Nat) :
    List Text → Option (Nat × Nat) → Prop
  | start : Traced quoteTokens window row col [] none
  | range {word : List Text} {first last : Nat} (low : col ≤ first) (ordered : first ≤ last)
      (quote : word.Sublist (quoteTokens.drop row))
      (span : word.Sublist (words (rangeTokens window first last))) :
      Traced quoteTokens window row col word (some (first, last))

theorem Traced.up {word : List Text} {range : Option (Nat × Nat)}
    (traced : Traced quoteTokens window (row + 1) col word range) :
    Traced quoteTokens window row col word range := by
  cases traced with
  | start => exact .start
  | range low ordered quote span =>
      refine .range low ordered (quote.trans ?_) span
      rw [← List.drop_drop]
      exact List.drop_sublist _ _

theorem Traced.left {word : List Text} {range : Option (Nat × Nat)}
    (traced : Traced quoteTokens window row (col + 1) word range) :
    Traced quoteTokens window row col word range := by
  cases traced with
  | start => exact .start
  | range low ordered quote span => exact .range (Nat.le_of_succ_le low) ordered quote span

theorem rangeTokens_cons {last : Nat} (inCols : col < window.length) (below : col ≤ last) :
    rangeTokens window col last = window[col] :: rangeTokens window (col + 1) last := by
  rw [rangeTokens, List.drop_eq_getElem_cons (by rw [List.length_take]; omega), List.getElem_take]
  rfl

theorem rangeTokens_later {first last : Nat} (above : col ≤ first) :
    (rangeTokens window first last).Sublist (rangeTokens window col last) := by
  obtain ⟨more, rfl⟩ := Nat.exists_eq_add_of_le above
  rw [rangeTokens, ← List.drop_drop]
  exact List.drop_sublist _ _

/-- A step along the diagonal traces one more token. -/
theorem Traced.diagonal {word : List Text} {range : Option (Nat × Nat)}
    (inRows : row < quoteTokens.length) (inCols : col < window.length)
    (same : quoteTokens[row] = window[col].cleaned)
    (traced : Traced quoteTokens window (row + 1) (col + 1) word range) :
    Traced quoteTokens window row col (quoteTokens[row] :: word)
      (some (col, (range.map Prod.snd).getD col)) := by
  have quoted {rest : List Text} (tail : rest.Sublist (quoteTokens.drop (row + 1))) :
      (quoteTokens[row] :: rest).Sublist (quoteTokens.drop row) := by
    rw [List.drop_eq_getElem_cons inRows]
    exact tail.cons_cons _
  cases traced with
  | start =>
      refine .range (Nat.le_refl _) (Nat.le_refl _) (quoted (List.nil_sublist _)) ?_
      rw [Option.map_none, Option.getD_none, rangeTokens_cons inCols (Nat.le_refl _), same]
      exact (List.nil_sublist _).cons_cons _
  | @range _ first last low ordered quote span =>
      have below : col ≤ last := Nat.le_trans (Nat.le_of_succ_le low) ordered
      refine .range (Nat.le_refl _) below (quoted quote) ?_
      rw [Option.map_some, Option.getD_some, rangeTokens_cons inCols below, same]
      exact (span.trans ((rangeTokens_later low).map _)).cons_cons _

/-- The way back traces as many tokens as the table counts. -/
theorem backtrack_traced {word : List Text} {range : Option (Nat × Nat)}
    (inRows : row ≤ quoteTokens.length) (inCols : col ≤ window.length)
    (traced : Traced quoteTokens window row col word range) :
    ∃ whole, whole.length = tableAt (alignmentTable quoteTokens window) row col + word.length ∧
      Traced quoteTokens window 0 0 whole
        (backtrack (alignmentTable quoteTokens window) quoteTokens window row col range) := by
  fun_induction backtrack (alignmentTable quoteTokens window) quoteTokens window row col range
    generalizing word with
  | case1 col range =>
      refine ⟨word, by rw [tableAt_row_zero inCols, Nat.zero_add], ?_⟩
      cases traced with
      | start => exact .start
      | range low ordered quote span => exact .range (Nat.zero_le _) ordered quote span
  | case2 row range =>
      refine ⟨word, by rw [tableAt_col_zero inRows, Nat.zero_add], ?_⟩
      cases traced with
      | start => exact .start
      | range low ordered quote span =>
          exact .range low ordered (quote.trans (List.drop_sublist _ _)) span
  | case3 row col range same ih =>
      rw [List.getElem?_eq_getElem inRows, List.getElem?_eq_getElem inCols] at same
      obtain ⟨whole, length, later⟩ := ih (Nat.le_of_succ_le inRows) (Nat.le_of_succ_le inCols)
        (traced.diagonal inRows inCols (Option.some.inj same.1))
      refine ⟨whole, ?_, later⟩
      rw [length, same.2, List.length_cons]
      omega
  | case4 row col range stop upper ih =>
      obtain ⟨whole, length, later⟩ := ih (Nat.le_of_succ_le inRows) inCols traced.up
      refine ⟨whole, ?_, later⟩
      have differ : quoteTokens[row] ≠ window[col].cleaned := by
        intro same
        refine stop ⟨?_, tableAt_same inRows inCols same⟩
        rw [List.getElem?_eq_getElem inRows, List.getElem?_eq_getElem inCols, same]
        rfl
      rw [length, tableAt_differ inRows inCols differ, Nat.max_eq_left upper]
  | case5 row col range stop lower ih =>
      obtain ⟨whole, length, later⟩ := ih inRows (Nat.le_of_succ_le inCols) traced.left
      refine ⟨whole, ?_, later⟩
      have differ : quoteTokens[row] ≠ window[col].cleaned := by
        intro same
        refine stop ⟨?_, tableAt_same inRows inCols same⟩
        rw [List.getElem?_eq_getElem inRows, List.getElem?_eq_getElem inCols, same]
        rfl
      rw [length, tableAt_differ inRows inCols differ,
        Nat.max_eq_right (Nat.le_of_lt (Nat.lt_of_not_le lower))]

theorem lcsMatch_pos {found : Nat × Nat × Nat}
    (matches_ : lcsMatch quoteTokens window = some found) : 0 < found.1 := by
  unfold lcsMatch at matches_
  dsimp only at matches_
  split at matches_
  · cases matches_
  · next counted =>
      obtain ⟨range, -, rfl⟩ := Option.map_eq_some_iff.mp matches_
      exact Nat.pos_of_ne_zero counted

/-- A window with a common subsequence is matched, with one of the longest in the range found. -/
theorem lcsMatch_of_longest {matched : Nat}
    (longest : Lcs.Longest quoteTokens (words window) matched) (positive : 0 < matched) :
    ∃ (word : List Text) (first last : Nat),
      lcsMatch quoteTokens window = some (matched, first, last) ∧ word.length = matched ∧
        word.Sublist quoteTokens ∧ word.Sublist (words (rangeTokens window first last)) := by
  have counted := @tableAt_longest quoteTokens window _ _ (Nat.le_refl _) (Nat.le_refl _)
  rw [List.take_length, List.take_of_length_le (by rw [words, List.length_map])] at counted
  have same := counted.unique longest
  obtain ⟨word, length, traced⟩ := @backtrack_traced quoteTokens window _ _ [] none (Nat.le_refl _)
    (Nat.le_refl _) .start
  rw [same, List.length_nil, Nat.add_zero] at length
  rw [alignmentTable] at same traced
  unfold lcsMatch
  dsimp only
  rw [same, if_neg (Nat.pos_iff_ne_zero.mp positive)]
  revert traced
  generalize backtrack _ quoteTokens window quoteTokens.length window.length none = range
  intro traced
  cases traced with
  | start => exact absurd length (Nat.ne_of_lt positive)
  | range low ordered quote span => exact ⟨word, _, _, rfl, length, quote, span⟩

end Traced

section Windows

variable {quoteTokens : List Text} {sourceTokens : List SourceToken}

/-- The window around a token of the source, and where it begins. -/
def windowAround (quoteTokens : List Text) (sourceTokens : List SourceToken) (index : Nat) :
    Nat × List SourceToken :=
  let start := index - (quoteTokens.length + 2)
  (start, (sourceTokens.drop start).take
    (min (index + (quoteTokens.length + 2) + 1) sourceTokens.length - start))

/-- The windows around the anchors, in the order of the source. -/
def anchorWindows (quoteTokens : List Text) (sourceTokens : List SourceToken) :
    List (Nat × List SourceToken) :=
  (sourceTokens.zipIdx.filter fun entry => entry.1.cleaned ∈ anchorTokens quoteTokens).map
    fun entry => windowAround quoteTokens sourceTokens entry.2

/-- How a window matches: the count, and the range in the source. -/
def alignment (quoteTokens : List Text) (window : Nat × List SourceToken) :
    Option (Nat × Nat × Nat) :=
  (lcsMatch quoteTokens window.2).map fun found =>
    (found.1, window.1 + found.2.1, window.1 + found.2.2)

/-- The matches of the first fifty windows. -/
def alignments (quoteTokens : List Text) (sourceTokens : List SourceToken) :
    List (Nat × Nat × Nat) :=
  ((anchorWindows quoteTokens sourceTokens).take maxFuzzyWindows).filterMap (alignment quoteTokens)

/-- The better of the best match so far and another one, which has to match more. -/
abbrev better (best : Option (Nat × Nat × Nat)) (found : Nat × Nat × Nat) :
    Option (Nat × Nat × Nat) :=
  List.argAux (fun b c => c.1 < b.1) best found

theorem examineWindow_anchor {search : WindowSearch} {token : SourceToken} {index : Nat}
    (anchor : token.cleaned ∈ anchorTokens quoteTokens)
    (capped : search.windows < maxFuzzyWindows) :
    examineWindow quoteTokens sourceTokens (anchorTokens quoteTokens) search index token =
      ⟨(alignment quoteTokens (windowAround quoteTokens sourceTokens index)).toList.foldl better
        search.best, search.windows + 1⟩ := by
  rw [examineWindow, if_neg (not_not.mpr anchor), if_neg (Nat.not_lt.mpr capped)]
  dsimp only [alignment, windowAround]
  cases lcsMatch quoteTokens _ with
  | none => rfl
  | some found =>
      obtain ⟨matched, first, last⟩ := found
      obtain ⟨best, windows⟩ := search
      cases best with
      | none => rfl
      | some best =>
          dsimp only [Option.map_some, Option.toList, List.foldl_cons, List.foldl_nil, better,
            List.argAux, Option.all_some]
          by_cases more : best.1 < matched
          · rw [if_pos more, if_pos (decide_eq_true more)]
          · rw [if_neg more, if_neg (by simpa using more)]

/-- The loop keeps the better of the best match before it and the windows still to examine. -/
theorem examineWindow_foldl (entries : List (SourceToken × Nat)) (search : WindowSearch) :
    (entries.foldl (fun search entry => examineWindow quoteTokens sourceTokens
      (anchorTokens quoteTokens) search entry.2 entry.1) search).best =
    ((((entries.filter fun entry => entry.1.cleaned ∈ anchorTokens quoteTokens).map
      fun entry => windowAround quoteTokens sourceTokens entry.2).take
        (maxFuzzyWindows - search.windows)).filterMap (alignment quoteTokens)).foldl better
          search.best := by
  induction entries generalizing search with
  | nil => rw [List.filter_nil, List.map_nil, List.take_nil, List.filterMap_nil]; rfl
  | cons entry entries ih =>
      rw [List.foldl_cons, ih, List.filter_cons]
      by_cases anchor : entry.1.cleaned ∈ anchorTokens quoteTokens
      · rw [if_pos (decide_eq_true anchor), List.map_cons]
        by_cases capped : search.windows < maxFuzzyWindows
        · have left : maxFuzzyWindows - search.windows =
              maxFuzzyWindows - (search.windows + 1) + 1 := by omega
          rw [examineWindow_anchor anchor capped, left, List.take_succ_cons, List.filterMap_cons]
          cases alignment quoteTokens (windowAround quoteTokens sourceTokens entry.2) with
          | none => rfl
          | some found => rfl
        · have none_left : maxFuzzyWindows - search.windows = 0 := by omega
          have still : maxFuzzyWindows - (search.windows + 1) = 0 := by omega
          rw [examineWindow, if_neg (not_not.mpr anchor), if_pos (by omega), none_left, still]
          rfl
      · rw [if_neg (by simpa using anchor), examineWindow, if_pos anchor]

/-- The best window is the first one of those that match most. -/
theorem bestWindow_eq_argmax :
    bestWindow quoteTokens sourceTokens =
      (alignments quoteTokens sourceTokens).argmax Prod.fst := by
  unfold bestWindow
  dsimp only
  split
  · next nothing =>
      have none_ : alignments quoteTokens sourceTokens = [] := by
        rw [alignments, anchorWindows, nothing]
        simp
      rw [none_, List.argmax_nil]
  · exact examineWindow_foldl _ _

/-- A window that shares a subsequence with the quote has a match as long as the longest. -/
theorem mem_alignments {window : Nat × List SourceToken} {word : List Text}
    (examined : window ∈ (anchorWindows quoteTokens sourceTokens).take maxFuzzyWindows)
    (inhabited : word ≠ []) (quote : word.Sublist quoteTokens)
    (within : word.Sublist (words window.2)) :
    ∃ found ∈ alignments quoteTokens sourceTokens, word.length ≤ found.1 := by
  obtain ⟨matched, longest⟩ : ∃ matched, Lcs.Longest quoteTokens (words window.2) matched := by
    have longest := @tableAt_longest quoteTokens window.2 _ _ (Nat.le_refl _) (Nat.le_refl _)
    rw [List.take_length, List.take_of_length_le (by rw [words, List.length_map])] at longest
    exact ⟨_, longest⟩
  have more := longest.bound word quote within
  have positive : 0 < matched := Nat.lt_of_lt_of_le (List.length_pos_of_ne_nil inhabited) more
  obtain ⟨whole, first, last, found, -⟩ := lcsMatch_of_longest longest positive
  refine ⟨(matched, window.1 + first, window.1 + last), ?_, more⟩
  exact List.mem_filterMap.mpr ⟨window, examined, by rw [alignment, found]; rfl⟩

/-- A range of a window is a range of the source. -/
theorem rangeTokens_window {index first last : Nat}
    (inside : last < (windowAround quoteTokens sourceTokens index).2.length) :
    rangeTokens (windowAround quoteTokens sourceTokens index).2 first last =
      rangeTokens sourceTokens ((windowAround quoteTokens sourceTokens index).1 + first)
        ((windowAround quoteTokens sourceTokens index).1 + last) := by
  revert inside
  dsimp only [windowAround, rangeTokens]
  generalize index - (quoteTokens.length + 2) = start
  intro inside
  rw [List.length_take] at inside
  rw [List.take_take, Nat.min_eq_left (by omega), List.take_drop, List.drop_drop, Nat.add_assoc]

/-- A match is a common subsequence of an examined window, in the range of the match. -/
theorem alignments_spec {matched first last : Nat}
    (member : (matched, first, last) ∈ alignments quoteTokens sourceTokens) :
    ∃ window ∈ (anchorWindows quoteTokens sourceTokens).take maxFuzzyWindows,
      ∃ word : List Text, word.length = matched ∧ word.Sublist quoteTokens ∧
        word.Sublist (words window.2) ∧
        word.Sublist (words (rangeTokens sourceTokens first last)) := by
  obtain ⟨window, examined, aligned⟩ := List.mem_filterMap.mp member
  obtain ⟨⟨_, f, l⟩, found, same⟩ := Option.map_eq_some_iff.mp aligned
  cases same
  obtain ⟨longest, -, -, inside, -⟩ := lcsMatch_eq_some found
  obtain ⟨word, f', l', again, length, quote, span⟩ :=
    lcsMatch_of_longest longest (lcsMatch_pos found)
  rw [found] at again
  cases again
  obtain ⟨entry, -, rfl⟩ := List.mem_map.mp (List.mem_of_mem_take examined)
  refine ⟨_, examined, word, length, quote, span.trans (List.Sublist.map _ ?_), ?_⟩
  · exact (List.drop_sublist _ _).trans (List.take_sublist _ _)
  · rwa [rangeTokens_window inside] at span

end Windows

section Located

variable {unicode : Unicode} {quote source : Text}

/-- The quote is long enough, and the first of the longest matches counts 85 percent of it and
has all its numbers in its range. -/
structure Unmasked (quoteTokens : List Text) (sourceTokens : List SourceToken) : Prop where
  long : minFuzzyTokens ≤ quoteTokens.length
  best : ∃ matched first last,
    (alignments quoteTokens sourceTokens).argmax Prod.fst = some (matched, first, last) ∧
      quoteTokens.length * 17 ≤ matched * 20 ∧
      ∀ number ∈ quoteTokens, hasDigit number = true →
        number ∈ words (rangeTokens sourceTokens first last)

theorem loadBearing_all {quoteTokens : List Text} {spanTokens : List SourceToken} :
    ((quoteTokens.filter hasDigit).all fun needed =>
      spanTokens.any fun token => token.cleaned = needed) = true ↔
    ∀ number ∈ quoteTokens, hasDigit number = true → number ∈ words spanTokens := by
  rw [List.all_eq_true]
  constructor
  · intro each number member digit
    obtain ⟨token, inside, same⟩ := List.any_eq_true.mp
      (each number (List.mem_filter.mpr ⟨member, digit⟩))
    exact List.mem_map.mpr ⟨token, inside, of_decide_eq_true same⟩
  · intro each number member
    obtain ⟨inside, digit⟩ := List.mem_filter.mp member
    obtain ⟨token, there, same⟩ := List.mem_map.mp (each number inside digit)
    exact List.any_eq_true.mpr ⟨token, there, decide_eq_true same⟩

theorem locateQuoteFuzzy_isSome : (locateQuoteFuzzy unicode quote source).isSome = true ↔
    Unmasked (tokenizeQuote unicode quote) (tokensOf unicode source) := by
  unfold locateQuoteFuzzy
  dsimp only
  split
  · next short => exact ⟨nofun, fun unmasked => absurd unmasked.long (Nat.not_le.mpr short)⟩
  · next long =>
      rw [bestWindow_eq_argmax]
      cases found : (alignments (tokenizeQuote unicode quote)
          (tokenizeSource unicode (normalizeWithMap unicode source).text)).argmax Prod.fst with
      | none =>
          refine ⟨nofun, ?_⟩
          rintro ⟨-, matched, first, last, best, -⟩
          rw [found] at best
          cases best
      | some best =>
          obtain ⟨matched, first, last⟩ := best
          obtain ⟨a, b, byte, span, here, there, -, starts, -, -, -, cut⟩ :=
            span_cut (bestWindow_eq_argmax.trans found)
          rw [endByte] at cut
          simp only [Option.bind_eq_bind, Option.bind_some]
          split
          · next few =>
              refine ⟨nofun, ?_⟩
              rintro ⟨-, _, _, _, best, enough, -⟩
              rw [found] at best
              cases best
              exact absurd few (Nat.not_lt.mpr enough)
          · next enough =>
              rw [here, there]
              simp only [Option.bind_some, starts, cut]
              split
              · next missing =>
                  refine ⟨nofun, ?_⟩
                  rintro ⟨-, _, _, _, best, -, numbers⟩
                  rw [found] at best
                  cases best
                  rw [Bool.not_eq_true'] at missing
                  exact absurd (loadBearing_all.mpr numbers) (Bool.eq_false_iff.mp missing)
              · next bearing =>
                  rw [Bool.not_eq_true', Bool.not_eq_false] at bearing
                  exact ⟨fun _ => ⟨Nat.not_lt.mp long, matched, first, last, found,
                    Nat.not_lt.mp enough, loadBearing_all.mp bearing⟩, fun _ => rfl⟩

variable (unicode quote source) in
/-- The locator finds a quote exactly where the first of the longest matches has the numbers. So no
window is masked but by a common subsequence that is as long and leaves a number out. -/
theorem fuzzy_unmasked :
    ((locateQuoteFuzzy unicode quote source).isSome = true ↔
      Unmasked (tokenizeQuote unicode quote) (tokensOf unicode source)) ∧
    let quoteTokens := tokenizeQuote unicode quote
    let windows := anchorWindows quoteTokens (tokensOf unicode source)
    minFuzzyTokens ≤ quoteTokens.length → windows.length ≤ maxFuzzyWindows →
      ∀ window ∈ windows, ∀ word : List Text, word.Sublist quoteTokens →
        word.Sublist (words window.2) → quoteTokens.length * 17 ≤ word.length * 20 →
        (∀ other ∈ windows, ∀ rival : List Text, rival.Sublist quoteTokens →
          rival.Sublist (words other.2) → word.length ≤ rival.length →
            ∀ number ∈ quoteTokens, hasDigit number = true → number ∈ rival) →
        (locateQuoteFuzzy unicode quote source).isSome = true := by
  refine ⟨locateQuoteFuzzy_isSome, ?_⟩
  dsimp only
  intro long few window member word quoted within enough rivals
  have all := List.take_of_length_le few
  have inhabited : word ≠ [] := by
    rintro rfl
    rw [List.length_nil] at enough
    unfold minFuzzyTokens at long
    omega
  obtain ⟨found, aligned, more⟩ := mem_alignments (all.symm ▸ member) inhabited quoted within
  obtain ⟨best, first⟩ : ∃ best, (alignments (tokenizeQuote unicode quote)
      (tokensOf unicode source)).argmax Prod.fst = some best := by
    refine Option.ne_none_iff_exists'.mp fun none_ => ?_
    rw [List.argmax_eq_none.mp none_] at aligned
    cases aligned
  obtain ⟨matched, f, l⟩ := best
  have longest : found.1 ≤ matched := List.le_of_mem_argmax aligned first
  obtain ⟨other, there, rival, length, among, inside, span⟩ :=
    alignments_spec (List.argmax_mem first)
  have long_rival : word.length ≤ rival.length := by omega
  refine locateQuoteFuzzy_isSome.mpr ⟨long, matched, f, l, first, by omega, ?_⟩
  intro number stands digit
  exact span.subset (rivals other (all ▸ there) rival among inside long_rival number stands digit)

def quarryQuote : Text := "Marble quarry output doubled under colonial rule in 1985.".toList

def quarrySource : Text :=
  "Marble quarry output doubled under colonial rule in the south. ".toList ++
    "Nobody has yet been able to say how much of it was sold and to whom it went. ".toList ++
    "Quarry output doubled under colonial rule in 1985.".toList

/-- A source that holds the quote as it is has no rival without the year. -/
theorem fuzzy_unmasked_quarry :
    (locateQuoteFuzzy asciiTables quarryQuote quarryQuote).isSome = true := by
  have letters : quarryQuote = _ := String.toList_ofList
  refine (fuzzy_unmasked asciiTables quarryQuote quarryQuote).2 ?long ?few
    (0, tokensOf asciiTables quarryQuote) ?window (tokenizeQuote asciiTables quarryQuote)
    (List.Sublist.refl _) ?within ?enough ?rivals
  case rivals =>
    intro other _ rival among _ long number stands _
    rwa [among.eq_of_length_le long]
  all_goals
    rw [letters]
    decide +kernel

/-- The first window leaves the year out and masks the one behind it, which has it. The year is no
anchor, for three words of the quote are longer. -/
theorem good_window_masked :
    let quoteTokens := tokenizeQuote asciiTables quarryQuote
    let windows := anchorWindows quoteTokens (tokensOf asciiTables quarrySource)
    windows.length ≤ maxFuzzyWindows ∧
    (∃ window ∈ windows, ∃ first last,
      (words (rangeTokens window.2 first last)).Sublist quoteTokens ∧
        quoteTokens.length * 17 ≤ (words (rangeTokens window.2 first last)).length * 20 ∧
        ∀ number ∈ quoteTokens, hasDigit number = true →
          number ∈ words (rangeTokens window.2 first last)) ∧
    locateQuoteFuzzy asciiTables quarryQuote quarrySource = none ∧
    ∃ number ∈ quoteTokens, hasDigit number = true ∧ number ∉ anchorTokens quoteTokens := by
  have quote : quarryQuote = _ := String.toList_ofList
  unfold quarrySource
  rw [quote, String.toList_ofList, String.toList_ofList, String.toList_ofList]
  refine ⟨by decide +kernel, ?_, by decide +kernel, by decide +kernel⟩
  have later : ∃ window ∈ anchorWindows (tokenizeQuote asciiTables quarryQuote)
      (tokensOf asciiTables quarrySource),
      (words (rangeTokens window.2 9 16)).Sublist (tokenizeQuote asciiTables quarryQuote) ∧
        (tokenizeQuote asciiTables quarryQuote).length * 17 ≤
          (words (rangeTokens window.2 9 16)).length * 20 ∧
        ∀ number ∈ tokenizeQuote asciiTables quarryQuote, hasDigit number = true →
          number ∈ words (rangeTokens window.2 9 16) := by
    decide +kernel
  obtain ⟨window, examined, quoted, enough, numbers⟩ := later
  exact ⟨window, examined, 9, 16, quoted, enough, numbers⟩

end Located

end SP42.Citation
