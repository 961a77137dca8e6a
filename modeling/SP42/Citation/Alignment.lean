import SP42.Citation.Fuzzy
import SP42.Lib.Lcs

/-!
What the alignment of a quote with a window finds: the table holds the lengths of the longest
common subsequences, and the way back through it stays in the window.
-/
namespace SP42.Citation

/-- The cleaned words of the tokens. -/
def words (tokens : List SourceToken) : List Text := tokens.map SourceToken.cleaned

theorem nextRow_values {xs seen : List Text} {word : Text} {diag left : Nat} {above : List Nat}
    {window : List SourceToken} (up : Lcs.Values xs seen (words window) above)
    (corner : Lcs.Longest xs seen diag) (before : Lcs.Longest (xs ++ [word]) seen left) :
    Lcs.Values (xs ++ [word]) seen (words window) (nextRow word diag left above window) := by
  induction window generalizing seen diag left above with
  | nil =>
      cases up
      exact .nil seen
  | cons token window ih =>
      cases up with
      | cons here later =>
          rw [nextRow]
          refine .cons ?_ (ih later here ?_)
          all_goals
            split
            · next same => exact same ▸ corner.same word
            · next different => exact .differ different here before

theorem nextRow_row {xs : List Text} {window : List SourceToken} {row : List Nat}
    (filled : Lcs.Row xs (words window) row) (word : Text) :
    Lcs.Row (xs ++ [word]) (words window) (0 :: nextRow word 0 0 row.tail window) := by
  obtain ⟨values, rfl, rest⟩ := filled
  exact ⟨_, rfl, nextRow_values rest (.nil_right xs) (.nil_right _)⟩

theorem lcsTable_row {xs quoteTokens : List Text} {window : List SourceToken} {row : List Nat}
    (filled : Lcs.Row xs (words window) row) {i : Nat} (inside : i ≤ quoteTokens.length) :
    ∃ values, (lcsTable window row quoteTokens)[i]? = some values ∧
      Lcs.Row (xs ++ quoteTokens.take i) (words window) values := by
  induction quoteTokens generalizing xs row i with
  | nil =>
      have first : i = 0 := Nat.le_zero.mp inside
      rw [first, lcsTable, List.take_zero, List.append_nil]
      exact ⟨row, rfl, filled⟩
  | cons word rest ih =>
      cases i with
      | zero =>
          rw [List.take_zero, List.append_nil]
          exact ⟨row, rfl, filled⟩
      | succ i =>
          obtain ⟨values, found, later⟩ := ih (nextRow_row filled word) (Nat.le_of_succ_le_succ inside)
          refine ⟨values, found, ?_⟩
          rwa [List.append_assoc, List.singleton_append] at later

/-- The table of a quote and a window. -/
def alignmentTable (quoteTokens : List Text) (window : List SourceToken) : List (List Nat) :=
  lcsTable window (List.replicate (window.length + 1) 0) quoteTokens

section Table

variable {quoteTokens : List Text} {window : List SourceToken} {row col : Nat}

/-- Every cell of the table is there. -/
theorem alignmentTable_cell (inRows : row ≤ quoteTokens.length) (inCols : col ≤ window.length) :
    ∃ values value, (alignmentTable quoteTokens window)[row]? = some values ∧
      values[col]? = some value ∧
      Lcs.Longest (quoteTokens.take row) ((words window).take col) value := by
  have length : (words window).length = window.length := List.length_map _
  have first : Lcs.Row ([] : List Text) (words window) (List.replicate (window.length + 1) 0) :=
    length ▸ Lcs.Row.zeros (words window)
  obtain ⟨values, found, filled⟩ := lcsTable_row first inRows
  obtain ⟨value, here, longest⟩ := filled.get (length ▸ inCols)
  exact ⟨values, value, found, here, longest⟩

theorem tableAt_longest (inRows : row ≤ quoteTokens.length) (inCols : col ≤ window.length) :
    Lcs.Longest (quoteTokens.take row) ((words window).take col)
      (tableAt (alignmentTable quoteTokens window) row col) := by
  obtain ⟨values, value, found, here, longest⟩ := alignmentTable_cell inRows inCols
  rw [tableAt, found, Option.bind_some, here]
  exact longest

/-- The tokens matched so far, between the first and the last of them. -/
def InRange (quoteTokens : List Text) (window : List SourceToken) (low : Nat) (range : Nat × Nat) :
    Prop :=
  low ≤ range.1 ∧ range.1 ≤ range.2 ∧ range.2 < window.length ∧
    ∃ token, window[range.1]? = some token ∧ token.cleaned ∈ quoteTokens

/-- The way back never leaves the part of the window before it. -/
theorem backtrack_range {table : List (List Nat)} {range : Option (Nat × Nat)} {found : Nat × Nat}
    (back : backtrack table quoteTokens window row col range = some found)
    (inside : col ≤ window.length)
    (bounds : ∀ earlier, range = some earlier → InRange quoteTokens window col earlier) :
    InRange quoteTokens window 0 found := by
  fun_induction backtrack table quoteTokens window row col range with
  | case1 col range =>
      obtain ⟨-, rest⟩ := bounds found back
      exact ⟨Nat.zero_le _, rest⟩
  | case2 row range => exact bounds found back
  | case3 row col range same ih =>
      refine ih back (Nat.le_of_succ_le inside) ?_
      have here : window[col]? = some window[col] := List.getElem?_eq_getElem inside
      have word : window[col].cleaned ∈ quoteTokens := by
        have stands := same.1
        rw [here] at stands
        exact List.mem_of_getElem? stands
      rintro earlier ⟨⟩
      cases range with
      | none => exact ⟨Nat.le_refl _, Nat.le_refl _, inside, _, here, word⟩
      | some range =>
          obtain ⟨above, ordered, within, -⟩ := bounds range rfl
          exact ⟨Nat.le_refl _, Nat.le_trans (Nat.le_of_succ_le above) ordered, within, _, here, word⟩
  | case4 row col range same up ih => exact ih back inside bounds
  | case5 row col range same up ih =>
      refine ih back (Nat.le_of_succ_le inside) fun earlier same => ?_
      obtain ⟨above, rest⟩ := bounds earlier same
      exact ⟨Nat.le_of_succ_le above, rest⟩

/-- What the match of a window says: the length of a longest common subsequence, and a range of
tokens of the window. -/
theorem lcsMatch_eq_some {matched : Nat} {range : Nat × Nat}
    (found : lcsMatch quoteTokens window = some (matched, range)) :
    Lcs.Longest quoteTokens (words window) matched ∧ InRange quoteTokens window 0 range := by
  unfold lcsMatch at found
  dsimp only at found
  split at found
  · cases found
  · obtain ⟨range, back, same⟩ := Option.map_eq_some_iff.mp found
    cases same
    have longest := @tableAt_longest quoteTokens window _ _ (Nat.le_refl _) (Nat.le_refl _)
    rw [List.take_length, List.take_of_length_le (by rw [words, List.length_map])] at longest
    exact ⟨longest, backtrack_range back (Nat.le_refl _) nofun⟩

end Table

section Windows

/-- An examined window: the tokens around one of the first fifty anchors of the source. -/
structure Examined (quoteTokens : List Text) (sourceTokens : List SourceToken) (start : Nat)
    (window : List SourceToken) : Prop where
  around : ∃ before token after, sourceTokens = before ++ token :: after ∧
    token.cleaned ∈ anchorTokens quoteTokens ∧
    before.countP (fun token => token.cleaned ∈ anchorTokens quoteTokens) < maxFuzzyWindows ∧
    start = before.length - (quoteTokens.length + 2) ∧
    window = (sourceTokens.drop start).take
      (min (before.length + (quoteTokens.length + 2) + 1) sourceTokens.length - start)

/-- The best window so far is the match of an examined one. -/
def BestSoFar (quoteTokens : List Text) (sourceTokens : List SourceToken)
    (best : Option (Nat × Nat × Nat)) : Prop :=
  ∀ matched first last, best = some (matched, first, last) → ∃ start window f l,
    Examined quoteTokens sourceTokens start window ∧
      lcsMatch quoteTokens window = some (matched, f, l) ∧ first = start + f ∧ last = start + l

variable {quoteTokens : List Text} {sourceTokens : List SourceToken}

theorem examineWindow_step {search : WindowSearch} {before after : List SourceToken}
    {token : SourceToken} (whole : sourceTokens = before ++ token :: after)
    (counted : search.windows =
      before.countP fun token => token.cleaned ∈ anchorTokens quoteTokens)
    (best : BestSoFar quoteTokens sourceTokens search.best) :
    let next := examineWindow quoteTokens sourceTokens (anchorTokens quoteTokens) search
      before.length token
    next.windows =
      (before ++ [token]).countP (fun token => token.cleaned ∈ anchorTokens quoteTokens) ∧
      BestSoFar quoteTokens sourceTokens next.best := by
  dsimp only
  rw [List.countP_append, List.countP_singleton, ← counted, examineWindow]
  by_cases anchor : token.cleaned ∈ anchorTokens quoteTokens
  · rw [if_neg (not_not.mpr anchor), if_pos (decide_eq_true anchor)]
    split
    · exact ⟨rfl, best⟩
    · next capped =>
        dsimp only
        split
        · exact ⟨rfl, best⟩
        · next matched first last found =>
            split
            · refine ⟨rfl, ?_⟩
              rintro _ _ _ ⟨⟩
              refine ⟨_, _, first, last, ⟨before, token, after, whole, anchor, ?_, rfl, rfl⟩, found,
                rfl, rfl⟩
              omega
            · exact ⟨rfl, best⟩
  · rw [if_pos anchor, if_neg (by simpa using anchor)]
    exact ⟨rfl, best⟩

theorem examineWindows {search : WindowSearch} {before rest : List SourceToken}
    (whole : sourceTokens = before ++ rest)
    (counted : search.windows =
      before.countP fun token => token.cleaned ∈ anchorTokens quoteTokens)
    (best : BestSoFar quoteTokens sourceTokens search.best) :
    BestSoFar quoteTokens sourceTokens ((rest.zipIdx before.length).foldl
      (fun search entry => examineWindow quoteTokens sourceTokens (anchorTokens quoteTokens) search
        entry.2 entry.1) search).best := by
  induction rest generalizing before search with
  | nil => exact best
  | cons token rest ih =>
      obtain ⟨windows, next⟩ := examineWindow_step whole counted best
      rw [List.zipIdx_cons, List.foldl_cons]
      have longer : before.length + 1 = (before ++ [token]).length := by simp
      rw [longer]
      exact ih (by simp [whole]) windows next

/-- The best window is an examined one. -/
theorem bestWindow_spec {matched first last : Nat}
    (found : bestWindow quoteTokens sourceTokens = some (matched, first, last)) :
    ∃ start window f l, Examined quoteTokens sourceTokens start window ∧
      lcsMatch quoteTokens window = some (matched, f, l) ∧ first = start + f ∧ last = start + l := by
  unfold bestWindow at found
  dsimp only at found
  split at found
  · cases found
  · have nothing : BestSoFar quoteTokens sourceTokens (⟨none, 0⟩ : WindowSearch).best := nofun
    exact @examineWindows quoteTokens sourceTokens ⟨none, 0⟩ [] sourceTokens rfl rfl nothing _ _ _
      found

theorem Examined.token {start : Nat} {window : List SourceToken} {index : Nat}
    (examined : Examined quoteTokens sourceTokens start window) (inside : index < window.length) :
    sourceTokens[start + index]? = window[index]? ∧ start + index < sourceTokens.length := by
  obtain ⟨before, token, after, whole, anchor, capped, rfl, rfl⟩ := examined.around
  rw [List.length_take, List.length_drop] at inside
  rw [List.getElem?_take_of_lt (by omega), List.getElem?_drop]
  exact ⟨rfl, by omega⟩

end Windows

end SP42.Citation
