import SP42.Diff.Windows

/-!
Heading lines. The one slice of the diff that can be out of order is the label of a line
of equals signs only.
-/
namespace SP42.Diff

open Total

/-- A line of at least four equals signs and, around them, nothing but white space. -/
def Degenerate (line : Text) : Prop :=
  4 ≤ (Text.trim line).length ∧ ∀ c ∈ Text.trim line, c = '='

instance (line : Text) : Decidable (Degenerate line) :=
  decidable_of_iff (4 ≤ (Text.trim line).length ∧ ((Text.trim line).all fun c => c == '=') = true)
    (by simp [Degenerate])

/-- Reading the lines for a heading meets a degenerate line before any heading. -/
def Trapped (lines : List Text) : Prop :=
  ∃ before line after, lines = before ++ line :: after ∧ Degenerate line ∧
    ∀ earlier ∈ before, parseSectionHeading earlier = some none

theorem size_equals {text : Text} (h : ∀ c ∈ text, c = '=') : Bytes.size text = text.length := by
  induction text with
  | nil => rfl
  | cons c rest ih =>
      obtain ⟨rfl, rest⟩ := List.forall_mem_cons.mp h
      rw [Bytes.size_cons, ih rest, List.length_cons]
      exact Nat.add_comm 1 _

theorem length_le_size (text : Text) : text.length ≤ Bytes.size text := by
  induction text with
  | nil => exact Nat.le_refl 0
  | cons c rest ih =>
      have := c.utf8Size_pos
      rw [List.length_cons, Bytes.size_cons]
      omega

/-- Equals signs at both ends of a text that has something else leave the rest between them. -/
theorem cut_equals {text : Text} (other : ∃ c ∈ text, c ≠ '=') :
    ∃ inner, text = text.takeWhile (· == '=') ++
      (inner ++ (text.reverse.takeWhile (· == '=')).reverse) := by
  have whole := (List.takeWhile_append_dropWhile (p := (· == '=')) (l := text)).symm
  have stopped : (text.dropWhile (· == '=')) ≠ [] := by
    rw [Ne, List.dropWhile_eq_nil_iff]
    intro all
    obtain ⟨c, member, unequal⟩ := other
    exact unequal (by simpa using all c member)
  have inside : (text.reverse.takeWhile (· == '=')) =
      (text.dropWhile (· == '=')).reverse.takeWhile (· == '=') := by
    have short : ((text.dropWhile (· == '=')).reverse.takeWhile (· == '=')).length ≠
        (text.dropWhile (· == '=')).reverse.length := by
      intro equal
      have all := (List.takeWhile_prefix (· == '=')).eq_of_length equal
      rw [List.takeWhile_eq_self_iff] at all
      obtain ⟨c, rest, first⟩ := List.exists_cons_of_ne_nil stopped
      have head := List.head?_dropWhile_not (· == '=') text
      rw [first] at head all
      have unequal : c ≠ '=' := by simpa using head
      exact unequal (by simpa using all c (by simp))
    conv_lhs => rw [whole, List.reverse_append, List.takeWhile_append, if_neg short]
  refine ⟨(text.dropWhile (· == '=')).rdropWhile (· == '='), ?_⟩
  rw [inside]
  exact whole.trans (congrArg _ List.rdropWhile_append_rtakeWhile.symm)

theorem parseSectionHeading_isSome_iff (line : Text) :
    (parseSectionHeading line).isSome ↔ ¬ Degenerate line := by
  unfold parseSectionHeading Degenerate
  generalize Text.trim line = trimmed
  dsimp only
  by_cases short : Bytes.size trimmed < 4
  · rw [if_pos short]
    refine iff_of_true rfl ?_
    rintro ⟨long, -⟩
    have := length_le_size trimmed
    omega
  · rw [if_neg short]
    by_cases all : ∀ c ∈ trimmed, c = '='
    · have signs : trimmed.takeWhile (· == '=') = trimmed :=
        List.takeWhile_eq_self_iff.mpr fun c member => by simp [all c member]
      have signs' : trimmed.reverse.takeWhile (· == '=') = trimmed.reverse :=
        List.takeWhile_eq_self_iff.mpr fun c member => by simp [all c (by simpa using member)]
      have length := size_equals all
      rw [signs, signs', List.length_reverse, if_neg (by omega), length]
      refine iff_of_false ?_ (not_not.mpr ⟨by omega, all⟩)
      simp [Total.sub, Bytes.slice_of_reversed (show 0 < trimmed.length by omega)]
    · have other : ∃ c ∈ trimmed, c ≠ '=' := by simpa using all
      refine iff_of_true ?_ fun degenerate => all degenerate.2
      split
      · rfl
      · obtain ⟨inner, whole⟩ := cut_equals other
        have front : Bytes.size (trimmed.takeWhile (· == '=')) =
            (trimmed.takeWhile (· == '=')).length :=
          size_equals fun c member => by simpa using List.mem_takeWhile_imp member
        have back : Bytes.size (trimmed.reverse.takeWhile (· == '=')).reverse =
            (trimmed.reverse.takeWhile (· == '=')).length := by
          rw [size_equals fun c member => by
            simpa using List.mem_takeWhile_imp (List.mem_reverse.mp member), List.length_reverse]
        have total : Bytes.size trimmed = (trimmed.takeWhile (· == '=')).length +
            (Bytes.size inner + (trimmed.reverse.takeWhile (· == '=')).length) := by
          conv_lhs => rw [whole, Bytes.size_append, Bytes.size_append, front, back]
        obtain ⟨stop, cut, value⟩ := sub_returns
          (show (trimmed.reverse.takeWhile (· == '=')).length ≤ Bytes.size trimmed by omega)
        have sliced : Bytes.slice trimmed (trimmed.takeWhile (· == '=')).length stop = some inner :=
          Bytes.slice_eq.mpr ⟨_, _, whole, front, by omega⟩
        rw [cut, Option.bind_eq_bind, Option.bind_some, sliced]
        rfl

theorem buildSectionIndex_isSome_iff (text : Text) :
    (buildSectionIndex text).isSome ↔ ∀ line ∈ Text.lines text, ¬ Degenerate line := by
  have headings : ((Text.lines text).mapM parseSectionHeading).isSome ↔
      ∀ line ∈ Text.lines text, ¬ Degenerate line :=
    mapM_isSome_iff.trans (forall₂_congr fun line _ => parseSectionHeading_isSome_iff line)
  rw [← headings, buildSectionIndex]
  cases (Text.lines text).mapM parseSectionHeading <;> rfl

theorem headingSearch_isSome_iff (lines : List Text) :
    (lines.anyM fun line => (parseSectionHeading line).map Option.isSome).isSome ↔
      ¬ Trapped lines := by
  rw [anyM_isSome_iff]
  refine not_congr (exists₃_congr fun before line after => and_congr_right fun _ => ?_)
  refine and_congr ?_ (forall₂_congr fun earlier _ => ?_)
  · rw [Option.map_eq_none_iff, ← Option.not_isSome_iff_eq_none, parseSectionHeading_isSome_iff,
      not_not]
  · rw [Option.map_eq_some_iff]
    constructor
    · rintro ⟨found, value, unlabelled⟩
      rw [value, Option.isSome_eq_false_iff.mp unlabelled |> Option.isNone_iff_eq_none.mp]
    · intro value
      exact ⟨none, value, rfl⟩

end SP42.Diff

/-!
When a line diff returns: the highlights, the windows, the labels of links and the pairing
of moves always do, so the heading lines decide.
-/
namespace SP42.Diff

open Total

/-- Between the brackets of a link there is a slice. -/
theorem bracketed {text : Text} (opens : "[[".toList <+: text) (closes : "]]".toList <:+ text) :
    ∃ inner, text = "[[".toList ++ (inner ++ "]]".toList) := by
  obtain ⟨after, rfl⟩ := opens
  obtain ⟨before, whole⟩ := closes
  rw [show "[[".toList = ['[', '['] from rfl, show "]]".toList = [']', ']'] from rfl] at *
  cases before with
  | nil => cases whole
  | cons first before =>
      cases before with
      | nil => cases whole
      | cons second inner =>
          obtain ⟨rfl, rfl, rfl⟩ : first = '[' ∧ second = '[' ∧ inner ++ [']', ']'] = after := by
            simpa using whole
          exact ⟨inner, rfl⟩

theorem isInterwikiLink_isSome (candidate : Text) : (isInterwikiLink candidate).isSome := by
  unfold isInterwikiLink
  dsimp only
  split
  · rfl
  · rename_i link
    obtain ⟨opens, closes⟩ := not_not.mp link
    obtain ⟨inner, whole⟩ := bracketed opens closes
    have brackets : Bytes.size "[[".toList = 2 ∧ Bytes.size "]]".toList = 2 := by decide
    have total : Bytes.size (Text.toAsciiLowercase (Text.trim candidate)) =
        2 + (Bytes.size inner + 2) := by
      rw [whole, Bytes.size_append, Bytes.size_append, brackets.1, brackets.2]
    obtain ⟨stop, cut, value⟩ := sub_returns
      (show 2 ≤ Bytes.size (Text.toAsciiLowercase (Text.trim candidate)) by omega)
    have sliced : Bytes.slice (Text.toAsciiLowercase (Text.trim candidate)) 2 stop = some inner :=
      Bytes.slice_eq.mpr ⟨_, _, whole, brackets.1, by omega⟩
    rw [cut, Option.bind_eq_bind, Option.bind_some, sliced, Option.bind_eq_bind, Option.bind_some]
    split
    · rfl
    · split
      · rfl
      · split <;> rfl

theorem collectHunkMarkers_isSome_iff (segments : List DiffSegment) :
    (collectHunkMarkers segments).isSome ↔ ¬ Trapped (Text.lines (combinedText segments)) := by
  rw [← headingSearch_isSome_iff, collectHunkMarkers]
  obtain ⟨interwiki, found⟩ := Option.isSome_iff_exists.mp (anyM_isSome
    fun candidate (_ : candidate ∈ ((Text.split (Text.toAsciiLowercase (combinedText segments))
      "[[".toList).drop 1).filterMap fun part => (Text.split part "]]".toList).head?) =>
        isInterwikiLink_isSome ("[[".toList ++ candidate ++ "]]".toList))
  have markup : containsInterwikiMarkup (Text.toAsciiLowercase (combinedText segments)) =
      some interwiki := found
  dsimp only
  rw [markup]
  cases (Text.lines (combinedText segments)).anyM fun line =>
    (parseSectionHeading line).map Option.isSome <;> rfl

section Moves

variable {isAlphanumeric : Char → Bool}

theorem isProbableMoveMatch_isSome (left right : Text) :
    (isProbableMoveMatch isAlphanumeric left right).isSome := by
  unfold isProbableMoveMatch
  dsimp only
  split
  · rfl
  · have shared : ((normalizedWordBag isAlphanumeric left).filter fun word =>
        word ∈ normalizedWordBag isAlphanumeric right).length ≤
          (normalizedWordBag isAlphanumeric left).length +
            (normalizedWordBag isAlphanumeric right).length :=
      (List.length_filter_le _ _).trans (Nat.le_add_right _ _)
    obtain ⟨total, value, -⟩ := sub_returns shared
    rw [value, Option.bind_eq_bind, Option.bind_some]
    split <;> rfl

theorem annotateInPlace_isSome (state : List DiffHunk × Nat) (hunk : DiffHunk) :
    Returns (annotateInPlace isAlphanumeric state hunk) fun _ => True := by
  refine (returns_of_isSome ?_).mono fun _ _ => trivial
  unfold annotateInPlace
  split
  · rfl
  · split
    · split
      · rfl
      · rename_i removed inserted _ _ _
        obtain ⟨answer, value⟩ := Option.isSome_iff_exists.mp
          (@isProbableMoveMatch_isSome isAlphanumeric removed inserted)
        rw [value]
        cases answer <;> rfl
    · rfl

/-- Both lists of the second loop keep their length. -/
def Moving.Sized (n : Nat) (state : Moving) : Prop :=
  state.hunks.length = n ∧ state.consumed.length = n

theorem moveTarget_returns {n : Nat} {state : Moving} (sized : state.Sized n) (source : Nat)
    (signature : Text) {targets : List Nat} (inside : ∀ target ∈ targets, target < n) :
    Returns (moveTarget isAlphanumeric state source signature targets) fun found =>
      ∀ target, found = some target → target < n := by
  induction targets with
  | nil => exact .pure nofun
  | cons target targets ih =>
      obtain ⟨here, there⟩ := List.forall_mem_cons.mp inside
      have taken : target < state.consumed.length := sized.2 ▸ here
      have hunk : target < state.hunks.length := sized.1 ▸ here
      rw [moveTarget, List.getElem?_eq_getElem taken, List.getElem?_eq_getElem hunk]
      simp only [Option.bind_eq_bind, Option.bind_some]
      split
      · exact ih there
      · split
        · exact ih there
        · rename_i targetSignature _
          obtain ⟨answer, value⟩ := Option.isSome_iff_exists.mp
            (@isProbableMoveMatch_isSome isAlphanumeric signature targetSignature)
          rw [value, Option.bind_some]
          cases answer with
          | true => exact .pure fun _ same => Option.some.inj same ▸ here
          | false => exact ih there

theorem pairMove_returns {n : Nat} {state : Moving} (sized : state.Sized n) {source : Nat}
    (inside : source < n) :
    Returns (pairMove isAlphanumeric state source) (Moving.Sized n) := by
  have taken : source < state.consumed.length := sized.2 ▸ inside
  have hunk : source < state.hunks.length := sized.1 ▸ inside
  rw [pairMove, List.getElem?_eq_getElem taken, List.getElem?_eq_getElem hunk]
  simp only [Option.bind_eq_bind, Option.bind_some]
  split
  · exact .pure sized
  · split
    · exact .pure sized
    · refine (moveTarget_returns sized source _ fun target member => ?_).bind fun found within => ?_
      · exact sized.1 ▸ List.mem_range.mp member
      · cases found with
        | none => exact .pure sized
        | some target =>
            have targetHunk : target < state.hunks.length := sized.1 ▸ within target rfl
            dsimp only
            rw [List.getElem?_eq_getElem targetHunk]
            refine .pure ⟨?_, ?_⟩
            · rw [List.length_set, List.length_set, sized.1]
            · rw [List.length_set, List.length_set, sized.2]

theorem annotateMoves_isSome (hunks : List DiffHunk) :
    (annotateMoves isAlphanumeric hunks).isSome := by
  refine Returns.isSome (P := fun _ => True) ?_
  unfold annotateMoves
  refine (foldlM_returns (fun state _ hunk _ => annotateInPlace_isSome state hunk)
    trivial).bind fun state _ => ?_
  obtain ⟨hunks, nextGroup⟩ := state
  dsimp only
  refine (foldlM_returns (I := Moving.Sized hunks.length)
    (fun state sized source member => pairMove_returns sized (List.mem_range.mp member))
    ⟨rfl, List.length_replicate⟩).bind fun _ _ => .pure trivial

end Moves

def changedText (kind : DiffSegmentKind) (changes : List Change) : Text :=
  (changes.filter fun change => change.tag = kind).flatMap Change.text

/-- The changes of a window: what was inserted, a line break, and what was deleted. -/
def windowText (changes : List Change) (start stop : Nat) : Text :=
  let window := (changes.drop start).take (stop - start)
  changedText .insert window ++ '\n' :: changedText .delete window

theorem collectedText_eq (kind : DiffSegmentKind) (segments : List DiffSegment) :
    collectedText kind segments = changedText kind (segments.map DiffSegment.change) := by
  unfold collectedText changedText
  rw [List.filter_map, List.flatMap_map]
  rfl

theorem combinedText_window (segments : List DiffSegment) (start stop : Nat) :
    combinedText ((segments.drop start).take (stop - start)) =
      windowText (segments.map DiffSegment.change) start stop := by
  rw [combinedText, collectedText_eq, collectedText_eq, List.map_take, List.map_drop]
  rfl

theorem buildHunk_isSome_iff {segments : List DiffSegment} {start stop : Nat}
    (ordered : start ≤ stop) (inside : stop ≤ segments.length)
    (beforeSections afterSections : List (Nat × Text)) :
    (buildHunk segments beforeSections afterSections (start, stop)).isSome ↔
      ¬ Trapped (Text.lines (windowText (segments.map DiffSegment.change) start stop)) := by
  obtain ⟨slice, cut, rfl⟩ := slice_returns ordered inside
  rw [← combinedText_window, ← collectHunkMarkers_isSome_iff, buildHunk]
  dsimp only
  rw [cut, Option.bind_eq_bind, Option.bind_some]
  cases collectHunkMarkers ((segments.drop start).take (stop - start)) <;> rfl

theorem isSome_bind_total {α β : Type} {x : Option α} {f : α → Option β}
    (total : ∀ a, (f a).isSome) : (x.bind f).isSome ↔ x.isSome := by
  cases x with
  | none => exact Iff.rfl
  | some a => exact iff_of_true (total a) rfl

theorem buildDiffHunks_isSome_iff {isAlphanumeric : Char → Bool} {segments : List DiffSegment}
    {beforeText afterText : Text} {context : Nat} :
    (buildDiffHunks isAlphanumeric segments beforeText afterText context).isSome ↔
      (∀ change ∈ segments.map DiffSegment.change, change.tag = .equal) ∨
        (∀ line ∈ Text.lines beforeText, ¬ Degenerate line) ∧
        (∀ line ∈ Text.lines afterText, ¬ Degenerate line) ∧
        ∀ start stop, Runs.IsRun (Near (segments.map DiffSegment.change) context) start stop →
          ¬ Trapped (Text.lines (windowText (segments.map DiffSegment.change) start stop)) := by
  obtain ⟨ranges, collected, windows⟩ := collectChangedRanges_returns segments context
  rw [buildDiffHunks, collected, Option.bind_eq_bind, Option.bind_some]
  by_cases unchanged : ranges = []
  · rw [if_pos unchanged]
    refine iff_of_true rfl (.inl fun change member => ?_)
    by_contra changed
    obtain ⟨a, b, run⟩ := exists_window_iff.mpr ⟨change, member, changed⟩
    have := (windows a b).mpr run
    rw [unchanged] at this
    cases this
  · have changed : ¬ ∀ change ∈ segments.map DiffSegment.change, change.tag = .equal := by
      intro equal
      obtain ⟨range, member⟩ := List.exists_mem_of_ne_nil ranges unchanged
      obtain ⟨change, member, different⟩ :=
        exists_window_iff.mp ⟨range.1, range.2, (windows range.1 range.2).mp member⟩
      exact different (equal change member)
    rw [if_neg unchanged, or_iff_right changed, ← buildSectionIndex_isSome_iff,
      ← buildSectionIndex_isSome_iff]
    cases before : buildSectionIndex beforeText with
    | none => simp
    | some beforeSections =>
        cases after : buildSectionIndex afterText with
        | none => simp
        | some afterSections =>
            simp only [Option.bind_eq_bind, Option.bind_some, Option.isSome_some, true_and]
            rw [isSome_bind_total annotateMoves_isSome, mapM_isSome_iff]
            have hunk : ∀ a b, Runs.IsRun (Near (segments.map DiffSegment.change) context) a b →
                ((buildHunk segments beforeSections afterSections (a, b)).isSome ↔
                  ¬ Trapped (Text.lines (windowText (segments.map DiffSegment.change) a b))) := by
              intro a b run
              have last := (run.inside (b - 1) (by have := run.inhabited; omega)
                (by have := run.inhabited; omega)).1
              rw [List.length_map] at last
              exact buildHunk_isSome_iff (Nat.le_of_lt run.inhabited) (by omega) _ _
            constructor
            · intro built a b run
              exact (hunk a b run).mp (built (a, b) ((windows a b).mpr run))
            · rintro readable ⟨a, b⟩ member
              have run := (windows a b).mp member
              exact (hunk a b run).mpr (readable a b run)

/-- A line diff returns exactly when nothing changed, or no line of equals signs is read as a
heading: not in either text, nor in the changes of a window before its first heading. -/
theorem diffLines_returns_iff (isAlphanumeric : Char → Bool) (differ : TextDiff)
    (before after : Text) :
    (diffLines isAlphanumeric differ before after).isSome ↔
      (∀ change ∈ differ.fromLines before after, change.tag = .equal) ∨
        (∀ line ∈ Text.lines before, ¬ Degenerate line) ∧
        (∀ line ∈ Text.lines after, ¬ Degenerate line) ∧
        ∀ start stop, Runs.IsRun (Near (differ.fromLines before after) 3) start stop →
          ¬ Trapped (Text.lines (windowText (differ.fromLines before after) start stop)) := by
  obtain ⟨segments, highlighted, same⟩ := computeInlineHighlights_returns isAlphanumeric differ
    (collectSegments .lines (differ.fromLines before after)).segments
  rw [collectSegments_changes] at same
  rw [diffLines, highlighted, Option.bind_eq_bind, Option.bind_some, ← same, ← buildDiffHunks_isSome_iff]
  cases buildDiffHunks isAlphanumeric segments before after 3 <;> rfl

/-- A differ that replaces a text as a whole. -/
def replacing (before after : Text) : List Change :=
  (if before = [] then [] else [⟨.delete, before⟩]) ++ (if after = [] then [] else [⟨.insert, after⟩])

theorem replacing_rebuilds : Rebuilds replacing := by
  intro before after
  unfold replacing textWithout
  by_cases blank : before = [] <;> by_cases blank' : after = [] <;> simp [blank, blank']

/-- Writing four equals signs on an empty page: the differ keeps its promise and the diff panics. -/
theorem diffLines_panics :
    Rebuilds (⟨replacing, replacing, replacing⟩ : TextDiff).fromLines ∧
      diffLines Char.isAlphanum ⟨replacing, replacing, replacing⟩ [] "====".toList = none :=
  ⟨replacing_rebuilds, by decide +kernel⟩

end SP42.Diff
