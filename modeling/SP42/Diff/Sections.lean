import SP42.Diff.Moves
import SP42.Diff.Windows
import SP42.Lib.Ranges
import SP42.Lib.Total

/-!
What the hunks of a diff cover: slices of the segments in order, each change in one of them
with its context, and the numbers of the moves.
-/
namespace SP42.Diff

open Total

/-- The windows come in order and apart. -/
theorem visibleRuns_ascending {cursor : Nat} {begun : Option Nat} {flags : List Bool}
    (early : begun.getD cursor ≤ cursor) :
    Ranges.Ascending (begun.getD cursor) (visibleRuns cursor begun flags) := by
  fun_induction visibleRuns cursor begun flags with
  | case1 cursor => trivial
  | case2 cursor start => exact ⟨le_refl _, early, trivial⟩
  | case3 cursor rest ih => exact (ih (le_refl _)).mono (Nat.le_succ cursor)
  | case4 cursor rest ih => exact ih (Nat.le_succ cursor)
  | case5 cursor start rest ih => exact ih (Nat.le_succ_of_le early)
  | case6 cursor start rest ih =>
      exact ⟨le_refl _, early, (ih (le_refl _)).mono (Nat.le_succ cursor)⟩

theorem collectChangedRanges_ascending {segments : List DiffSegment} {context : Nat}
    {ranges : List (Nat × Nat)} (h : collectChangedRanges segments context = some ranges) :
    Ranges.Ascending 0 ranges := by
  obtain ⟨visible, -, h⟩ := Option.bind_eq_some_iff.mp h
  cases h
  exact @visibleRuns_ascending 0 none _ (le_refl 0)

/-- A position near a change lies in one window with it. -/
theorem near_in_run {changes : List Change} {context a b i : Nat}
    (run : Runs.IsRun (Near changes context) a b) (low : a ≤ i) (high : i < b) :
    ∃ j change, a ≤ j ∧ j < b ∧ changes[j]? = some change ∧ change.tag ≠ .equal ∧
      i ≤ j + context ∧ j ≤ i + context := by
  obtain ⟨inside, j, change, found, changed, left, right⟩ := run.inside i low high
  have within : j < changes.length := (List.getElem?_eq_some_iff.mp found).1
  obtain ⟨start, stop⟩ := run.reaches (j := j) low high fun k below above =>
    ⟨by omega, j, change, found, changed, by omega, by omega⟩
  exact ⟨j, change, start, stop, found, changed, right, left⟩

/-- The piece between the two ends of a range. -/
def IsSlice (segments : List DiffSegment) (range : Nat × Nat) (piece : List DiffSegment) : Prop :=
  slice segments range.1 range.2 = some piece

/-- The hunks cover the changes of a list of segments with their context. -/
structure Covers (segments : List DiffSegment) (context : Nat) (hunks : List DiffHunk) : Prop where
  /-- They are slices of the list, in order and apart; a change lies in exactly one of them, and
  whatever lies in one is near a change in the same one. -/
  slices : ∃ ranges : List (Nat × Nat), Ranges.Ascending 0 ranges ∧
    List.Forall₂ (IsSlice segments) ranges (hunks.map DiffHunk.segments) ∧
    (∀ (i : Nat) (segment : DiffSegment), segments[i]? = some segment → segment.kind ≠ .equal →
      ∃! k : Nat, ∃ range : Nat × Nat, ranges[k]? = some range ∧ range.1 ≤ i ∧ i < range.2) ∧
    ∀ range ∈ ranges, ∀ i, range.1 ≤ i → i < range.2 → ∃ (j : Nat) (segment : DiffSegment),
      range.1 ≤ j ∧ j < range.2 ∧ segments[j]? = some segment ∧ segment.kind ≠ .equal ∧
        i ≤ j + context ∧ j ≤ i + context
  /-- A number of a move stands on one modification or on one removal and one addition. -/
  groups : ∀ hunk ∈ hunks, ∀ group, hunk.moveGroup = some group → Grouped hunks group

theorem buildHunk_segments {segments : List DiffSegment} {before after : List (Nat × Text)}
    {range : Nat × Nat} {hunk : DiffHunk} (h : buildHunk segments before after range = some hunk) :
    IsSlice segments range hunk.segments ∧ hunk.moveGroup = none ∧ hunk.moveRole = none := by
  obtain ⟨hunkSegments, cut, h⟩ := Option.bind_eq_some_iff.mp h
  obtain ⟨markers, -, h⟩ := Option.bind_eq_some_iff.mp h
  cases h
  exact ⟨cut, rfl, rfl⟩

variable {isAlphanumeric : Char → Bool}

/-- The hunks are annotated slices of the windows. -/
theorem buildDiffHunks_slices {segments : List DiffSegment} {beforeText afterText : Text}
    {context : Nat} {hunks : List DiffHunk}
    (h : buildDiffHunks isAlphanumeric segments beforeText afterText context = some hunks) :
    ∃ ranges, collectChangedRanges segments context = some ranges ∧
      List.Forall₂ (IsSlice segments) ranges (hunks.map DiffHunk.segments) ∧
      ∀ hunk ∈ hunks, ∀ group, hunk.moveGroup = some group → Grouped hunks group := by
  obtain ⟨ranges, found, h⟩ := Option.bind_eq_some_iff.mp h
  refine ⟨ranges, found, ?_⟩
  split at h
  · next none =>
      cases h
      rw [none]
      exact ⟨.nil, nofun⟩
  · obtain ⟨before, -, h⟩ := Option.bind_eq_some_iff.mp h
    obtain ⟨after, -, h⟩ := Option.bind_eq_some_iff.mp h
    obtain ⟨built, made, h⟩ := Option.bind_eq_some_iff.mp h
    have each := mapM_eq_some made
    have fresh : ∀ hunk ∈ built, hunk.moveGroup = none ∧ hunk.moveRole = none := by
      intro hunk member
      obtain ⟨range, -, value⟩ := Traverse.exists_left each member
      exact (buildHunk_segments value).2
    obtain ⟨same, grouped⟩ := annotateMoves_grouped fresh h
    refine ⟨?_, grouped⟩
    rw [same, List.forall₂_map_right_iff]
    exact each.imp fun _ _ value => (buildHunk_segments value).1

/-- Two changes that are far apart, of two hunks. -/
def distantSegments : List DiffSegment :=
  [⟨.delete, "Paris\n".toList, some ⟨1, 1⟩, none, []⟩, ⟨.equal, "a\n".toList, some ⟨2, 1⟩, some ⟨1, 1⟩, []⟩,
    ⟨.equal, "b\n".toList, some ⟨3, 1⟩, some ⟨2, 1⟩, []⟩, ⟨.insert, "Lyon\n".toList, none, some ⟨3, 1⟩, []⟩]

end SP42.Diff

/-!
The section label of a hunk: the heading above the first line that changed, by the line numbers that
the segments carry.
-/
namespace SP42.Diff

section Sides

inductive Side where
  | before
  | after

/-- The kind of the segments that changed on a side. -/
def Side.changed : Side → DiffSegmentKind
  | before => .delete
  | after => .insert

/-- The kind of the segments that a side has not. -/
def Side.absent : Side → DiffSegmentKind
  | before => .insert
  | after => .delete

def Side.span : Side → DiffSegment → Option DiffLineSpan
  | before, segment => segment.before
  | after, segment => segment.after

def Side.label : Side → DiffSectionContext → Option Text
  | before, context => context.before
  | after, context => context.after

/-- How many lines a segment has on a side. -/
def Side.width (side : Side) (segment : DiffSegment) : Nat :=
  if segment.kind = side.absent then 0 else countTextLines segment.text

def Side.counted (side : Side) : List DiffSegment → Nat
  | [] => 0
  | segment :: rest => side.width segment + side.counted rest

/-- What a side reads in the segments. -/
def Side.text (side : Side) (segments : List DiffSegment) : Text :=
  (segments.filter fun segment => segment.kind ≠ side.absent).flatMap DiffSegment.text

variable {side : Side}

theorem Side.counted_append (front back : List DiffSegment) :
    side.counted (front ++ back) = side.counted front + side.counted back := by
  induction front with
  | nil => exact (Nat.zero_add _).symm
  | cons segment front ih => rw [List.cons_append, counted, ih, counted, Nat.add_assoc]

theorem Side.span_highlighted (side : Side) (segment : DiffSegment) (spans : List InlineSpan) :
    side.span { segment with inlineHighlights := spans } = side.span segment := by
  cases side <;> rfl

theorem Side.changed_ne_absent (side : Side) : side.changed ≠ side.absent := by
  cases side <;> decide

end Sides

section Numbering

/-- Each segment carries the lines it has on each side, counted on from the given ones. -/
def Numbered : (Side → Nat) → List DiffSegment → Prop
  | _, [] => True
  | line, segment :: rest =>
      (∀ side, side.span segment = lineSpan (line side) (side.width segment)) ∧
        Numbered (fun side => line side + side.width segment) rest

theorem Numbered.append {line : Side → Nat} {front back : List DiffSegment}
    (numbered : Numbered line (front ++ back)) :
    Numbered (fun side => line side + side.counted front) back := by
  induction front generalizing line with
  | nil => exact numbered
  | cons segment front ih =>
      have later := ih numbered.2
      have same : (fun side : Side => line side + side.width segment + side.counted front) =
          fun side : Side => line side + side.counted (segment :: front) := by
        funext side
        rw [Side.counted, Nat.add_assoc]
      rwa [same] at later

theorem Numbered.of_append {line : Side → Nat} {front back : List DiffSegment}
    (numbered : Numbered line (front ++ back)) : Numbered line front := by
  induction front generalizing line with
  | nil => trivial
  | cons segment front ih => exact ⟨numbered.1, ih numbered.2⟩

/-- Later segments begin no earlier. -/
theorem Numbered.later {line : Side → Nat} {segments : List DiffSegment} {segment : DiffSegment}
    {side : Side} {span : DiffLineSpan} (numbered : Numbered line segments)
    (member : segment ∈ segments) (carries : side.span segment = some span) :
    line side ≤ span.startLine := by
  obtain ⟨front, back, rfl⟩ := List.append_of_mem member
  have here := numbered.append.1 side
  rw [carries, lineSpan] at here
  split at here
  · cases here
    exact Nat.le_add_right _ _
  · cases here

/-- The lines of the state of the loop over the changes. -/
def Collecting.line (state : Collecting) : Side → Nat
  | .before => state.beforeLine
  | .after => state.afterLine

theorem collectChange_numbered (state : Collecting) (change : Change) : ∃ segment,
    (collectChange .lines state change).segments = state.segments ++ [segment] ∧
      (∀ side, side.span segment = lineSpan (state.line side) (side.width segment)) ∧
      (collectChange .lines state change).line = fun side => state.line side + side.width segment := by
  obtain ⟨tag, text⟩ := change
  cases tag with
  | equal =>
      refine ⟨_, rfl, fun side => ?_, funext fun side => ?_⟩ <;> cases side <;> rfl
  | insert =>
      refine ⟨_, rfl, fun side => ?_, funext fun side => ?_⟩ <;> cases side <;> rfl
  | delete =>
      refine ⟨_, rfl, fun side => ?_, funext fun side => ?_⟩ <;> cases side <;> rfl

theorem collect_numbered (changes : List Change) (state : Collecting) : ∃ segments,
    (changes.foldl (collectChange .lines) state).segments = state.segments ++ segments ∧
      Numbered state.line segments := by
  induction changes generalizing state with
  | nil => exact ⟨[], (List.append_nil _).symm, trivial⟩
  | cons change changes ih =>
      obtain ⟨segment, first, carries, lines⟩ := collectChange_numbered state change
      obtain ⟨segments, rest, numbered⟩ := ih (collectChange .lines state change)
      rw [lines] at numbered
      refine ⟨segment :: segments, ?_, carries, numbered⟩
      rw [List.foldl_cons, rest, first, List.append_assoc, List.singleton_append]

/-- The segments of a line diff are numbered from the first line. -/
theorem collectSegments_numbered (changes : List Change) :
    Numbered (fun _ => 1) (collectSegments .lines changes).segments := by
  obtain ⟨segments, whole, numbered⟩ := collect_numbered changes
    { segments := [], stats := .default, beforeLine := 1, afterLine := 1 }
  have lines : Collecting.line { segments := [], stats := .default, beforeLine := 1, afterLine := 1 } =
      fun _ => 1 := by
    funext side
    cases side <;> rfl
  rw [lines] at numbered
  rw [collectSegments, whole]
  exact numbered

variable {isAlphanumeric : Char → Bool} {differ : TextDiff}

/-- Highlights leave the numbers as they are. -/
theorem Numbered.highlighted {line : Side → Nat} {segments highlighted : List DiffSegment}
    (numbered : Numbered line segments)
    (made : computeInlineHighlights isAlphanumeric differ segments = some highlighted) :
    Numbered line highlighted := by
  fun_induction computeInlineHighlights isAlphanumeric differ segments generalizing line highlighted with
  | case1 first second rest pair ih =>
      obtain ⟨spans, -, made⟩ := Option.bind_eq_some_iff.mp made
      obtain ⟨later, behind, made⟩ := Option.bind_eq_some_iff.mp made
      cases made
      exact ⟨fun side => (side.span_highlighted first spans.1).trans (numbered.1 side),
        fun side => (side.span_highlighted second spans.2).trans (numbered.2.1 side),
        ih numbered.2.2 behind⟩
  | case2 first second rest apart ih =>
      obtain ⟨later, behind, made⟩ := Option.bind_eq_some_iff.mp made
      cases made
      exact ⟨numbered.1, ih numbered.2 behind⟩
  | case3 segments short =>
      cases made
      exact numbered

end Numbering

section Labels

/-- The spans of what changed on a side. -/
def Side.changedSpans (side : Side) (segments : List DiffSegment) : List DiffLineSpan :=
  (segments.filter fun segment => segment.kind = side.changed).filterMap side.span

/-- The label of a hunk for a side, from its segments and the headings of the side. -/
def Side.hunkLabel (side : Side) (segments : List DiffSegment) (sections : List (Nat × Text)) :
    Option Text :=
  resolveSectionLabel ((mergeLineSpans (side.changedSpans segments)).or
    (mergeLineSpans (segments.filterMap side.span))) sections

/-- The first segment that changed on a side, after the given ones. -/
structure Side.First (side : Side) (segments earlier : List DiffSegment) (segment : DiffSegment) :
    Prop where
  stands : ∃ rest, segments = earlier ++ segment :: rest
  changed : segment.kind = side.changed
  inhabited : segment.text ≠ []
  least : ∀ other ∈ earlier, other.kind = side.changed → other.text = []

theorem countTextLines_pos {text : Text} (inhabited : text ≠ []) : 0 < countTextLines text := by
  rw [countTextLines, if_neg inhabited]
  dsimp only
  split
  · next ends => exact List.count_pos_iff.mpr (List.mem_of_getLast? ends)
  · exact Nat.succ_pos _

theorem mergeLineSpans_first {first : DiffLineSpan} {rest : List DiffLineSpan}
    (ordered : ∀ span ∈ rest, first.startLine ≤ span.startLine) :
    ∃ merged, mergeLineSpans (first :: rest) = some merged ∧
      merged.startLine = first.startLine := by
  have least : rest.foldl (fun line span => min line span.startLine) first.startLine =
      first.startLine := by
    induction rest with
    | nil => rfl
    | cons span rest ih =>
        obtain ⟨here, later⟩ := List.forall_mem_cons.mp ordered
        rw [List.foldl_cons, Nat.min_eq_left here]
        exact ih later
  exact ⟨_, rfl, least⟩

/-- Before the first change nothing that changed has a line. -/
theorem Side.First.spans {side : Side} {line : Side → Nat} {earlier rest : List DiffSegment}
    {segment : DiffSegment} (changed : segment.kind = side.changed) (inhabited : segment.text ≠ [])
    (least : ∀ other ∈ earlier, other.kind = side.changed → other.text = [])
    (numbered : Numbered line (earlier ++ segment :: rest)) : ∃ first later,
      side.changedSpans (earlier ++ segment :: rest) = first :: later ∧
        first.startLine = line side + side.counted earlier ∧
        ∀ span ∈ later, first.startLine ≤ span.startLine := by
  induction earlier generalizing line with
  | nil =>
      have wide : side.width segment = countTextLines segment.text :=
        if_neg (changed ▸ side.changed_ne_absent)
      have carries := numbered.1 side
      rw [wide, lineSpan, if_pos (countTextLines_pos inhabited)] at carries
      refine ⟨⟨line side, countTextLines segment.text⟩, side.changedSpans rest, ?_, rfl,
        fun span member => ?_⟩
      · rw [List.nil_append, changedSpans, List.filter_cons_of_pos (by simp [changed]),
          List.filterMap_cons_some carries]
        rfl
      · obtain ⟨other, inside, has⟩ := List.mem_filterMap.mp member
        have low := numbered.2.later (List.mem_of_mem_filter inside) has
        exact Nat.le_trans (Nat.le_add_right _ _) low
  | cons other earlier ih =>
      obtain ⟨first, later, spans, start, ordered⟩ := ih
        (fun one member => least one (List.mem_cons_of_mem other member)) numbered.2
      refine ⟨first, later, ?_, ?_, ordered⟩
      · rw [← spans, changedSpans, changedSpans, List.cons_append]
        by_cases same : other.kind = side.changed
        · have empty : side.width other = 0 := by
            rw [Side.width, least other List.mem_cons_self same]
            exact ite_self 0
          have carries := numbered.1 side
          rw [empty] at carries
          rw [List.filter_cons_of_pos (by simp [same]), List.filterMap_cons_none carries]
        · rw [List.filter_cons_of_neg (by simp [same])]
      · rw [start, counted, Nat.add_assoc]

/-- The label is that of the last heading at or above the line where the first change is counted. -/
theorem Side.First.label {side : Side} {line : Side → Nat} {segments earlier : List DiffSegment}
    {segment : DiffSegment} (first : side.First segments earlier segment)
    (numbered : Numbered line segments) (sections : List (Nat × Text)) :
    side.hunkLabel segments sections =
      resolveSectionLabel (some ⟨line side + side.counted earlier, 1⟩) sections := by
  obtain ⟨rest, rfl⟩ := first.stands
  obtain ⟨span, later, spans, start, ordered⟩ :=
    Side.First.spans first.changed first.inhabited first.least numbered
  obtain ⟨merged, found, begins⟩ := mergeLineSpans_first ordered
  rw [hunkLabel, spans, found, Option.some_or, resolveSectionLabel, resolveSectionLabel,
    Option.map_some, Option.map_some, begins, start]

end Labels

section Hunks

variable {isAlphanumeric : Char → Bool} {differ : TextDiff}

/-- What the moves do not touch. -/
def described (hunk : DiffHunk) : List DiffSegment × DiffSectionContext :=
  (hunk.segments, hunk.sections)

theorem annotateInPlace_described {hunks : List DiffHunk} {state final : List DiffHunk × Nat}
    (h : hunks.foldlM (annotateInPlace isAlphanumeric) state = some final) :
    final.1.map described = state.1.map described ++ hunks.map described := by
  induction hunks generalizing state with
  | nil =>
      cases h
      exact (List.append_nil _).symm
  | cons hunk hunks ih =>
      obtain ⟨next, step, rest⟩ := Option.bind_eq_some_iff.mp h
      rw [ih rest, List.map_cons]
      obtain rfl | ⟨-, notes, rfl⟩ := annotateInPlace_cases step
      · rw [List.map_append, List.append_assoc]
        rfl
      · rw [List.map_append, List.append_assoc]
        rfl

theorem annotateMoves_described {hunks moved : List DiffHunk}
    (h : annotateMoves isAlphanumeric hunks = some moved) :
    moved.map described = hunks.map described := by
  obtain ⟨⟨placed, next⟩, first, h⟩ := Option.bind_eq_some_iff.mp h
  obtain ⟨state, second, h⟩ := Option.bind_eq_some_iff.mp h
  cases h
  have start : placed.map described = hunks.map described := annotateInPlace_described first
  have kept : state.hunks.map described = placed.map described := by
    refine Total.foldlM_keeps (I := fun state : Moving => state.hunks.map described =
      placed.map described) (fun before after source _ held step => ?_) rfl second
    obtain rfl | ⟨target, hunk, other, apart, -, -, found, found', -, -, rfl⟩ := pairMove_cases step
    · exact held
    · have there : (before.hunks.set source (markMoved hunk before.nextGroup .source))[target]? =
          some other := by rw [List.getElem?_set_ne apart, found']
      refine (map_set_same there ?_).trans ((map_set_same found ?_).trans held) <;> rfl
  exact kept.trans start

/-- Both labels of a hunk are told from its segments and the headings of the two texts. -/
theorem buildDiffHunks_labels {segments : List DiffSegment} {beforeText afterText : Text}
    {context : Nat} {hunks : List DiffHunk} {hunk : DiffHunk}
    (h : buildDiffHunks isAlphanumeric segments beforeText afterText context = some hunks)
    (member : hunk ∈ hunks) : ∃ sections : Side → List (Nat × Text),
      buildSectionIndex beforeText = some (sections .before) ∧
        buildSectionIndex afterText = some (sections .after) ∧
        ∀ side : Side, side.label hunk.sections = side.hunkLabel hunk.segments (sections side) := by
  obtain ⟨ranges, -, h⟩ := Option.bind_eq_some_iff.mp h
  split at h
  · cases h
    cases member
  · obtain ⟨before, readBefore, h⟩ := Option.bind_eq_some_iff.mp h
    obtain ⟨after, readAfter, h⟩ := Option.bind_eq_some_iff.mp h
    obtain ⟨built, made, h⟩ := Option.bind_eq_some_iff.mp h
    have same := annotateMoves_described h
    obtain ⟨plain, inside, equal⟩ := List.mem_map.mp (same ▸ List.mem_map_of_mem member)
    obtain ⟨range, -, value⟩ := Traverse.exists_left (Total.mapM_eq_some made) inside
    obtain ⟨segments_, cut, value⟩ := Option.bind_eq_some_iff.mp value
    obtain ⟨markers, -, value⟩ := Option.bind_eq_some_iff.mp value
    cases value
    obtain ⟨pieces, labels⟩ := Prod.mk.inj equal
    refine ⟨fun side => match side with | .before => before | .after => after, readBefore, readAfter,
      fun side => ?_⟩
    have twice : ∀ changed every : Option DiffLineSpan,
        changed.or (changed.or every) = changed.or every := by
      intro changed every
      cases changed <;> rfl
    rw [← labels, ← pieces]
    cases side with
    | before => exact congrArg (resolveSectionLabel · before) (twice _ _)
    | after => exact congrArg (resolveSectionLabel · after) (twice _ _)

def Side.source (side : Side) (before after : Text) : Text :=
  match side with
  | .before => before
  | .after => after

/-- In a line diff a hunk is labelled with the last heading at or above its first change. -/
theorem diffLines_label {before after : Text} {diff : StructuredDiff} {hunk : DiffHunk}
    (done : diffLines isAlphanumeric differ before after = some diff) (member : hunk ∈ diff.hunks)
    (side : Side) {front back earlier : List DiffSegment} {segment : DiffSegment}
    (split : diff.segments = front ++ (hunk.segments ++ back))
    (first : side.First hunk.segments earlier segment) : ∃ sections,
      buildSectionIndex (side.source before after) = some sections ∧
        side.label hunk.sections = resolveSectionLabel
          (some ⟨1 + side.counted (front ++ earlier), 1⟩) sections := by
  obtain ⟨segments, highlighted, done⟩ := Option.bind_eq_some_iff.mp done
  obtain ⟨hunks, built, done⟩ := Option.bind_eq_some_iff.mp done
  cases done
  have numbered := (collectSegments_numbered (differ.fromLines before after)).highlighted highlighted
  dsimp only at split member
  rw [split] at numbered
  have here : Numbered (fun side => 1 + side.counted front) hunk.segments :=
    numbered.append.of_append
  obtain ⟨sections, readBefore, readAfter, labels⟩ := buildDiffHunks_labels built member
  refine ⟨sections side, ?_, ?_⟩
  · cases side with
    | before => exact readBefore
    | after => exact readAfter
  · rw [labels, first.label here, Side.counted_append, Nat.add_assoc]

end Hunks

end SP42.Diff
