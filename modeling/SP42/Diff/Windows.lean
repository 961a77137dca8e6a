import SP42.Diff.Hunks
import SP42.Diff.Highlights
import SP42.Lib.Ranges

/-!
The windows around the changes: the ranges of the hunks are the maximal runs of
segments that are near a changed one.
-/
namespace SP42.Diff

open Total

/-- A position of the list at most `context` places from a change. -/
def Near (changes : List Change) (context k : Nat) : Prop :=
  k < changes.length ∧ ∃ i change, changes[i]? = some change ∧ change.tag ≠ .equal ∧
    i ≤ k + context ∧ k ≤ i + context

def Marked (flags : List Bool) (k : Nat) : Prop := flags[k]? = some true

theorem marked_markUsed {flags marked : List Bool} {start stop : Nat}
    (h : markUsed flags (start, stop) = some marked) (k : Nat) :
    Marked marked k ↔ Marked flags k ∨ start ≤ k ∧ k < stop := by
  obtain ⟨slots, cut, rfl⟩ := Option.map_eq_some_iff.mp h
  unfold slice at cut
  split at cut
  · rename_i bounds
    cases cut
    have front : (flags.take start).length = start := by rw [List.length_take]; omega
    have middle : (((flags.drop start).take (stop - start)).map fun _ => true).length =
        stop - start := by
      rw [List.length_map, List.length_take, List.length_drop]
      omega
    unfold Marked
    rw [List.append_assoc, List.getElem?_append, front]
    by_cases early : k < start
    · rw [if_pos early, List.getElem?_take, if_pos early]
      simp only [iff_self_or]
      omega
    · rw [if_neg early, List.getElem?_append, middle]
      by_cases inside : k < stop
      · rw [if_pos (by omega)]
        have marks : k - start < (((flags.drop start).take (stop - start)).map
            fun _ => true).length := by omega
        rw [List.getElem?_eq_getElem marks, List.getElem_map]
        simp only [true_iff]
        exact .inr ⟨by omega, inside⟩
      · rw [if_neg (by omega), List.getElem?_drop, show stop + (k - start - (stop - start)) = k by omega]
        simp only [iff_self_or]
        omega
  · cases cut

theorem markVisible_returns {context : Nat} {flags : List Bool} {segment : DiffSegment × Nat}
    (inside : segment.2 < flags.length) :
    Returns (markVisible context flags segment) fun marked => marked.length = flags.length ∧
      ∀ k, Marked marked k ↔ Marked flags k ∨
        segment.1.kind ≠ .equal ∧ k < flags.length ∧ segment.2 ≤ k + context ∧
          k ≤ segment.2 + context := by
  unfold markVisible
  by_cases equal : segment.1.kind = .equal
  · rw [if_pos equal]
    exact .pure ⟨rfl, fun k => by simp [equal]⟩
  · rw [if_neg equal]
    obtain ⟨marked, value, length⟩ := @markUsed_returns flags (segment.2 - context)
      (min (segment.2 + context + 1) flags.length) (by omega) (by omega)
    refine ⟨marked, value, length, fun k => ?_⟩
    rw [marked_markUsed value]
    refine or_congr_right ⟨fun range => ⟨equal, by omega⟩, fun range => by omega⟩

/-- After the marking loop exactly the positions near a change are marked. -/
theorem markLoop_returns {context : Nat} {indexed : List (DiffSegment × Nat)} {flags : List Bool}
    (inside : ∀ segment ∈ indexed, segment.2 < flags.length) :
    Returns (indexed.foldlM (markVisible context) flags) fun marked =>
      marked.length = flags.length ∧ ∀ k, Marked marked k ↔ Marked flags k ∨
        ∃ segment ∈ indexed, segment.1.kind ≠ .equal ∧ k < flags.length ∧
          segment.2 ≤ k + context ∧ k ≤ segment.2 + context := by
  induction indexed generalizing flags with
  | nil => exact .pure ⟨rfl, fun k => by simp⟩
  | cons segment indexed ih =>
      obtain ⟨here, there⟩ := List.forall_mem_cons.mp inside
      rw [List.foldlM_cons]
      refine (markVisible_returns here).bind fun first marks => ?_
      obtain ⟨length, marks⟩ := marks
      refine (ih (length ▸ there)).mono fun marked result => ?_
      obtain ⟨length', result⟩ := result
      refine ⟨length'.trans length, fun k => ?_⟩
      rw [result, marks, length, List.exists_mem_cons_iff, or_assoc]

/-- A run in hand that ends at the cursor is the only one that begins before it. -/
theorem run_at_cursor {marked : Nat → Prop} {start cursor a b : Nat} (inhabited : start < cursor)
    (inside : ∀ k, start ≤ k → k < cursor → marked k) (begins : start = 0 ∨ ¬ marked (start - 1))
    (ends : ¬ marked cursor) (low : start ≤ a) (high : a ≤ cursor) :
    Runs.IsRun marked a b ↔ (a, b) = (start, cursor) := by
  have own : Runs.IsRun marked start cursor := ⟨inhabited, inside, ends, begins⟩
  constructor
  · intro run
    have before : a ≠ cursor := by
      rintro rfl
      exact ends (run.inside a (le_refl a) run.inhabited)
    obtain ⟨rfl, rfl⟩ := own.unique run low (by omega)
    rfl
  · rintro ⟨⟩
    exact own

theorem reads_next {marked : Nat → Prop} {cursor : Nat} {flag : Bool} {rest : List Bool}
    (reads : ∀ k, marked (cursor + k) ↔ Marked (flag :: rest) k) (k : Nat) :
    marked (cursor + 1 + k) ↔ Marked rest k := by
  rw [Nat.add_assoc, Nat.add_comm 1 k, reads]
  exact Iff.of_eq (congrArg (· = some true) List.getElem?_cons_succ)

theorem reads_now {marked : Nat → Prop} {cursor : Nat} {flag : Bool} {rest : List Bool}
    (reads : ∀ k, marked (cursor + k) ↔ Marked (flag :: rest) k) : marked cursor ↔ flag = true := by
  rw [show marked cursor = marked (cursor + 0) from rfl, reads]
  simp [Marked]

theorem reads_past {marked : Nat → Prop} {cursor : Nat}
    (reads : ∀ k, marked (cursor + k) ↔ Marked [] k) (k : Nat) (late : cursor ≤ k) :
    ¬ marked k := by
  rw [show k = cursor + (k - cursor) by omega, reads]
  simp [Marked]

/-- The runs of the marked positions from `cursor` on, with the one that has begun. -/
theorem mem_visibleRuns {marked : Nat → Prop} {cursor : Nat} {begun : Option Nat}
    {flags : List Bool} (reads : ∀ k, marked (cursor + k) ↔ Marked flags k)
    (state : ∀ start, begun = some start → start < cursor ∧
      (∀ k, start ≤ k → k < cursor → marked k) ∧ (start = 0 ∨ ¬ marked (start - 1)))
    (idle : begun = none → cursor = 0 ∨ ¬ marked (cursor - 1)) (a b : Nat) :
    (a, b) ∈ visibleRuns cursor begun flags ↔
      begun.getD cursor ≤ a ∧ Runs.IsRun marked a b := by
  fun_induction visibleRuns cursor begun flags with
  | case1 cursor =>
      refine iff_of_false List.not_mem_nil ?_
      rintro ⟨late, run⟩
      exact reads_past reads a late (run.inside a (le_refl a) run.inhabited)
  | case2 cursor start =>
      obtain ⟨inhabited, inside, begins⟩ := state start rfl
      have ends := reads_past reads cursor (le_refl cursor)
      rw [List.mem_singleton, Option.getD_some]
      constructor
      · rintro ⟨⟩
        exact ⟨le_refl _, inhabited, inside, ends, begins⟩
      · rintro ⟨low, run⟩
        have high : a ≤ cursor := by
          by_contra late
          exact reads_past reads a (by omega) (run.inside a (le_refl a) run.inhabited)
        exact (run_at_cursor inhabited inside begins ends low high).mp run
  | case3 cursor rest ih =>
      have unmarked : ¬ marked cursor := by simp [reads_now reads]
      rw [ih (reads_next reads) nofun fun _ => .inr unmarked]
      refine and_congr_left fun run => ⟨Nat.le_of_succ_le, fun low => ?_⟩
      refine Nat.lt_of_le_of_ne low ?_
      rintro rfl
      exact unmarked (run.inside _ (le_refl _) run.inhabited)
  | case4 cursor rest ih =>
      have here : marked cursor := (reads_now reads).mpr rfl
      refine (ih (reads_next reads) ?_ nofun).trans Iff.rfl
      rintro start ⟨⟩
      refine ⟨Nat.lt_succ_self _, fun k low high => ?_, idle rfl⟩
      rwa [show k = cursor by omega]
  | case5 cursor start rest ih =>
      obtain ⟨inhabited, inside, begins⟩ := state start rfl
      have here : marked cursor := (reads_now reads).mpr rfl
      refine (ih (reads_next reads) ?_ nofun).trans Iff.rfl
      rintro start ⟨⟩
      refine ⟨by omega, fun k low high => ?_, begins⟩
      rcases Nat.lt_succ_iff_lt_or_eq.mp high with before | rfl
      · exact inside k low before
      · exact here
  | case6 cursor start rest ih =>
      obtain ⟨inhabited, inside, begins⟩ := state start rfl
      have ends : ¬ marked cursor := by simp [reads_now reads]
      rw [List.mem_cons, ih (reads_next reads) nofun fun _ => .inr ends, Option.getD_none,
        Option.getD_some]
      constructor
      · rintro (⟨⟨⟩⟩ | ⟨late, run⟩)
        · exact ⟨le_refl _, inhabited, inside, ends, begins⟩
        · exact ⟨by omega, run⟩
      · rintro ⟨low, run⟩
        by_cases high : a ≤ cursor
        · exact .inl ((run_at_cursor inhabited inside begins ends low high).mp run)
        · exact .inr ⟨by omega, run⟩

/-- The ranges of the hunks are the windows around the changes. -/
theorem collectChangedRanges_returns (segments : List DiffSegment) (context : Nat) :
    Returns (collectChangedRanges segments context) fun ranges => ∀ a b, (a, b) ∈ ranges ↔
      Runs.IsRun (Near (segments.map DiffSegment.change) context) a b := by
  have inside : ∀ segment ∈ segments.zipIdx,
      segment.2 < (List.replicate segments.length false).length := by
    intro segment member
    rw [List.length_replicate]
    exact List.snd_lt_of_mem_zipIdx member
  refine (markLoop_returns inside).bind fun visible marks => .pure fun a b => ?_
  have near : ∀ k, Near (segments.map DiffSegment.change) context k ↔ Marked visible k := by
    intro k
    rw [marks.2 k, List.length_replicate, Near, List.length_map]
    have fresh : ¬ Marked (List.replicate segments.length false) k := by
      unfold Marked
      rw [List.getElem?_replicate]
      split <;> simp
    rw [or_iff_right fresh]
    constructor
    · rintro ⟨within, i, change, found, changed, low, high⟩
      rw [List.getElem?_map, Option.map_eq_some_iff] at found
      obtain ⟨segment, found, rfl⟩ := found
      exact ⟨(segment, i), List.mem_zipIdx_iff_getElem?.mpr found, changed, within, low, high⟩
    · rintro ⟨⟨segment, i⟩, member, changed, within, low, high⟩
      refine ⟨within, i, segment.change, ?_, changed, low, high⟩
      rw [List.getElem?_map, List.mem_zipIdx_iff_getElem?.mp member]
      rfl
  have reads : ∀ k, Near (segments.map DiffSegment.change) context (0 + k) ↔ Marked visible k := by
    intro k
    rw [Nat.zero_add]
    exact near k
  refine (mem_visibleRuns reads (fun start begun => ?_) (fun _ => .inl rfl) a b).trans ?_
  · cases begun
  · exact and_iff_right (Nat.zero_le a)

/-- There is a window exactly when something changed. -/
theorem exists_window_iff {changes : List Change} {context : Nat} :
    (∃ a b, Runs.IsRun (Near changes context) a b) ↔ ∃ change ∈ changes, change.tag ≠ .equal := by
  constructor
  · rintro ⟨a, b, run⟩
    obtain ⟨-, i, change, found, changed, -⟩ := run.inside a (le_refl a) run.inhabited
    exact ⟨change, List.mem_of_getElem? found, changed⟩
  · rintro ⟨change, member, changed⟩
    obtain ⟨i, found⟩ := List.mem_iff_getElem?.mp member
    have within : i < changes.length := (List.getElem?_eq_some_iff.mp found).1
    have near : Near changes context i :=
      ⟨within, i, change, found, changed, by omega, by omega⟩
    obtain ⟨a, b, run, -⟩ := Runs.exists_run (fun k near => near.1) near
    exact ⟨a, b, run⟩

end SP42.Diff
