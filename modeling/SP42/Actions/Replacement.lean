import SP42.Actions.Executor
import SP42.Lib.Bytes

/-!
The replacement of one selected text. The matches are counted from left to right without overlaps,
so a text that occurs again inside its own first occurrence is taken for a single one.
-/
namespace SP42.Actions

section Counting

variable {needle : Text}

theorem countMatches_skip (needle : Text) (skip : Nat) (text : Text) :
    countMatches needle skip text = countMatches needle 0 (text.drop skip) := by
  induction skip generalizing text with
  | zero => rfl
  | succ skip ih =>
      cases text with
      | nil => rfl
      | cons c rest => exact ih rest

/-- The count goes on behind the first occurrence. -/
theorem countMatches_of_find (inhabited : needle ≠ []) {text : Text} {start : Nat}
    (found : Search.find needle text = some start) :
    countMatches needle 0 text =
      countMatches needle 0 (text.drop (start + needle.length)) + 1 := by
  induction text generalizing start with
  | nil =>
      rw [Search.find, if_neg inhabited] at found
      cases found
  | cons c rest ih =>
      rw [Search.find] at found
      rw [countMatches]
      split at found
      · next here =>
          cases found
          have long : needle.length = needle.length - 1 + 1 :=
            (Nat.sub_add_cancel (List.length_pos_iff.mpr inhabited)).symm
          rw [if_pos here, countMatches_skip, Nat.zero_add, long, List.drop_succ_cons,
            Nat.add_sub_cancel]
      · next away =>
          obtain ⟨earlier, later, rfl⟩ := Option.map_eq_some_iff.mp found
          rw [if_neg away, ih later, Nat.add_right_comm, List.drop_succ_cons]

theorem countMatches_eq_zero (inhabited : needle ≠ []) {text : Text} :
    countMatches needle 0 text = 0 ↔ ¬ needle <:+: text := by
  rw [← Search.find_eq_none]
  cases found : Search.find needle text with
  | some start =>
      rw [countMatches_of_find inhabited found]
      simp
  | none =>
      refine iff_of_true ?_ rfl
      induction text with
      | nil => rfl
      | cons c rest ih =>
          rw [Search.find] at found
          split at found
          · cases found
          · next away =>
              rw [countMatches, if_neg away]
              exact ih (Option.map_eq_none_iff.mp found)

/-- The text is split at the first occurrence of the needle. -/
structure Leftmost (needle text before after : Text) : Prop where
  whole : text = before ++ (needle ++ after)
  first : ∀ other rest, text = other ++ (needle ++ rest) → before.length ≤ other.length

theorem leftmost_iff {text before after : Text} : Leftmost needle text before after ↔
    Search.find needle text = some before.length ∧
      after = text.drop (before.length + needle.length) ∧ before = text.take before.length := by
  rw [Search.find_eq_some_iff]
  constructor
  · rintro ⟨rfl, first⟩
    refine ⟨⟨by simp, by simp, ?_⟩, by simp, by simp⟩
    intro earlier before_ stands
    obtain ⟨rest, there⟩ := stands
    have cut := first _ rest ((List.take_append_drop earlier _).symm.trans (congrArg _ there.symm))
    rw [List.length_take] at cut
    omega
  · rintro ⟨⟨inside, stands, earliest⟩, tail, front⟩
    obtain ⟨rest, there⟩ := stands
    have same : rest = after := by
      rw [tail, ← List.drop_drop, ← there, List.drop_left]
    refine ⟨?_, ?_⟩
    · conv_lhs => rw [← List.take_append_drop before.length text, ← there, same, ← front]
    · intro other rest whole
      refine Nat.le_of_not_lt fun less => earliest other.length less ?_
      rw [whole, List.drop_left]
      exact List.prefix_append _ _

/-- A replacement is made where the needle occurs first, if it does not occur behind that. -/
theorem replaceExactlyOnce_ok {haystack replacement updated : Text} :
    replaceExactlyOnce haystack needle replacement = .ok updated ↔
      needle ≠ [] ∧ ∃ before after, Leftmost needle haystack before after ∧
        ¬ needle <:+: after ∧ updated = before ++ (replacement ++ after) := by
  rw [replaceExactlyOnce]
  by_cases empty : needle = []
  · rw [if_pos empty]
    exact ⟨nofun, fun there => absurd empty there.1⟩
  rw [if_neg empty]
  cases found : Search.find needle haystack with
  | none =>
      rw [(countMatches_eq_zero empty).mpr (Search.find_eq_none.mp found)]
      refine ⟨nofun, ?_⟩
      rintro ⟨-, before, after, leftmost, -⟩
      exact absurd (found.symm.trans (leftmost_iff.mp leftmost).1) nofun
  | some start =>
      rw [countMatches_of_find empty found]
      have inside := (Search.find_eq_some_iff.mp found).1
      have long : (haystack.take start).length = start :=
        List.length_take.trans (Nat.min_eq_left inside)
      have here : Leftmost needle haystack (haystack.take start)
          (haystack.drop (start + needle.length)) :=
        leftmost_iff.mpr ⟨long.symm ▸ found, by rw [long], by rw [long]⟩
      by_cases again : needle <:+: haystack.drop (start + needle.length)
      · obtain ⟨more, count⟩ := Nat.exists_eq_succ_of_ne_zero
          (mt (countMatches_eq_zero empty).mp (not_not_intro again))
        rw [count]
        refine ⟨nofun, ?_⟩
        rintro ⟨-, before, after, leftmost, alone, -⟩
        obtain ⟨place, tail, -⟩ := leftmost_iff.mp leftmost
        cases found.symm.trans place
        exact absurd (tail ▸ again) alone
      · rw [(countMatches_eq_zero empty).mpr again]
        constructor
        · rintro ⟨⟩
          exact ⟨empty, _, _, here, again, List.append_assoc _ _ _⟩
        · rintro ⟨-, before, after, leftmost, -, rfl⟩
          obtain ⟨place, tail, front⟩ := leftmost_iff.mp leftmost
          cases found.symm.trans place
          rw [Nat.zero_add]
          refine congrArg Except.ok ?_
          rw [← tail, ← front, List.append_assoc]

end Counting

section Ambiguity

/-- The needle occurs at the byte of the text. -/
def OccursAt (needle text : Text) (position : Nat) : Prop :=
  ∃ before after, text = before ++ (needle ++ after) ∧ Bytes.size before = position

/-- There are two or more occurrences, and all of them begin inside the first one. -/
def Crowded (needle text : Text) : Prop :=
  ∃ first later, first < later ∧ OccursAt needle text first ∧ OccursAt needle text later ∧
    ∀ position, OccursAt needle text position →
      first ≤ position ∧ position < first + Bytes.size needle

variable {needle text : Text}

/-- Of two cuts of a text, the earlier one begins the later one. -/
theorem later_cut {before after front back : Text} (whole : before ++ after = front ++ back)
    (early : before.length ≤ front.length) :
    ∃ more, front = before ++ more ∧ after = more ++ back := by
  rcases List.append_eq_append_iff.mp whole with ⟨more, rfl, tail⟩ | ⟨more, rfl, tail⟩
  · exact ⟨more, rfl, tail⟩
  · rw [List.length_append] at early
    obtain rfl := List.eq_nil_of_length_eq_zero (show more.length = 0 by omega)
    exact ⟨[], (List.append_nil _).symm.trans (List.append_nil _).symm, tail.symm⟩

/-- Behind the first occurrence the others are told by where they begin. -/
theorem Leftmost.occursAt {before after : Text} (leftmost : Leftmost needle text before after)
    {position : Nat} (occurs : OccursAt needle text position) : Bytes.size before ≤ position := by
  obtain ⟨other, rest, there, rfl⟩ := occurs
  obtain ⟨more, rfl, -⟩ := later_cut (leftmost.whole.symm.trans there) (leftmost.first _ _ there)
  rw [Bytes.size_append]
  exact Nat.le_add_right _ _

theorem exists_leftmost {position : Nat} (occurs : OccursAt needle text position) :
    ∃ before after, Leftmost needle text before after := by
  obtain ⟨other, rest, there, -⟩ := occurs
  have inside : needle <:+: text := ⟨other, rest, by rw [there, List.append_assoc]⟩
  obtain ⟨start, found⟩ := Option.isSome_iff_exists.mp (Search.find_isSome.mpr inside)
  have long : (text.take start).length = start :=
    List.length_take.trans (Nat.min_eq_left (Search.find_eq_some_iff.mp found).1)
  exact ⟨text.take start, text.drop (start + needle.length),
    leftmost_iff.mpr ⟨long.symm ▸ found, by rw [long], by rw [long]⟩⟩

/-- The needle does not come back behind its first occurrence when all occurrences begin in it. -/
theorem Leftmost.clear_iff {before after : Text} (leftmost : Leftmost needle text before after) :
    ¬ needle <:+: after ↔ ∀ position, OccursAt needle text position →
      position < Bytes.size before + Bytes.size needle := by
  constructor
  · rintro clear position ⟨other, rest, there, rfl⟩
    refine Nat.lt_of_not_le fun beyond => clear ?_
    have whole : before ++ needle ++ after = other ++ (needle ++ rest) := by
      rw [List.append_assoc, ← leftmost.whole, there]
    rcases Nat.le_total (before ++ needle).length other.length with early | late
    · obtain ⟨more, -, tail⟩ := later_cut whole early
      exact ⟨more, rest, by rw [tail, List.append_assoc]⟩
    · obtain ⟨more, joined, tail⟩ := later_cut whole.symm late
      have sizes := congrArg Bytes.size joined
      rw [Bytes.size_append, Bytes.size_append] at sizes
      have none_ : more = [] := by
        by_contra some_
        have positive := Bytes.size_pos some_
        omega
      rw [none_, List.nil_append] at tail
      exact tail ▸ (List.prefix_append needle rest).isInfix
  · rintro near ⟨skipped, rest, there⟩
    have occurs : OccursAt needle text (Bytes.size (before ++ needle ++ skipped)) :=
      ⟨_, rest, by rw [leftmost.whole, ← there]; simp only [List.append_assoc], rfl⟩
    have close := near _ occurs
    rw [Bytes.size_append, Bytes.size_append] at close
    omega

/-- Where nothing hides in it, a first occurrence that does not come back is the only one. -/
theorem Leftmost.alone {before after : Text} (leftmost : Leftmost needle text before after)
    (clear : ¬ needle <:+: after) (spread : ¬ Crowded needle text) {position : Nat}
    (occurs : OccursAt needle text position) : position = Bytes.size before := by
  by_contra other
  have least := leftmost.occursAt occurs
  have near := leftmost.clear_iff.mp clear
  exact spread ⟨Bytes.size before, position, by omega, ⟨before, after, leftmost.whole, rfl⟩,
    occurs, fun q there => ⟨leftmost.occursAt there, near q there⟩⟩

/-- The replacement is made of the one occurrence, unless the others hide inside the first. -/
theorem replaceExactlyOnce_unique (haystack needle replacement : Text) :
    (∀ updated, replaceExactlyOnce haystack needle replacement = .ok updated ↔
      needle ≠ [] ∧ ∃ before after, haystack = before ++ (needle ++ after) ∧
        updated = before ++ (replacement ++ after) ∧
          ∀ position, OccursAt needle haystack position → position = Bytes.size before) ↔
      ¬ Crowded needle haystack := by
  constructor
  · rintro exact_ ⟨first, later, less, here, there, inside⟩
    have inhabited : needle ≠ [] := by
      rintro rfl
      exact absurd (inside first here).2 (Nat.lt_irrefl _)
    obtain ⟨before, after, leftmost⟩ := exists_leftmost here
    have least := leftmost.occursAt here
    have clear : ¬ needle <:+: after := leftmost.clear_iff.mpr fun position occurs => by
      have begun : first ≤ Bytes.size before :=
        (inside _ ⟨before, after, leftmost.whole, rfl⟩).1
      have near := (inside position occurs).2
      omega
    obtain ⟨-, front, back, -, -, alone⟩ := (exact_ _).mp
      (replaceExactlyOnce_ok.mpr ⟨inhabited, before, after, leftmost, clear, rfl⟩)
    exact absurd ((alone first here).trans (alone later there).symm) (Nat.ne_of_lt less)
  · intro spread updated
    rw [replaceExactlyOnce_ok]
    refine and_congr_right fun inhabited => ?_
    constructor
    · rintro ⟨before, after, leftmost, clear, rfl⟩
      exact ⟨before, after, leftmost.whole, rfl, fun _ => leftmost.alone clear spread⟩
    · rintro ⟨before, after, whole, rfl, alone⟩
      have leftmost : Leftmost needle haystack before after := by
        refine ⟨whole, fun other rest there => ?_⟩
        have same := alone _ ⟨other, rest, there, rfl⟩
        exact Nat.le_of_eq (congrArg _ (Bytes.cut_unique (there.symm.trans whole) same).1.symm)
      refine ⟨before, after, leftmost, leftmost.clear_iff.mpr fun position occurs => ?_,
        rfl⟩
      have positive := Bytes.size_pos inhabited
      have same := alone position occurs
      omega

/-- Two equals signs stand at two places of three, and the first is replaced. -/
theorem three_signs_replaced :
    replaceExactlyOnce "a === b".toList "==".toList "!!".toList = .ok "a !!= b".toList ∧
      OccursAt "==".toList "a === b".toList 2 ∧ OccursAt "==".toList "a === b".toList 3 :=
  ⟨rfl, ⟨"a ".toList, "= b".toList, rfl, rfl⟩, ⟨"a =".toList, " b".toList, rfl, rfl⟩⟩

end Ambiguity

end SP42.Actions
