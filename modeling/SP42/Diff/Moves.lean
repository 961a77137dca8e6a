import SP42.Diff.Returns
import SP42.Lib.Overlap

/-!
What the pairing of moved blocks leaves behind: a group's number stands on one modification
of its own, or on one removal and one addition.
-/
namespace SP42.Diff

/-- Where the number of a group stands, and nowhere else. -/
inductive Grouped (hunks : List DiffHunk) (group : Nat) : Prop
  | inPlace (k : Nat) (hunk : DiffHunk) (found : hunks[k]? = some hunk)
      (kind : hunk.kind = .modification) (role : hunk.moveRole = none)
      (only : ∀ i other, hunks[i]? = some other → (other.moveGroup = some group ↔ i = k))
  | moved (k l : Nat) (source target : DiffHunk) (apart : k ≠ l) (found : hunks[k]? = some source)
      (found' : hunks[l]? = some target) (removal : source.kind = .removal)
      (addition : target.kind = .addition) (role : source.moveRole = some .source)
      (role' : target.moveRole = some .target)
      (only : ∀ i other, hunks[i]? = some other → (other.moveGroup = some group ↔ i = k ∨ i = l))

/-- Every number that is given stands where it should, and is below the next one. -/
def Grouping (hunks : List DiffHunk) (next : Nat) : Prop :=
  ∀ (i : Nat) (hunk : DiffHunk) (group : Nat), hunks[i]? = some hunk →
    hunk.moveGroup = some group → group < next ∧ Grouped hunks group

theorem getElem?_snoc {α : Type*} {xs : List α} {x y : α} {i : Nat} :
    (xs ++ [x])[i]? = some y ↔ xs[i]? = some y ∨ i = xs.length ∧ x = y := by
  rcases Nat.lt_trichotomy i xs.length with before | rfl | after
  · rw [List.getElem?_append_left before]
    simp only [iff_self_or]
    omega
  · simp
  · rw [List.getElem?_append_right (Nat.le_of_lt after), List.getElem?_eq_none (l := xs) (by omega),
      List.getElem?_eq_none (by simp; omega)]
    simp only [reduceCtorEq, false_or, false_iff, not_and]
    omega

section Append

variable {hunks : List DiffHunk} {hunk : DiffHunk} {group next : Nat}

theorem Grouped.append (h : Grouped hunks group) (other : hunk.moveGroup ≠ some group) :
    Grouped (hunks ++ [hunk]) group := by
  have away : ∀ {k : Nat} {here : DiffHunk}, hunks[k]? = some here → hunks.length ≠ k := by
    intro k here found same
    rw [← same, List.getElem?_eq_none (le_refl _)] at found
    cases found
  cases h with
  | inPlace k here found kind role only =>
      refine .inPlace k here (getElem?_snoc.mpr (.inl found)) kind role fun i last at_ => ?_
      obtain old | ⟨rfl, rfl⟩ := getElem?_snoc.mp at_
      · exact only i last old
      · exact iff_of_false other (away found)
  | moved k l source target apart found found' removal addition role role' only =>
      refine .moved k l source target apart (getElem?_snoc.mpr (.inl found))
        (getElem?_snoc.mpr (.inl found')) removal addition role role' fun i last at_ => ?_
      obtain old | ⟨rfl, rfl⟩ := getElem?_snoc.mp at_
      · exact only i last old
      · exact iff_of_false other (not_or.mpr ⟨away found, away found'⟩)

theorem Grouping.append (h : Grouping hunks next) (plain : hunk.moveGroup = none) :
    Grouping (hunks ++ [hunk]) next := by
  intro i other group at_ numbered
  obtain old | ⟨-, rfl⟩ := getElem?_snoc.mp at_
  · obtain ⟨bound, grouped⟩ := h i other group old numbered
    exact ⟨bound, grouped.append (by rw [plain]; nofun)⟩
  · rw [plain] at numbered
    cases numbered

/-- The next number goes to a modification. -/
theorem Grouping.place (h : Grouping hunks next) (kind : hunk.kind = .modification)
    (role : hunk.moveRole = none) (numbered : hunk.moveGroup = some next) :
    Grouping (hunks ++ [hunk]) (next + 1) := by
  intro i other group at_ given
  obtain old | ⟨rfl, rfl⟩ := getElem?_snoc.mp at_
  · obtain ⟨bound, grouped⟩ := h i other group old given
    refine ⟨Nat.lt_succ_of_lt bound, grouped.append ?_⟩
    rw [numbered, Ne, Option.some.injEq]
    omega
  · rw [numbered] at given
    cases given
    refine ⟨Nat.lt_succ_self _, .inPlace hunks.length hunk (getElem?_snoc.mpr (.inr ⟨rfl, rfl⟩)) kind
      role fun i last at_ => ?_⟩
    obtain old | ⟨rfl, rfl⟩ := getElem?_snoc.mp at_
    · have inside : i < hunks.length := (List.getElem?_eq_some_iff.mp old).1
      refine iff_of_false (fun same => ?_) (by omega)
      exact absurd (h i last _ old same).1 (Nat.lt_irrefl _)
    · exact iff_of_true numbered rfl

end Append

section Moves

variable {isAlphanumeric : Char → Bool}

/-- A hunk passes through the first loop as it is, or a modification gets the next number. -/
theorem annotateInPlace_cases {state state' : List DiffHunk × Nat} {hunk : DiffHunk}
    (h : annotateInPlace isAlphanumeric state hunk = some state') :
    state' = (state.1 ++ [hunk], state.2) ∨ hunk.kind = .modification ∧ ∃ notes,
      state' = (state.1 ++ [{ hunk with moveGroup := some state.2, notes := notes }], state.2 + 1) := by
  unfold annotateInPlace at h
  split at h
  · exact .inl (Option.some.inj h).symm
  · rename_i modified
    split at h
    · split at h
      · exact .inl (Option.some.inj h).symm
      · obtain ⟨answer, -, h⟩ := Option.bind_eq_some_iff.mp h
        cases answer with
        | true =>
            refine .inr ⟨?_, _, (Option.some.inj h).symm⟩
            by_contra other
            exact modified (.inl other)
        | false => exact .inl (Option.some.inj h).symm
    · exact .inl (Option.some.inj h).symm

/-- After the first loop: the same segments, and numbers on modifications alone. -/
structure Placed (done : List DiffHunk) (state : List DiffHunk × Nat) : Prop where
  segments : state.1.map DiffHunk.segments = done.map DiffHunk.segments
  grouping : Grouping state.1 state.2
  free : ∀ hunk ∈ state.1, hunk.kind ≠ .modification → hunk.moveGroup = none

theorem Placed.step {done : List DiffHunk} {state state' : List DiffHunk × Nat} {hunk : DiffHunk}
    (held : Placed done state) (plain : hunk.moveGroup = none) (role : hunk.moveRole = none)
    (h : annotateInPlace isAlphanumeric state hunk = some state') : Placed (done ++ [hunk]) state' := by
  obtain rfl | ⟨kind, notes, rfl⟩ := annotateInPlace_cases h
  · refine ⟨?_, held.grouping.append plain, fun other member => ?_⟩
    · rw [List.map_append, List.map_append, held.segments]
    · obtain old | new := List.mem_append.mp member
      · exact held.free other old
      · exact fun _ => List.mem_singleton.mp new ▸ plain
  · refine ⟨?_, held.grouping.place kind role rfl, fun other member => ?_⟩
    · rw [List.map_append, List.map_append, held.segments]
      rfl
    · obtain old | new := List.mem_append.mp member
      · exact held.free other old
      · exact fun changed => absurd (List.mem_singleton.mp new ▸ kind) changed

theorem placed_loop {hunks done : List DiffHunk} {state final : List DiffHunk × Nat}
    (fresh : ∀ hunk ∈ hunks, hunk.moveGroup = none ∧ hunk.moveRole = none) (held : Placed done state)
    (h : hunks.foldlM (annotateInPlace isAlphanumeric) state = some final) :
    Placed (done ++ hunks) final := by
  induction hunks generalizing done state with
  | nil =>
      cases h
      rwa [List.append_nil]
  | cons hunk hunks ih =>
      obtain ⟨⟨plain, role⟩, later⟩ := List.forall_mem_cons.mp fresh
      obtain ⟨next, step, rest⟩ := Option.bind_eq_some_iff.mp h
      have all := ih later (held.step plain role step) rest
      rwa [List.append_assoc] at all

/-- The target of a move is another hunk, an addition that is still free. -/
theorem moveTarget_found {state : Moving} {source target : Nat} {signature : Text}
    {targets : List Nat}
    (h : moveTarget isAlphanumeric state source signature targets = some (some target)) :
    source ≠ target ∧ state.consumed[target]? = some false ∧
      ∃ hunk, state.hunks[target]? = some hunk ∧ hunk.kind = .addition := by
  induction targets with
  | nil => cases h
  | cons first targets ih =>
      rw [moveTarget] at h
      obtain ⟨taken, free, h⟩ := Option.bind_eq_some_iff.mp h
      obtain ⟨hunk, found, h⟩ := Option.bind_eq_some_iff.mp h
      split at h
      · exact ih h
      · rename_i open_
        obtain ⟨apart, untaken, addition⟩ : source ≠ first ∧ taken = false ∧ hunk.kind = .addition := by
          simpa using open_
        split at h
        · exact ih h
        · obtain ⟨answer, -, h⟩ := Option.bind_eq_some_iff.mp h
          cases answer with
          | true =>
              cases h
              exact ⟨apart, untaken ▸ free, hunk, found, addition⟩
          | false => exact ih h

/-- A step of the second loop leaves everything, or pairs a free removal with a free addition. -/
theorem pairMove_cases {state state' : Moving} {source : Nat}
    (h : pairMove isAlphanumeric state source = some state') :
    state' = state ∨ ∃ target sourceHunk targetHunk, source ≠ target ∧
      state.consumed[source]? = some false ∧ state.consumed[target]? = some false ∧
      state.hunks[source]? = some sourceHunk ∧ state.hunks[target]? = some targetHunk ∧
      sourceHunk.kind = .removal ∧ targetHunk.kind = .addition ∧ state' =
        { hunks := (state.hunks.set source (markMoved sourceHunk state.nextGroup .source)).set target
            (markMoved targetHunk state.nextGroup .target)
          consumed := (state.consumed.set source true).set target true
          nextGroup := state.nextGroup + 1 } := by
  unfold pairMove at h
  obtain ⟨taken, free, h⟩ := Option.bind_eq_some_iff.mp h
  obtain ⟨hunk, found, h⟩ := Option.bind_eq_some_iff.mp h
  split at h
  · exact .inl (Option.some.inj h).symm
  · rename_i open_
    obtain ⟨untaken, removal⟩ : taken = false ∧ hunk.kind = .removal := by simpa using open_
    split at h
    · exact .inl (Option.some.inj h).symm
    · obtain ⟨answer, searched, h⟩ := Option.bind_eq_some_iff.mp h
      cases answer with
      | none => exact .inl (Option.some.inj h).symm
      | some target =>
          obtain ⟨apart, free', other, found', addition⟩ := moveTarget_found searched
          obtain ⟨targetHunk, read, h⟩ := Option.bind_eq_some_iff.mp h
          rw [found'] at read
          cases read
          cases h
          exact .inr ⟨target, hunk, other, apart, untaken ▸ free, free', found, found', removal,
            addition, rfl⟩

theorem set_two {α : Type*} {xs : List α} {a b x y : α} {k l : Nat} (apart : k ≠ l)
    (found : xs[k]? = some x) (found' : xs[l]? = some y) :
    ((xs.set k a).set l b)[k]? = some a ∧ ((xs.set k a).set l b)[l]? = some b ∧
      ∀ i, i ≠ k → i ≠ l → ((xs.set k a).set l b)[i]? = xs[i]? := by
  have inside := (List.getElem?_eq_some_iff.mp found).1
  have inside' := (List.getElem?_eq_some_iff.mp found').1
  refine ⟨?_, ?_, fun i off off' => ?_⟩
  · rw [List.getElem?_set_ne apart.symm, List.getElem?_set_self inside]
  · rw [List.getElem?_set_self (by rwa [List.length_set])]
  · rw [List.getElem?_set_ne off'.symm, List.getElem?_set_ne off.symm]

/-- Two entries are replaced, the others stay. -/
theorem set_two_cases {α : Type*} {xs : List α} {a b x y z : α} {k l i : Nat} (apart : k ≠ l)
    (found : xs[k]? = some x) (found' : xs[l]? = some y)
    (h : ((xs.set k a).set l b)[i]? = some z) :
    i = k ∧ z = a ∨ i = l ∧ z = b ∨ i ≠ k ∧ i ≠ l ∧ xs[i]? = some z := by
  obtain ⟨here, there, elsewhere⟩ := set_two (a := a) (b := b) apart found found'
  by_cases first : i = k
  · subst first
    rw [here] at h
    exact .inl ⟨rfl, (Option.some.inj h).symm⟩
  · by_cases second : i = l
    · subst second
      rw [there] at h
      exact .inr (.inl ⟨rfl, (Option.some.inj h).symm⟩)
    · exact .inr (.inr ⟨first, second, (elsewhere i first second).symm.trans h⟩)

theorem map_set_same {α β : Type*} {f : α → β} {xs : List α} {k : Nat} {x y : α}
    (found : xs[k]? = some x) (same : f y = f x) : (xs.set k y).map f = xs.map f := by
  obtain ⟨inside, rfl⟩ := List.getElem?_eq_some_iff.mp found
  rw [List.map_set, same, ← List.getElem_map f (h := by rwa [List.length_map]), List.set_getElem_self]

section Pair

variable {hunks : List DiffHunk} {source target : DiffHunk} {k l group next : Nat}

/-- A number that neither of the two hunks had or gets stands where it stood. -/
theorem Grouped.pair (h : Grouped hunks group) (apart : k ≠ l) (found : hunks[k]? = some source)
    (found' : hunks[l]? = some target) (plain : source.moveGroup = none)
    (plain' : target.moveGroup = none) (older : group < next) :
    Grouped ((hunks.set k (markMoved source next .source)).set l (markMoved target next .target))
      group := by
  obtain ⟨-, -, elsewhere⟩ := set_two (a := markMoved source next .source)
    (b := markMoved target next .target) apart found found'
  have newer : some next ≠ some group := by rw [Ne, Option.some.injEq]; omega
  have off : ∀ {i : Nat} {hunk : DiffHunk}, hunks[i]? = some hunk → hunk.moveGroup = some group →
      i ≠ k ∧ i ≠ l := by
    intro i hunk at_ numbered
    constructor
    · rintro rfl
      rw [found] at at_
      cases at_
      rw [plain] at numbered
      cases numbered
    · rintro rfl
      rw [found'] at at_
      cases at_
      rw [plain'] at numbered
      cases numbered
  cases h with
  | inPlace i hunk at_ kind role only =>
      obtain ⟨offSource, offTarget⟩ := off at_ ((only i hunk at_).mpr rfl)
      refine .inPlace i hunk ((elsewhere i offSource offTarget).trans at_) kind role fun j other read => ?_
      obtain ⟨rfl, rfl⟩ | ⟨rfl, rfl⟩ | ⟨-, -, old⟩ := set_two_cases apart found found' read
      · exact iff_of_false newer offSource.symm
      · exact iff_of_false newer offTarget.symm
      · exact only j other old
  | moved i j first second between at_ at' removal addition role role' only =>
      obtain ⟨offSource, offTarget⟩ := off at_ ((only i first at_).mpr (.inl rfl))
      obtain ⟨offSource', offTarget'⟩ := off at' ((only j second at').mpr (.inr rfl))
      refine .moved i j first second between ((elsewhere i offSource offTarget).trans at_)
        ((elsewhere j offSource' offTarget').trans at') removal addition role role' fun m other read => ?_
      obtain ⟨rfl, rfl⟩ | ⟨rfl, rfl⟩ | ⟨-, -, old⟩ := set_two_cases apart found found' read
      · exact iff_of_false newer (not_or.mpr ⟨offSource.symm, offSource'.symm⟩)
      · exact iff_of_false newer (not_or.mpr ⟨offTarget.symm, offTarget'.symm⟩)
      · exact only m other old

/-- The next number goes to a removal and an addition. -/
theorem Grouping.pair (h : Grouping hunks next) (apart : k ≠ l) (found : hunks[k]? = some source)
    (found' : hunks[l]? = some target) (plain : source.moveGroup = none)
    (plain' : target.moveGroup = none) (removal : source.kind = .removal)
    (addition : target.kind = .addition) :
    Grouping ((hunks.set k (markMoved source next .source)).set l (markMoved target next .target))
      (next + 1) := by
  obtain ⟨here, there, -⟩ := set_two (a := markMoved source next .source)
    (b := markMoved target next .target) apart found found'
  have new : Grouped
      ((hunks.set k (markMoved source next .source)).set l (markMoved target next .target)) next := by
    refine .moved k l _ _ apart here there removal addition rfl rfl fun i other read => ?_
    obtain ⟨rfl, rfl⟩ | ⟨rfl, rfl⟩ | ⟨off, off', old⟩ := set_two_cases apart found found' read
    · exact iff_of_true rfl (.inl rfl)
    · exact iff_of_true rfl (.inr rfl)
    · refine iff_of_false (fun same => ?_) (not_or.mpr ⟨off, off'⟩)
      exact absurd (h i other _ old same).1 (Nat.lt_irrefl _)
  intro i hunk group read numbered
  obtain ⟨rfl, rfl⟩ | ⟨rfl, rfl⟩ | ⟨-, -, old⟩ := set_two_cases apart found found' read
  · cases numbered
    exact ⟨Nat.lt_succ_self _, new⟩
  · cases numbered
    exact ⟨Nat.lt_succ_self _, new⟩
  · obtain ⟨bound, grouped⟩ := h i hunk group old numbered
    exact ⟨Nat.lt_succ_of_lt bound, grouped.pair apart found found' plain plain' bound⟩

end Pair

/-- The state of the second loop: what is not consumed has no number unless it is a modification. -/
structure Paired (hunks : List DiffHunk) (state : Moving) : Prop where
  segments : state.hunks.map DiffHunk.segments = hunks.map DiffHunk.segments
  grouping : Grouping state.hunks state.nextGroup
  free : ∀ (i : Nat) (hunk : DiffHunk), state.hunks[i]? = some hunk →
    state.consumed[i]? = some false → hunk.kind ≠ .modification → hunk.moveGroup = none

theorem Paired.step {hunks : List DiffHunk} {state state' : Moving} {source : Nat}
    (held : Paired hunks state) (h : pairMove isAlphanumeric state source = some state') :
    Paired hunks state' := by
  obtain rfl | ⟨target, hunk, other, apart, free, free', found, found', removal, addition, rfl⟩ :=
    pairMove_cases h
  · exact held
  · have plain := held.free source hunk found free (by rw [removal]; decide)
    have plain' := held.free target other found' free' (by rw [addition]; decide)
    refine ⟨?_, held.grouping.pair apart found found' plain plain' removal addition, ?_⟩
    · have second : (state.hunks.set source (markMoved hunk state.nextGroup .source))[target]? =
          some other := by rw [List.getElem?_set_ne apart, found']
      refine (map_set_same second ?_).trans ((map_set_same found ?_).trans held.segments) <;> rfl
    · intro i last read untaken changed
      obtain ⟨-, taken⟩ | ⟨-, taken⟩ | ⟨off, off', untaken⟩ := set_two_cases apart free free' untaken
      · cases taken
      · cases taken
      · obtain ⟨same, -⟩ | ⟨same, -⟩ | ⟨-, -, old⟩ := set_two_cases apart found found' read
        · exact absurd same off
        · exact absurd same off'
        · exact held.free i last old untaken changed

/-- Pairing moves keeps the segments, and every number stands where it should. -/
theorem annotateMoves_grouped {hunks moved : List DiffHunk}
    (fresh : ∀ hunk ∈ hunks, hunk.moveGroup = none ∧ hunk.moveRole = none)
    (h : annotateMoves isAlphanumeric hunks = some moved) :
    moved.map DiffHunk.segments = hunks.map DiffHunk.segments ∧
      ∀ hunk ∈ moved, ∀ group, hunk.moveGroup = some group → Grouped moved group := by
  obtain ⟨⟨placed, next⟩, first, h⟩ := Option.bind_eq_some_iff.mp h
  obtain ⟨state, second, h⟩ := Option.bind_eq_some_iff.mp h
  cases h
  have start : Placed [] ([], 1) := ⟨rfl, nofun, nofun⟩
  have after := placed_loop fresh start first
  have paired : Paired hunks state := by
    refine Total.foldlM_keeps (fun state state' source _ held step => held.step step) ?_ second
    refine ⟨after.segments, after.grouping, fun i hunk found _ changed => ?_⟩
    exact after.free hunk (List.mem_of_getElem? found) changed
  refine ⟨paired.segments, fun hunk member group numbered => ?_⟩
  obtain ⟨i, found⟩ := List.mem_iff_getElem?.mp member
  exact (paired.grouping i hunk group found numbered).2

end Moves

section Similarity

variable (isAlphanumeric : Char → Bool)

/-- The words of a text, as often as they occur. -/
def wordBag (text : Text) : Multiset Text := normalizedWordBag isAlphanumeric text

/-- The measure does not depend on the order of the texts, and tells that they share six tenths of
the union of their words. -/
def MeasuresOverlap (left right : Text) : Prop :=
  isProbableMoveMatch isAlphanumeric left right = isProbableMoveMatch isAlphanumeric right left ∧
    (isProbableMoveMatch isAlphanumeric left right = some true →
      Overlap.Shares 6 10 (wordBag isAlphanumeric left) (wordBag isAlphanumeric right))

instance (left right : Text) : Decidable (MeasuresOverlap isAlphanumeric left right) :=
  inferInstanceAs (Decidable (_ ∧ (_ → _)))

variable {isAlphanumeric}

/-- The words that occur in the other text are counted for the shared ones. -/
theorem isProbableMoveMatch_iff (left right : Text) :
    isProbableMoveMatch isAlphanumeric left right = some true ↔
      (wordBag isAlphanumeric left ≠ 0 ∧ wordBag isAlphanumeric right ≠ 0) ∧
        Overlap.Counted 6 10 (wordBag isAlphanumeric left) (wordBag isAlphanumeric right) := by
  unfold isProbableMoveMatch wordBag
  generalize normalizedWordBag isAlphanumeric left = words
  generalize normalizedWordBag isAlphanumeric right = others
  dsimp only
  rw [ne_eq, ne_eq, Multiset.coe_eq_zero, Multiset.coe_eq_zero]
  by_cases empty : words = [] ∨ others = []
  · rw [if_pos empty]
    exact iff_of_false nofun fun both => empty.elim both.1.1 both.1.2
  · have within : (words.filter fun word => word ∈ others).length ≤ words.length :=
      List.length_filter_le _ _
    have inhabited : 0 < others.length :=
      List.length_pos_iff.mpr fun none => empty (.inr none)
    have total : ¬words.length + others.length -
        (words.filter fun word => word ∈ others).length = 0 := by omega
    rw [if_neg empty, Total.sub, if_pos (by omega), and_iff_right (not_or.mp empty)]
    simp only [bind, Option.bind_some, if_neg total]
    have counted : ((words : Multiset Text).filter (· ∈ (others : Multiset Text))).card =
        (words.filter fun word => word ∈ others).length := by
      rw [Multiset.filter_coe, Multiset.coe_card]
      simp only [Multiset.mem_coe]
    unfold Overlap.Counted
    rw [counted, Multiset.coe_card, Multiset.coe_card, Option.pure_def, Option.some.injEq,
      decide_eq_true_iff,
      Nat.mul_comm, Nat.mul_comm _ 10]

/-- The measure is one of overlap just where no excess of a shared word in one of the texts lifts
it over the bound. -/
theorem measuresOverlap_iff (left right : Text) :
    MeasuresOverlap isAlphanumeric left right ↔
      ¬Overlap.Lifted 6 10 (wordBag isAlphanumeric left) (wordBag isAlphanumeric right) := by
  have here := @isProbableMoveMatch_iff isAlphanumeric left right
  have there := @isProbableMoveMatch_iff isAlphanumeric right left
  have same : isProbableMoveMatch isAlphanumeric left right =
        isProbableMoveMatch isAlphanumeric right left ↔
      (isProbableMoveMatch isAlphanumeric left right = some true ↔
        isProbableMoveMatch isAlphanumeric right left = some true) := by
    obtain ⟨answer, first⟩ := Option.isSome_iff_exists.mp
      (@isProbableMoveMatch_isSome isAlphanumeric left right)
    obtain ⟨answer', second⟩ := Option.isSome_iff_exists.mp
      (@isProbableMoveMatch_isSome isAlphanumeric right left)
    rw [first, second]
    cases answer <;> cases answer' <;> decide
  unfold MeasuresOverlap
  rw [same, here, there]
  by_cases empty : wordBag isAlphanumeric left = 0 ∨ wordBag isAlphanumeric right = 0
  · refine iff_of_true ⟨iff_of_false ?_ ?_, fun both => ?_⟩ (Overlap.not_lifted_of_empty empty)
    · exact fun both => empty.elim both.1.1 both.1.2
    · exact fun both => empty.elim both.1.2 both.1.1
    · exact absurd empty (not_or.mpr both.1)
  · rw [and_iff_right (not_or.mp empty), and_iff_right (not_or.mp empty).symm]
    exact Overlap.counted_measures_iff

/-- A word that comes again and again is counted each time where it occurs in the other text. -/
theorem repeated_word_lifts :
    ¬MeasuresOverlap Char.isAlphanum "again\nagain\nagain\nagain".toList
      "again\nnever".toList := by
  decide

end Similarity

end SP42.Diff
