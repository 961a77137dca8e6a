import SP42.Wikibase.Honesty
import Mathlib.Data.List.Pairwise

/-!
What becomes of each statement of a property. The pass pairs old statements with new ones, by their
id or else by their whole JSON, and the changes are told from the pairs.
-/
namespace SP42.Wikibase

section Partners

/-- The new statement that an old one is paired with. -/
def partnerOf (after : List WikibaseStatement) (pairing : Pairing) (old : WikibaseStatement) :
    Option Nat :=
  (pairedById pairing.consumedAfter after old).or
    (firstFree pairing.consumedAfter after fun new => new.raw == old.raw)

def partnersFrom (after : List WikibaseStatement) :
    Pairing → List WikibaseStatement → List (Option Nat)
  | _, [] => []
  | pairing, old :: rest =>
      partnerOf after pairing old :: partnersFrom after (pairStep after pairing old) rest

/-- What is listed about an old statement: it is removed, changed, or the same. -/
def oldChange (after : List WikibaseStatement) (old : WikibaseStatement) :
    Option Nat → Option StatementChange
  | none => some (.removed old)
  | some index => after[index]?.bind fun new =>
      if old.raw ≠ new.raw then some (.changed old new (statementChangeParts old new)) else none

variable {after : List WikibaseStatement} {pairing : Pairing} {old : WikibaseStatement}

/-- One step takes the partner and lists what becomes of the statement. -/
theorem pairStep_partner : (pairStep after pairing old).changes =
      pairing.changes ++ (oldChange after old (partnerOf after pairing old)).toList ∧
    (pairStep after pairing old).matchedPositions =
      pairing.matchedPositions ++ (partnerOf after pairing old).toList := by
  rw [pairStep, partnerOf]
  cases byId : pairedById pairing.consumedAfter after old with
  | some index =>
      refine ⟨?_, rfl⟩
      rw [Option.some_or, oldChange]
      dsimp only [Pairing.take]
      refine congrArg _ ?_
      cases after[index]? with
      | none => rfl
      | some new =>
          dsimp only [Option.bind_some]
          split <;> rfl
  | none =>
      rw [Option.none_or]
      cases found : firstFree pairing.consumedAfter after fun new => new.raw == old.raw with
      | some index =>
          obtain ⟨-, new, held, same⟩ := firstFree_spec found
          refine ⟨?_, rfl⟩
          rw [oldChange, held, Option.bind_some, if_neg (not_not_intro (eq_of_beq same).symm)]
          rfl
      | none => exact ⟨rfl, (List.append_nil _).symm⟩

/-- The run lists what becomes of every old statement, one after the other. -/
theorem pairing_partners (before : List WikibaseStatement) (pairing : Pairing) :
    (before.foldl (pairStep after) pairing).changes = pairing.changes ++
        (before.zip (partnersFrom after pairing before)).filterMap
          (fun entry => oldChange after entry.1 entry.2) ∧
      (before.foldl (pairStep after) pairing).matchedPositions =
        pairing.matchedPositions ++ (partnersFrom after pairing before).filterMap id := by
  induction before generalizing pairing with
  | nil => exact ⟨(List.append_nil _).symm, (List.append_nil _).symm⟩
  | cons old rest ih =>
      obtain ⟨listed, taken⟩ := ih (pairStep after pairing old)
      obtain ⟨change, position⟩ := @pairStep_partner after pairing old
      rw [List.foldl_cons, listed, taken, change, position, partnersFrom, List.zip_cons_cons,
        List.filterMap_cons, List.filterMap_cons, List.append_assoc, List.append_assoc]
      refine ⟨congrArg _ ?_, congrArg _ ?_⟩
      · cases oldChange after old (partnerOf after pairing old) <;> rfl
      · cases partnerOf after pairing old <;> rfl

theorem length_partnersFrom (before : List WikibaseStatement) (pairing : Pairing) :
    (partnersFrom after pairing before).length = before.length := by
  induction before generalizing pairing with
  | nil => rfl
  | cons old rest ih => exact congrArg Nat.succ (ih _)

theorem partnersFrom_append (before later : List WikibaseStatement) (pairing : Pairing) :
    partnersFrom after pairing (before ++ later) = partnersFrom after pairing before ++
      partnersFrom after (before.foldl (pairStep after) pairing) later := by
  induction before generalizing pairing with
  | nil => rfl
  | cons old rest ih => exact congrArg _ (ih _)

end Partners

section Conservation

/-- No old statement is paired with a new one before the partner of an earlier one. -/
def Increasing (partners : List (Option Nat)) : Prop :=
  partners.Pairwise fun earlier later => ∀ i ∈ earlier, ∀ j ∈ later, i < j

instance (partners : List (Option Nat)) : Decidable (Increasing partners) :=
  inferInstanceAs (Decidable (partners.Pairwise _))

/-- The one place of a list whose statement has the id. -/
def OnlyAt (list : List WikibaseStatement) (id : Text) (place : Nat) : Prop :=
  ∀ other, (∃ statement, list[other]? = some statement ∧ statement.id = some id) ↔ other = place

/-- The changes are those of the pairs: an old statement without a partner is removed, one whose
partner has other JSON is changed, a new statement that is no partner is added, and a pairing
that is not increasing is a reorder. -/
structure Conserves (property : String) (before after : List WikibaseStatement)
    (partners : List (Option Nat)) (changes : List StatementChange) : Prop where
  length : partners.length = before.length
  inside : ∀ index, some index ∈ partners → index < after.length
  oneToOne : ∀ (place other index : Nat), partners[place]? = some (some index) →
    partners[other]? = some (some index) → place = other
  sameId : ∀ (place index : Nat) old new, before[place]? = some old → after[index]? = some new →
    partners[place]? = some (some index) → old.id = new.id
  unrepeated : ∀ id (place index : Nat), OnlyAt before id place → OnlyAt after id index →
    partners[place]? = some (some index)
  listed : changes =
    ((before.zip partners).filterMap fun entry => oldChange after entry.1 entry.2) ++
      (after.zipIdx.filterMap fun entry =>
        if some entry.2 ∈ partners then none else some (.added entry.1)) ++
      if Increasing partners then [] else [.reordered property]

end Conservation

section Order

theorem increasing_iff {partners : List (Option Nat)} :
    Increasing partners ↔ (partners.filterMap id).Pairwise (· < ·) := by
  rw [List.pairwise_filterMap]
  rfl

/-- Among distinct positions one that is smaller than the one before it tells a disorder. -/
theorem inOrder_iff {positions : List Nat} (distinct : positions.Nodup) :
    outOfOrder positions = false ↔ positions.Pairwise (· < ·) := by
  constructor
  · intro ordered
    have weak := List.isChain_iff_pairwise.mp (isChain_of_inOrder ordered)
    exact weak.imp₂ (fun a b le ne => Nat.lt_of_le_of_ne le ne) distinct
  · intro strict
    refine List.any_eq_false.mpr fun pair window => ?_
    obtain ⟨i, bounded, rfl⟩ := List.mem_iff_getElem.mp window
    rw [List.length_zip, List.length_tail] at bounded
    have less := List.pairwise_iff_getElem.mp strict i (i + 1) (by omega) (by omega)
      (Nat.lt_succ_self i)
    rw [List.getElem_zip, List.getElem_tail]
    simpa using Nat.le_of_lt less

end Order

section Runs

variable {before after : List WikibaseStatement}

/-- The partners of the whole pass. -/
def partners (before after : List WikibaseStatement) : List (Option Nat) :=
  partnersFrom after (unpaired after) before

theorem matchedPositions_run : (before.foldl (pairStep after) (unpaired after)).matchedPositions =
    (partners before after).filterMap id :=
  (pairing_partners before (unpaired after)).2.trans (List.nil_append _)

theorem mem_partners_iff {index : Nat} : some index ∈ partners before after ↔
    (before.foldl (pairStep after) (unpaired after)).consumedAfter[index]? = some true := by
  rw [← ((paired_unpaired after).run before).taken, matchedPositions_run, List.mem_filterMap]
  constructor
  · exact fun member => ⟨some index, member, rfl⟩
  · rintro ⟨partner, member, same⟩
    exact same ▸ member

theorem length_consumed :
    (before.foldl (pairStep after) (unpaired after)).consumedAfter.length = after.length :=
  (size_pairing after before (unpaired after)).trans List.length_replicate

/-- The partner of a statement is found from what the statements before it took. -/
theorem partners_at {place : Nat} {old : WikibaseStatement} (held : before[place]? = some old) :
    (partners before after)[place]? = some (partnerOf after
      ((before.take place).foldl (pairStep after) (unpaired after)) old) := by
  obtain ⟨bounded, rfl⟩ := List.getElem?_eq_some_iff.mp held
  have split : before = before.take place ++ before[place] :: before.drop (place + 1) := by
    rw [List.getElem_cons_drop, List.take_append_drop]
  have long : (partnersFrom after (unpaired after) (before.take place)).length = place := by
    rw [length_partnersFrom, List.length_take, Nat.min_eq_left (Nat.le_of_lt bounded)]
  rw [partners]
  conv_lhs => rw [split]
  rw [partnersFrom_append, List.getElem?_append_right (Nat.le_of_eq long), long, Nat.sub_self]
  rfl

theorem partners_take {place : Nat} :
    partners (before.take place) after <+: partners before after := by
  have whole := @partnersFrom_append after (before.take place) (before.drop place) (unpaired after)
  rw [List.take_append_drop] at whole
  exact ⟨_, whole.symm⟩

theorem partners_oneToOne {place other index : Nat}
    (here : (partners before after)[place]? = some (some index))
    (there : (partners before after)[other]? = some (some index)) : place = other := by
  have distinct := ((paired_unpaired after).run before).distinct
  rw [matchedPositions_run, List.Nodup, List.pairwise_filterMap, List.pairwise_iff_getElem]
    at distinct
  obtain ⟨bounded, first⟩ := List.getElem?_eq_some_iff.mp here
  obtain ⟨bound, second⟩ := List.getElem?_eq_some_iff.mp there
  rcases Nat.lt_trichotomy place other with less | same | less
  · exact absurd rfl (distinct place other bounded bound less index first index second)
  · exact same
  · exact absurd rfl (distinct other place bound bounded less index second index first)

/-- The id is the one in the JSON. -/
def Faithful (list : List WikibaseStatement) : Prop :=
  ∀ statement ∈ list, statement.id = (statement.raw.get "id").bind Json.asStr

theorem faithful_parse (property : String) (items : List Json) :
    Faithful (items.map (parseStatementObject property)) := by
  intro statement member
  obtain ⟨item, -, rfl⟩ := List.mem_map.mp member
  rfl

theorem partnerOf_sameId {pairing : Pairing} {old : WikibaseStatement} {index : Nat}
    (named : old.id = (old.raw.get "id").bind Json.asStr) (faithful : Faithful after)
    (found : partnerOf after pairing old = some index) :
    ∃ new, after[index]? = some new ∧ new.id = old.id := by
  rw [partnerOf] at found
  cases byId : pairedById pairing.consumedAfter after old with
  | some place =>
      rw [byId] at found
      cases found
      obtain ⟨id, has, free⟩ := Option.bind_eq_some_iff.mp byId
      obtain ⟨-, new, held, same⟩ := firstFree_spec free
      exact ⟨new, held, (eq_of_beq same).trans has.symm⟩
  | none =>
      rw [byId, Option.none_or] at found
      obtain ⟨-, new, held, same⟩ := firstFree_spec found
      refine ⟨new, held, ?_⟩
      rw [faithful new (List.mem_of_getElem? held), named, eq_of_beq same]

theorem partners_sameId (faithfulBefore : Faithful before) (faithful : Faithful after)
    {place index : Nat} {old new : WikibaseStatement} (there : before[place]? = some old)
    (here : after[index]? = some new)
    (paired : (partners before after)[place]? = some (some index)) : old.id = new.id := by
  rw [partners_at there] at paired
  have named := faithfulBefore old (List.mem_of_getElem? there)
  obtain ⟨other, held, same⟩ := partnerOf_sameId named faithful (Option.some.inj paired)
  cases here.symm.trans held
  exact same.symm

/-- An old statement whose id comes once on both sides finds its namesake free. -/
theorem partners_unrepeated (faithfulBefore : Faithful before) (faithful : Faithful after)
    {id : Text} {place index : Nat} (onlyOld : OnlyAt before id place)
    (onlyNew : OnlyAt after id index) : (partners before after)[place]? = some (some index) := by
  obtain ⟨old, there, oldId⟩ := (onlyOld place).mpr rfl
  obtain ⟨new, here, newId⟩ := (onlyNew index).mpr rfl
  rw [partners_at there]
  refine congrArg some ?_
  obtain ⟨bounded, rfl⟩ := List.getElem?_eq_some_iff.mp here
  have size := @length_consumed (before.take place) after
  -- nobody else took the new statement
  have free (inside : index < ((before.take place).foldl (pairStep after)
      (unpaired after)).consumedAfter.length) :
      ((before.take place).foldl (pairStep after) (unpaired after)).consumedAfter[index] = false := by
    by_contra taken
    rw [Bool.not_eq_false] at taken
    have member := mem_partners_iff.mpr (List.getElem?_eq_some_iff.mpr ⟨inside, taken⟩)
    obtain ⟨earlier, inside, pair⟩ := List.mem_iff_getElem.mp member
    have less : earlier < place := by
      rw [partners, length_partnersFrom, List.length_take] at inside
      exact (Nat.lt_min.mp inside).1
    have pairAt : (partners before after)[earlier]? = some (some index) := by
      obtain ⟨rest, whole⟩ := @partners_take before after place
      rw [← whole, List.getElem?_append_left inside, List.getElem?_eq_getElem inside, pair]
    have long : earlier < before.length := by
      have total := (List.getElem?_eq_some_iff.mp there).1
      exact Nat.lt_trans less total
    have same := partners_sameId faithfulBefore faithful (List.getElem?_eq_getElem long) here pairAt
    exact absurd ((onlyOld earlier).mp ⟨_, List.getElem?_eq_getElem long, same.trans newId⟩)
      (Nat.ne_of_lt less)
  have first : pairedById ((before.take place).foldl (pairStep after)
      (unpaired after)).consumedAfter after old = some index := by
    rw [pairedById, oldId]
    refine List.findIdx?_eq_some_iff_getElem.mpr ⟨?_, ?_, fun other less => ?_⟩
    · rw [List.length_zip, size, Nat.min_self]
      exact bounded
    · rw [List.getElem_zip]
      simp [free, newId]
    · rw [List.getElem_zip]
      have stands : other < after.length := Nat.lt_trans less bounded
      have differs : after[other].id ≠ some id := fun same =>
        absurd ((onlyNew other).mp ⟨_, List.getElem?_eq_getElem stands, same⟩) (Nat.ne_of_lt less)
      simp [differs]
  rw [partnerOf, first]
  rfl

/-- The new statements that are nobody's partner are those not consumed. -/
theorem added_eq :
    ((after.zip (before.foldl (pairStep after) (unpaired after)).consumedAfter).filterMap
      fun entry => if entry.2 then none else some (StatementChange.added entry.1)) =
    after.zipIdx.filterMap fun entry =>
      if some entry.2 ∈ partners before after then none else some (.added entry.1) := by
  have flags : (before.foldl (pairStep after) (unpaired after)).consumedAfter =
      (List.range after.length).map fun index => decide (some index ∈ partners before after) := by
    refine List.ext_getElem (by simp [length_consumed]) fun index lower upper => ?_
    rw [List.getElem_map, List.getElem_range, Bool.eq_iff_iff, decide_eq_true_iff, mem_partners_iff,
      List.getElem?_eq_getElem lower, Option.some_inj]
  rw [flags, List.zip_map_right, List.filterMap_map, List.zipIdx_eq_zip_range',
    ← List.range_eq_range']
  refine List.filterMap_congr fun entry _ => ?_
  simp

theorem listed_eq (property : String) : diffStatementLists property before after =
    ((before.zip (partners before after)).filterMap fun entry => oldChange after entry.1 entry.2) ++
      (after.zipIdx.filterMap fun entry =>
        if some entry.2 ∈ partners before after then none else some (.added entry.1)) ++
      if Increasing (partners before after) then [] else [.reordered property] := by
  have distinct := ((paired_unpaired after).run before).distinct
  have order := (inOrder_iff distinct).trans
    (matchedPositions_run ▸ (@increasing_iff (partners before after)).symm)
  rw [diffStatementLists, added_eq, (pairing_partners before (unpaired after)).1]
  refine congrArg _ ?_
  by_cases increasing : Increasing (partners before after)
  · rw [if_pos increasing, order.mpr increasing]
    rfl
  · rw [if_neg increasing, if_pos (eq_true_of_ne_false (mt order.mp increasing))]

theorem partners_conserve (property : String) (faithfulBefore : Faithful before)
    (faithful : Faithful after) :
    Conserves property before after (partners before after)
      (diffStatementLists property before after) where
  length := length_partnersFrom _ _
  inside index member := by
    rw [← @length_consumed before]
    exact (List.getElem?_eq_some_iff.mp (mem_partners_iff.mp member)).1
  oneToOne _ _ _ := partners_oneToOne
  sameId _ _ _ _ := partners_sameId faithfulBefore faithful
  unrepeated _ _ _ := partners_unrepeated faithfulBefore faithful
  listed := listed_eq property

/-- The changes of two statement lists are those of a pairing of their statements, and there are
none exactly when the lists of JSON are equal. -/
theorem diffStatementLists_conserves (property : String) (before after : List Json) :
    (∃ partners, Conserves property (before.map (parseStatementObject property))
      (after.map (parseStatementObject property)) partners
      (diffStatementLists property (before.map (parseStatementObject property))
        (after.map (parseStatementObject property)))) ∧
    (diffStatementLists property (before.map (parseStatementObject property))
      (after.map (parseStatementObject property)) = [] ↔ before = after) :=
  ⟨⟨_, partners_conserve property (faithful_parse property before)
    (faithful_parse property after)⟩, statements_nil_iff property before after⟩

end Runs

end SP42.Wikibase
