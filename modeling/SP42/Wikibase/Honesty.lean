import SP42.Wikibase.Diff

/-!
The honesty of the entity diff: when it has changes, and what two revisions without one
agree on.
-/
namespace SP42.Wikibase

section Pairing

theorem firstFree_spec {consumedAfter : List Bool} {after : List WikibaseStatement}
    {fits : WikibaseStatement → Bool} {index : Nat}
    (found : firstFree consumedAfter after fits = some index) :
    consumedAfter[index]? = some false ∧ ∃ new, after[index]? = some new ∧ fits new = true := by
  obtain ⟨bounded, holds, -⟩ := List.findIdx?_eq_some_iff_getElem.mp found
  rw [List.length_zip, Nat.lt_min] at bounded
  rw [List.getElem_zip, Bool.and_eq_true, Bool.not_eq_true'] at holds
  exact ⟨List.getElem?_eq_some_iff.mpr ⟨bounded.2, holds.1⟩,
    _, List.getElem?_eq_getElem bounded.1, holds.2⟩

/-- The old statements passed so far and the new ones they were paired with. -/
structure Paired (after done : List WikibaseStatement) (pairing : Pairing) : Prop where
  taken : ∀ index, index ∈ pairing.matchedPositions ↔ pairing.consumedAfter[index]? = some true
  distinct : pairing.matchedPositions.Nodup
  kept : pairing.changes = [] →
    pairing.matchedPositions.map (fun index => after[index]?.map WikibaseStatement.raw) =
      done.map fun old => some old.raw

theorem Paired.take {after done : List WikibaseStatement} {pairing : Pairing}
    (paired : Paired after done pairing) {index : Nat} {changes : List StatementChange}
    {old : WikibaseStatement} (free : pairing.consumedAfter[index]? = some false)
    (same : changes = [] → after[index]?.map WikibaseStatement.raw = some old.raw) :
    Paired after (done ++ [old]) (pairing.take index changes) := by
  obtain ⟨bounded, unset⟩ := List.getElem?_eq_some_iff.mp free
  refine ⟨fun other => ?_, ?_, fun none => ?_⟩
  · rw [Pairing.take, List.mem_append, List.mem_singleton, paired.taken]
    by_cases here : other = index
    · subst here
      simp [bounded]
    · rw [List.getElem?_set_ne (Ne.symm here)]
      simp [here]
  · refine List.nodup_append.mpr ⟨paired.distinct, List.nodup_singleton index, ?_⟩
    rintro other held _ here rfl
    rw [List.mem_singleton] at here
    rw [paired.taken, here, free] at held
    cases held
  · obtain ⟨before, now⟩ := List.append_eq_nil_iff.mp none
    rw [Pairing.take, List.map_append, List.map_append, paired.kept before]
    simp [same now]

/-- One more old statement is paired with a free new one, or a change is listed. -/
theorem Paired.step {after done : List WikibaseStatement} {pairing : Pairing}
    (paired : Paired after done pairing) (old : WikibaseStatement) :
    Paired after (done ++ [old]) (pairStep after pairing old) := by
  unfold pairStep
  split
  · next index found =>
      obtain ⟨id, -, found⟩ := Option.bind_eq_some_iff.mp found
      obtain ⟨free, new, held, -⟩ := firstFree_spec found
      refine paired.take free fun unchanged => ?_
      rw [held] at unchanged ⊢
      dsimp only at unchanged
      split at unchanged
      · cases unchanged
      · next same => rw [Option.map_some, not_not.mp same]
  · split
    · next index found =>
        obtain ⟨free, new, held, same⟩ := firstFree_spec found
        refine paired.take free fun _ => ?_
        rw [held, Option.map_some, eq_of_beq same]
    · refine ⟨paired.taken, paired.distinct, fun none => ?_⟩
      simp at none

theorem Paired.run {after done : List WikibaseStatement} {pairing : Pairing}
    (paired : Paired after done pairing) (before : List WikibaseStatement) :
    Paired after (done ++ before) (before.foldl (pairStep after) pairing) := by
  induction before generalizing done pairing with
  | nil => simpa using paired
  | cons old rest ih =>
      rw [List.foldl_cons, List.append_cons]
      exact ih (paired.step old)

theorem paired_unpaired (after : List WikibaseStatement) : Paired after [] (unpaired after) := by
  refine ⟨fun index => ?_, List.nodup_nil, fun _ => rfl⟩
  simp [unpaired, List.getElem?_replicate]

theorem size_pairStep (after : List WikibaseStatement) (pairing : Pairing)
    (old : WikibaseStatement) :
    (pairStep after pairing old).consumedAfter.length = pairing.consumedAfter.length := by
  unfold pairStep
  split
  · exact List.length_set
  · split
    · exact List.length_set
    · rfl

theorem size_pairing (after before : List WikibaseStatement) (pairing : Pairing) :
    (before.foldl (pairStep after) pairing).consumedAfter.length =
      pairing.consumedAfter.length := by
  induction before generalizing pairing with
  | nil => rfl
  | cons old rest ih => rw [List.foldl_cons, ih, size_pairStep]

end Pairing

section Order

theorem isChain_of_inOrder {positions : List Nat} (ordered : outOfOrder positions = false) :
    positions.IsChain (· ≤ ·) := by
  refine List.isChain_iff_getElem.mpr fun i bounded => ?_
  have window : (positions[i], positions[i + 1]) ∈ positions.zip positions.tail := by
    refine List.mem_iff_getElem.mpr ⟨i, ?_, ?_⟩
    · rw [List.length_zip, List.length_tail]
      omega
    · rw [List.getElem_zip, List.getElem_tail]
  simpa using List.any_eq_false.mp ordered _ window

theorem inOrder_range (size : Nat) : outOfOrder (List.range size) = false := by
  refine List.any_eq_false.mpr fun pair window => ?_
  obtain ⟨i, bounded, rfl⟩ := List.mem_iff_getElem.mp window
  simp

/-- Distinct positions in order that fill a range are that range. -/
theorem eq_range {positions : List Nat} {size : Nat} (distinct : positions.Nodup)
    (ordered : outOfOrder positions = false) (all : ∀ index, index ∈ positions ↔ index < size) :
    positions = List.range size := by
  have perm : positions.Perm (List.range size) :=
    (List.perm_ext_iff_of_nodup distinct List.nodup_range).mpr fun index => by
      rw [all, List.mem_range]
  refine perm.eq_of_pairwise (fun a b _ _ le ge => Nat.le_antisymm le ge)
    (List.isChain_iff_pairwise.mp (isChain_of_inOrder ordered)) ?_
  exact List.pairwise_lt_range.imp fun lt => Nat.le_of_lt lt

end Order

section Lists

theorem map_raw_of_range {after before : List WikibaseStatement}
    (kept : (List.range after.length).map
        (fun index => after[index]?.map WikibaseStatement.raw) =
      before.map fun old => some old.raw) :
    before.map WikibaseStatement.raw = after.map WikibaseStatement.raw := by
  have sizes := congrArg List.length kept
  rw [List.length_map, List.length_map, List.length_range] at sizes
  refine List.ext_getElem (by simp [sizes]) fun i lower upper => ?_
  have entry := congrArg (fun list => list[i]?) kept
  rw [List.length_map] at lower upper
  simpa [List.getElem?_range, lower, upper, eq_comm] using entry

/-- A statement list without a listed change has the statements it had, in their order. -/
theorem raws_of_no_changes {property : String} {before after : List WikibaseStatement}
    (none : diffStatementLists property before after = []) :
    before.map WikibaseStatement.raw = after.map WikibaseStatement.raw := by
  unfold diffStatementLists at none
  dsimp only at none
  obtain ⟨listed, reordered⟩ := List.append_eq_nil_iff.mp none
  obtain ⟨kept, added⟩ := List.append_eq_nil_iff.mp listed
  have paired := (paired_unpaired after).run before
  rw [List.nil_append] at paired
  have size := size_pairing after before (unpaired after)
  rw [show (unpaired after).consumedAfter = List.replicate after.length false from rfl,
    List.length_replicate] at size
  have ordered : outOfOrder (before.foldl (pairStep after) (unpaired after)).matchedPositions =
      false := by
    by_contra disordered
    rw [Bool.not_eq_false] at disordered
    rw [if_pos disordered] at reordered
    cases reordered
  have all : ∀ index,
      index ∈ (before.foldl (pairStep after) (unpaired after)).matchedPositions ↔
        index < after.length := by
    intro index
    rw [paired.taken]
    constructor
    · intro taken
      rw [← size]
      exact (List.getElem?_eq_some_iff.mp taken).1
    · intro bounded
      have bound := size.symm ▸ bounded
      have entry : (after[index],
          (before.foldl (pairStep after) (unpaired after)).consumedAfter[index]) ∈
          after.zip (before.foldl (pairStep after) (unpaired after)).consumedAfter :=
        List.mem_iff_getElem.mpr ⟨index, by rw [List.length_zip]; omega, List.getElem_zip⟩
      have consumed := List.filterMap_eq_nil_iff.mp added _ entry
      rw [ite_eq_left_iff] at consumed
      refine List.getElem?_eq_some_iff.mpr ⟨bound, ?_⟩
      by_contra free
      cases consumed free
  have positions := eq_range paired.distinct ordered all
  have raws := paired.kept kept
  rw [positions] at raws
  exact map_raw_of_range raws

/-- The pass over a list compared with itself, after so many statements. -/
def diagonal (size count : Nat) : Pairing where
  consumedAfter := List.replicate count true ++ List.replicate (size - count) false
  matchedPositions := List.range count
  changes := []

theorem firstFree_diagonal {list : List WikibaseStatement} {count : Nat}
    (bounded : count < list.length) {fits : WikibaseStatement → Bool}
    (fit : fits list[count] = true) :
    firstFree (diagonal list.length count).consumedAfter list fits = some count := by
  refine List.findIdx?_eq_some_iff_getElem.mpr ⟨?_, ?_, fun j earlier => ?_⟩
  · simp [diagonal]
    omega
  · rw [List.getElem_zip]
    simp [diagonal, fit]
  · rw [List.getElem_zip]
    simp [diagonal, List.getElem_append_left, earlier]

theorem take_diagonal {size count : Nat} (bounded : count < size) :
    (diagonal size count).take count [] = diagonal size (count + 1) := by
  obtain ⟨rest, rfl⟩ : ∃ rest, size = count + 1 + rest := ⟨size - (count + 1), by omega⟩
  have left : count + 1 + rest - count = rest + 1 := by omega
  have flags : (List.replicate count true ++ List.replicate (rest + 1) false).set count true =
      List.replicate (count + 1) true ++ List.replicate rest false := by
    rw [List.set_append_right count true (by rw [List.length_replicate]), List.length_replicate, Nat.sub_self, List.replicate_succ,
      List.set_cons_zero, List.replicate_succ', List.append_assoc, List.singleton_append]
  unfold diagonal Pairing.take
  rw [left, flags, List.range_succ, Nat.add_sub_cancel_left]
  rfl

theorem pairStep_diagonal {list : List WikibaseStatement} {count : Nat}
    (bounded : count < list.length) :
    pairStep list (diagonal list.length count) list[count] = diagonal list.length (count + 1) := by
  unfold pairStep
  cases named : list[count].id with
  | some id =>
      have paired : pairedById (diagonal list.length count).consumedAfter list list[count] =
          some count := by
        rw [pairedById, named]
        exact @firstFree_diagonal list count bounded (fun new => new.id == some id) (by simp [named])
      rw [paired]
      dsimp only
      rw [List.getElem?_eq_getElem bounded]
      simp [take_diagonal bounded]
  | none =>
      have unnamed : pairedById (diagonal list.length count).consumedAfter list list[count] =
          none := by
        rw [pairedById, named]
        rfl
      rw [unnamed, @firstFree_diagonal list count bounded (fun new => new.raw == list[count].raw)
        (beq_self_eq_true _)]
      exact take_diagonal bounded

theorem foldl_diagonal (list : List WikibaseStatement) {count : Nat}
    (bounded : count ≤ list.length) :
    (list.take count).foldl (pairStep list) (unpaired list) = diagonal list.length count := by
  induction count with
  | zero => simp [diagonal, unpaired]
  | succ count ih =>
      rw [List.take_succ_eq_append_getElem bounded, List.foldl_append, ih (Nat.le_of_lt bounded)]
      exact pairStep_diagonal bounded

/-- A statement list compared with itself has no changes. -/
theorem no_changes_self (property : String) (list : List WikibaseStatement) :
    diffStatementLists property list list = [] := by
  have run := foldl_diagonal list (Nat.le_refl list.length)
  rw [List.take_length] at run
  have consumed : ∀ entry ∈ list.zip (diagonal list.length list.length).consumedAfter,
      entry.2 = true := by
    intro entry member
    have flag := (List.of_mem_zip member).2
    exact List.eq_of_mem_replicate (show entry.2 ∈ List.replicate list.length true by
      simpa [diagonal] using flag)
  have added : ((list.zip (diagonal list.length list.length).consumedAfter).filterMap fun entry =>
      if entry.2 then none else some (StatementChange.added entry.1)) = [] :=
    List.filterMap_eq_nil_iff.mpr fun entry member => if_pos (consumed entry member)
  unfold diffStatementLists
  dsimp only
  rw [run, added, show (diagonal list.length list.length).matchedPositions =
    List.range list.length from rfl, inOrder_range]
  rfl

theorem map_raw_parse (property : String) (items : List Json) :
    (items.map (parseStatementObject property)).map WikibaseStatement.raw = items := by
  rw [List.map_map]
  exact List.map_id items

/-- The statements of a property have a change exactly when their JSON differs. -/
theorem statements_nil_iff (property : String) (before after : List Json) :
    diffStatementLists property (before.map (parseStatementObject property))
      (after.map (parseStatementObject property)) = [] ↔ before = after := by
  constructor
  · intro none
    rw [← map_raw_parse property before, raws_of_no_changes none, map_raw_parse]
  · rintro rfl
    exact no_changes_self property _

end Lists

section Places

/-- A label or description, when its entry has a string. -/
def termText (field language : String) (entity : Json) : Option Text :=
  ((entity.get field).bind (Json.get language)).bind valueText

def aliasList (language : String) (entity : Json) : Option (List Text) :=
  ((entity.get "aliases").bind (Json.get language)).map aliasTexts

def sitelinkAt (site : String) (entity : Json) : Option WikibaseSitelink :=
  ((entity.get "sitelinks").bind (Json.get site)).bind sitelinkOf

/-- The statements of a property: none where there is no list of them. -/
def statementsOf (property : String) (entity : Json) : List Json :=
  (((claimsOf entity).bind (Json.get property)).map statementItems).getD []

/-- A place of two entities that the diff looks at, with different content. -/
inductive ShownChange (old new : Json) : Prop where
  | label (language : String)
      (differs : termText "labels" language old ≠ termText "labels" language new)
  | description (language : String)
      (differs : termText "descriptions" language old ≠ termText "descriptions" language new)
  | aliases (language : String) (differs : aliasList language old ≠ aliasList language new)
  | sitelink (site : String) (differs : sitelinkAt site old ≠ sitelinkAt site new)
  | statement (property : String) (differs : statementsOf property old ≠ statementsOf property new)
  | other (key : String) (unmodeled : key ∉ modeledOrBookkeepingKeys ∧ key ≠ "title")
      (differs : old.get key ≠ new.get key)

variable {old new : Json}

theorem lookup_terms {entity : Json} (keyed : Keyed entity) (field language : String) :
    (parseTermMap (entity.get field)).lookup language = termText field language entity :=
  lookup_pick_membersOf (fun _ found => keyed.get found) _ language

theorem lookup_aliases {entity : Json} (keyed : Keyed entity) (language : String) :
    (parseAliasMap (entity.get "aliases")).lookup language = aliasList language entity := by
  unfold parseAliasMap aliasList
  rw [lookup_pick_membersOf fun _ found => keyed.get found]
  cases (entity.get "aliases").bind (Json.get language) <;> rfl

theorem lookup_sitelinks {entity : Json} (keyed : Keyed entity) (site : String) :
    (parseSitelinks (entity.get "sitelinks")).lookup site = sitelinkAt site entity :=
  lookup_pick_membersOf (fun _ found => keyed.get found) _ site

theorem lookup_statements {entity : Json} (keyed : Keyed entity) (requestedId property : String) :
    (parseEntityObject requestedId entity).statements.lookup property =
      ((claimsOf entity).bind (Json.get property)).map fun list =>
        (statementItems list).map (parseStatementObject property) := by
  unfold parseEntityObject
  rw [lookup_pick_membersOf keyed.claimsOf]
  cases (claimsOf entity).bind (Json.get property) <;> rfl

theorem getD_lookup_statements {entity : Json} (keyed : Keyed entity)
    (requestedId property : String) :
    ((parseEntityObject requestedId entity).statements.lookup property).getD [] =
      (statementsOf property entity).map (parseStatementObject property) := by
  rw [lookup_statements keyed, statementsOf]
  cases (claimsOf entity).bind (Json.get property) <;> rfl

theorem lookup_extra {entity : Json} (keyed : Keyed entity) (requestedId key : String) :
    (parseEntityObject requestedId entity).extra.lookup key =
      if key ∉ modeledOrBookkeepingKeys ∧ key ≠ "title" then entity.get key else none := by
  unfold parseEntityObject
  rw [lookup_pick_membersOf fun _ found => by cases found; exact keyed]
  simp only [Option.bind_some]
  cases entity.get key with
  | none => simp
  | some value => rfl

theorem unique_statements {entity : Json} (keyed : Keyed entity) :
    Entries.Unique (parseEntityObject "" entity).statements := by
  unfold parseEntityObject
  dsimp only
  exact unique_pick_membersOf keyed.claimsOf _

theorem unique_extra {entity : Json} (keyed : Keyed entity) :
    Entries.Unique (parseEntityObject "" entity).extra := by
  have whole : ∀ json ∈ some entity, Keyed json := fun _ found => Option.some.inj found ▸ keyed
  unfold parseEntityObject
  dsimp only
  exact unique_pick_membersOf whole _

theorem unique_terms {entity : Json} (keyed : Keyed entity) (field : String) :
    Entries.Unique (parseTermMap (entity.get field)) :=
  unique_pick_membersOf (fun _ found => keyed.get found) _

theorem unique_aliases {entity : Json} (keyed : Keyed entity) :
    Entries.Unique (parseAliasMap (entity.get "aliases")) :=
  unique_pick_membersOf (fun _ found => keyed.get found) _

theorem unique_sitelinks {entity : Json} (keyed : Keyed entity) :
    Entries.Unique (parseSitelinks (entity.get "sitelinks")) :=
  unique_pick_membersOf (fun _ found => keyed.get found) _

/-- No statement of any property has a change exactly when the JSON lists agree. -/
theorem statement_changes_nil_iff (keyedOld : Keyed old) (keyedNew : Keyed new) :
    (diffEntities (some (parseEntityObject "" old)) (parseEntityObject "" new)).statements = [] ↔
      ∀ property, statementsOf property old = statementsOf property new := by
  have uniqueOld := unique_statements keyedOld
  have uniqueNew := unique_statements keyedNew
  unfold diffEntities
  dsimp only [Option.getD_some]
  rw [List.append_eq_nil_iff, List.flatMap_eq_nil_iff, List.flatMap_eq_nil_iff]
  constructor
  · rintro ⟨kept, known⟩ property
    refine (statements_nil_iff property _ _).mp ?_
    have readOld := getD_lookup_statements keyedOld "" property
    have readNew := getD_lookup_statements keyedNew "" property
    rw [← readOld, ← readNew]
    cases found : (parseEntityObject "" old).statements.lookup property with
    | some before => exact kept (property, before) (Entries.mem_of_lookup found)
    | none =>
        cases added : (parseEntityObject "" new).statements.lookup property with
        | none => exact no_changes_self property []
        | some after => simpa [found] using known (property, after) (Entries.mem_of_lookup added)
  · intro agree
    have lists : ∀ property,
        diffStatementLists property
          (((parseEntityObject "" old).statements.lookup property).getD [])
          (((parseEntityObject "" new).statements.lookup property).getD []) = [] := by
      intro property
      rw [getD_lookup_statements keyedOld, getD_lookup_statements keyedNew, agree]
      exact no_changes_self property _
    refine ⟨fun entry held => ?_, fun entry held => ?_⟩
    · simpa [Entries.lookup_of_mem uniqueOld held] using lists entry.1
    · split
      · rfl
      · next fresh =>
          rw [Bool.not_eq_true, Option.isSome_eq_false_iff, Option.isNone_iff_eq_none] at fresh
          simpa [fresh, Entries.lookup_of_mem uniqueNew held] using lists entry.1

theorem hasChanges_eq_false (diff : EntityDiff) :
    diff.hasChanges = false ↔ diff.labels = [] ∧ diff.descriptions = [] ∧ diff.aliases = [] ∧
      diff.sitelinks = [] ∧ diff.statements = [] ∧ diff.other = [] := by
  simp [EntityDiff.hasChanges, and_assoc]

theorem term_changes_nil_iff (keyedOld : Keyed old) (keyedNew : Keyed new) (field : String) :
    diffTermMaps (parseTermMap (old.get field)) (parseTermMap (new.get field)) = [] ↔
      ∀ language, termText field language old = termText field language new := by
  unfold diffTermMaps
  rw [Entries.changes_nil_iff _ (unique_terms keyedOld field) (unique_terms keyedNew field)]
  refine forall_congr' fun language => ?_
  rw [lookup_terms keyedOld, lookup_terms keyedNew]

theorem other_changes_nil_iff (keyedOld : Keyed old) (keyedNew : Keyed new) :
    (diffEntities (some (parseEntityObject "" old)) (parseEntityObject "" new)).other = [] ↔
      ∀ key, key ∉ modeledOrBookkeepingKeys ∧ key ≠ "title" → old.get key = new.get key := by
  unfold diffEntities
  dsimp only [Option.getD_some]
  rw [Entries.changes_nil_iff _ (unique_extra keyedOld) (unique_extra keyedNew)]
  refine forall_congr' fun key => ?_
  rw [lookup_extra keyedOld, lookup_extra keyedNew]
  by_cases unmodeled : key ∉ modeledOrBookkeepingKeys ∧ key ≠ "title"
  · rw [if_pos unmodeled, if_pos unmodeled, imp_iff_right unmodeled]
  · rw [if_neg unmodeled, if_neg unmodeled]
    exact iff_of_true rfl fun is => absurd is unmodeled

/-- The diff has a change exactly when one of the places it looks at has. -/
theorem hasChanges_iff (keyedOld : Keyed old) (keyedNew : Keyed new) :
    (diffEntities (some (parseEntityObject "" old)) (parseEntityObject "" new)).hasChanges = false ↔
      ¬ ShownChange old new := by
  have aliases : (diffEntities (some (parseEntityObject "" old))
      (parseEntityObject "" new)).aliases = [] ↔
      ∀ language, aliasList language old = aliasList language new := by
    unfold diffEntities parseEntityObject
    dsimp only [Option.getD_some]
    rw [Entries.changes_nil_iff _ (unique_aliases keyedOld) (unique_aliases keyedNew)]
    refine forall_congr' fun language => ?_
    rw [lookup_aliases keyedOld, lookup_aliases keyedNew]
  have sitelinks : (diffEntities (some (parseEntityObject "" old))
      (parseEntityObject "" new)).sitelinks = [] ↔
      ∀ site, sitelinkAt site old = sitelinkAt site new := by
    unfold diffEntities parseEntityObject
    dsimp only [Option.getD_some]
    rw [Entries.changes_nil_iff _ (unique_sitelinks keyedOld) (unique_sitelinks keyedNew)]
    refine forall_congr' fun site => ?_
    rw [lookup_sitelinks keyedOld, lookup_sitelinks keyedNew]
  have labels := term_changes_nil_iff keyedOld keyedNew "labels"
  have descriptions := term_changes_nil_iff keyedOld keyedNew "descriptions"
  have statements := statement_changes_nil_iff keyedOld keyedNew
  have other := other_changes_nil_iff keyedOld keyedNew
  rw [hasChanges_eq_false, aliases, sitelinks, statements, other]
  constructor
  · rintro ⟨sameLabels, sameDescriptions, sameAliases, sameSitelinks, sameStatements, sameOther⟩
    intro shown
    cases shown with
    | label language differs => exact differs (labels.mp sameLabels language)
    | description language differs => exact differs (descriptions.mp sameDescriptions language)
    | aliases language differs => exact differs (sameAliases language)
    | sitelink site differs => exact differs (sameSitelinks site)
    | statement property differs => exact differs (sameStatements property)
    | other key unmodeled differs => exact differs (sameOther key unmodeled)
  · intro hidden
    refine ⟨labels.mpr fun language => ?_, descriptions.mpr fun language => ?_,
      fun language => ?_, fun site => ?_, fun property => ?_, fun key unmodeled => ?_⟩
    · exact not_not.mp fun differs => hidden (.label language differs)
    · exact not_not.mp fun differs => hidden (.description language differs)
    · exact not_not.mp fun differs => hidden (.aliases language differs)
    · exact not_not.mp fun differs => hidden (.sitelink site differs)
    · exact not_not.mp fun differs => hidden (.statement property differs)
    · exact not_not.mp fun differs => hidden (.other key unmodeled differs)

end Places

section Documents

/-- Equal once the bookkeeping keys are taken out. -/
def SameContent (old new : Json) : Prop :=
  ∀ key, key ∉ ["lastrevid", "modified", "pageid", "ns", "title"] → old.get key = new.get key

theorem parsed_of_accepted {doc : Json} {entity : WikibaseEntity}
    (accepted : parseEntityContent doc = .ok entity) :
    ∃ located, locateEntityObject "" doc = .ok located ∧
      parseEntityObject "" located = entity := by
  unfold parseEntityContent parseEntity at accepted
  cases found : locateEntityObject "" doc with
  | error reason =>
      rw [found] at accepted
      cases accepted
  | ok located =>
      rw [found] at accepted
      dsimp only [Except.map] at accepted
      split at accepted
      · cases accepted
      · cases accepted
        exact ⟨located, rfl, rfl⟩

/-- An empty diff means equal content exactly for the documents that agree up to
bookkeeping or differ at one of the places the diff looks at. -/
theorem silent_diff_iff {old new before after : Json} {oldEntity newEntity : WikibaseEntity}
    (keyedOld : Keyed old) (keyedNew : Keyed new)
    (acceptedOld : parseEntityContent old = .ok oldEntity)
    (acceptedNew : parseEntityContent new = .ok newEntity)
    (locatedOld : locateEntityObject "" old = .ok before)
    (locatedNew : locateEntityObject "" new = .ok after) :
    ((diffEntities (some oldEntity) newEntity).hasChanges = false → SameContent old new) ↔
      SameContent old new ∨ ShownChange before after := by
  obtain ⟨_, foundOld, rfl⟩ := parsed_of_accepted acceptedOld
  obtain ⟨_, foundNew, rfl⟩ := parsed_of_accepted acceptedNew
  cases foundOld.symm.trans locatedOld
  cases foundNew.symm.trans locatedNew
  rw [hasChanges_iff (keyedOld.located locatedOld) (keyedNew.located locatedNew), or_comm]
  exact (or_iff_not_imp_left).symm

/-- An item with no claims and the given value under the other statement key. -/
def itemWith (statements : Json) : Json :=
  .object [("claims", .object []), ("id", .string "Q42".toList), ("statements", statements)]

def instanceStatement : Json :=
  .object [("P31", .array [.object [("id", .string "Q42$1".toList), ("type", .null)]])]

theorem keyed_itemWith {statements : Json} (keyed : Keyed statements) :
    Keyed (itemWith statements) := by
  refine ⟨?_, ⟨List.nodup_nil, trivial⟩, trivial, keyed, trivial⟩
  show ["claims", "id", "statements"].Nodup
  decide

theorem keyed_instanceStatement : Keyed instanceStatement := by
  refine ⟨List.nodup_singleton _, ⟨⟨?_, trivial, trivial, trivial⟩, trivial⟩, trivial⟩
  unfold Entries.Unique
  decide

theorem accepted_itemWith (statements : Json) :
    parseEntityContent (itemWith statements) =
      .ok (parseEntityObject "" (itemWith statements)) := by
  rfl

theorem silent_diff_of_item :
    ((diffEntities (some (parseEntityObject "" (itemWith .null)))
      (parseEntityObject "" (itemWith instanceStatement))).hasChanges = false →
        SameContent (itemWith .null) (itemWith instanceStatement)) ↔
      SameContent (itemWith .null) (itemWith instanceStatement) ∨
        ShownChange (itemWith .null) (itemWith instanceStatement) :=
  silent_diff_iff (keyed_itemWith trivial) (keyed_itemWith keyed_instanceStatement)
    (accepted_itemWith _) (accepted_itemWith _) rfl rfl

/-- A statement added under `statements` of an item that has `claims` is no change. -/
theorem statement_hidden :
    ∃ old new : Json, ∃ oldEntity newEntity : WikibaseEntity, Keyed old ∧ Keyed new ∧
      parseEntityContent old = .ok oldEntity ∧ parseEntityContent new = .ok newEntity ∧
      (diffEntities (some oldEntity) newEntity).hasChanges = false ∧ ¬ SameContent old new := by
  refine ⟨itemWith .null, itemWith instanceStatement, _, _, keyed_itemWith trivial,
    keyed_itemWith keyed_instanceStatement, accepted_itemWith _, accepted_itemWith _, rfl, ?_⟩
  intro same
  cases same "statements" (by decide)

end Documents

end SP42.Wikibase
