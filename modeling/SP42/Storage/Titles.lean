import SP42.Lib.Framing
import SP42.Storage.Plan

/-!
Which documents of a plan have a page of their own. Normalisation is lossy, so
two slugs of one family may name one page; and a shared document may lie where
a personal one does if the owner's tree is mounted under the user's page.
-/
namespace SP42.Storage

section Normalise

theorem mapTitleCharacter_ne_slash (c : Char) : mapTitleCharacter c ≠ '/' := by
  unfold mapTitleCharacter
  split
  · decide
  · next outside =>
      split
      · decide
      · intro slash
        exact outside (by simp [slash])

theorem mem_foldSeparators {c : Char} {last : Bool} {raw : Text}
    (h : c ∈ foldSeparators last raw) : ∃ original, c = mapTitleCharacter original := by
  induction raw generalizing last with
  | nil => cases h
  | cons first rest ih =>
      unfold foldSeparators at h
      dsimp only at h
      split at h
      · exact ih h
      · rcases List.mem_cons.mp h with here | there
        · exact ⟨first, here⟩
        · exact ih there

/-- A normalised segment is a single level of a title. -/
theorem normalizeTitleSegment_no_slash (raw : Text) : '/' ∉ normalizeTitleSegment raw := by
  intro slash
  obtain ⟨original, same⟩ := mem_foldSeparators (Text.mem_of_mem_trimMatches slash)
  exact mapTitleCharacter_ne_slash original same.symm

end Normalise

/-- The part of a title before the project root. -/
def titleOwner (namespace_ username : Text) : Text :=
  namespace_ ++ ":".toList ++ normalizeTitleSegment username

theorem buildTitle_eq (namespace_ username root : Text) (segments : List Text) :
    buildTitle namespace_ username (root :: segments) = titleOwner namespace_ username ++
      (root :: segments).flatMap fun segment => '/' :: normalizeTitleSegment segment := by
  unfold buildTitle titleOwner
  rw [List.map_cons, Text.join_cons]
  simp [List.flatMap_map]

/-- The last level of an owner's part has the colon, so no normalised segment follows a slash there. -/
theorem titleOwner_last {namespace_ username above segment : Text} (plain : ':' ∉ segment)
    (h : titleOwner namespace_ username = above ++ '/' :: segment) : False := by
  unfold titleOwner at h
  have slashFree := normalizeTitleSegment_no_slash username
  have split : namespace_ ++ ':' :: normalizeTitleSegment username = above ++ '/' :: segment := by
    simpa using h
  rcases List.append_eq_append_iff.mp split with ⟨more, rfl, rest⟩ | ⟨more, rfl, rest⟩
  · cases more with
    | nil => cases rest
    | cons first more =>
        obtain ⟨_, rest⟩ := List.cons.inj rest
        exact slashFree (rest ▸ by simp)
  · cases more with
    | nil => cases rest
    | cons first more =>
        obtain ⟨_, rest⟩ := List.cons.inj rest
        exact plain (rest ▸ by simp)

/-- The plan's documents but for the registry, which is the shared root. -/
def planDocuments (config : WikiStorageConfig) (input : WikiStoragePlanInput) :
    List WikiStorageDocument :=
  let plan := buildWikiStoragePlan config input
  plan.personalRoot :: plan.personalDocuments ++ plan.sharedDocuments

/-- Documents of different kinds on one wiki are different pages. -/
def PagesDistinct (config : WikiStorageConfig) (input : WikiStoragePlanInput) : Prop :=
  ∀ document ∈ planDocuments config input, ∀ other ∈ planDocuments config input,
    document.kind ≠ other.kind → document.siteWikiId = other.siteWikiId →
    document.title ≠ other.title

/-- Within each family the slugs stay different when they are normalised. -/
def SlugsDistinct (input : WikiStoragePlanInput) : Prop :=
  ∀ family : SharedFamily, ∀ slug ∈ family.slugs input, ∀ other ∈ family.slugs input,
    normalizeTitleSegment slug = normalizeTitleSegment other → slug = other

/-- The user's page is the owner's page of the target wiki, the project root is named as a
family is, and a slug of that family names one of the user's two plain documents. -/
def SharedUnderPersonal (config : WikiStorageConfig) (input : WikiStoragePlanInput) : Prop :=
  input.homeWikiId = config.metaWikiId ∧
    titleOwner config.personalNamespace input.username =
      titleOwner config.sharedNamespace input.sharedOwnerUsername ++
        '/' :: normalizeTitleSegment config.projectRootSegment ++
        '/' :: normalizeTitleSegment input.targetWikiId ∧
    ∃ family : SharedFamily,
      normalizeTitleSegment config.projectRootSegment = family.segment ∧
      ∃ slug ∈ family.slugs input, normalizeTitleSegment slug = "Profile".toList ∨
        normalizeTitleSegment slug = "Preferences".toList

section Documents

variable {config : WikiStorageConfig} {input : WikiStoragePlanInput}

/-- What follows the project root in the title of a personal document. -/
def personalLevels (target : Text) : WikiStorageDocumentKind → List Text
  | .personalProfile => ["Profile".toList]
  | .personalPreferences => ["Preferences".toList]
  | .personalQueue _ => ["Queues".toList, target]
  | .personalWorkspace _ => ["Workspace".toList, target]
  | .personalLabels _ => ["Labels".toList, target]
  | _ => []

def personalKinds (target : Text) : List WikiStorageDocumentKind :=
  [.personalIndex, .personalProfile, .personalPreferences, .personalQueue target,
    .personalWorkspace target, .personalLabels target]

/-- A document of the plan is a personal one or one of a family. -/
theorem mem_planDocuments {document : WikiStorageDocument}
    (h : document ∈ planDocuments config input) :
    (document.siteWikiId = input.homeWikiId ∧ document.kind ∈ personalKinds input.targetWikiId ∧
      document.title = buildPersonalTitle config input.username
        (personalLevels input.targetWikiId document.kind)) ∨
    ∃ family : SharedFamily, ∃ slug ∈ family.slugs input,
      document = family.document config input slug := by
  unfold planDocuments buildWikiStoragePlan buildPersonalDocuments buildSharedDocuments at h
  simp only [List.cons_append, List.nil_append, List.mem_cons, List.mem_flatMap, List.mem_map] at h
  rcases h with rfl | rfl | rfl | rfl | rfl | rfl | ⟨family, _, slug, member, rfl⟩
  case inr.inr.inr.inr.inr.inr => exact .inr ⟨family, slug, member, rfl⟩
  all_goals exact .inl ⟨rfl, by simp [personalKinds], rfl⟩

theorem personal_mem (config : WikiStorageConfig) (input : WikiStoragePlanInput)
    (kind : WikiStorageDocumentKind) (h : kind ∈ personalKinds input.targetWikiId) :
    ∃ document ∈ planDocuments config input, document.kind = kind ∧
      document.siteWikiId = input.homeWikiId ∧ document.title =
        buildPersonalTitle config input.username (personalLevels input.targetWikiId kind) := by
  unfold planDocuments buildWikiStoragePlan buildPersonalDocuments
  simp only [personalKinds, List.mem_cons, List.not_mem_nil, or_false] at h
  rcases h with rfl | rfl | rfl | rfl | rfl | rfl <;>
    simp [personalLevels]

theorem shared_mem (config : WikiStorageConfig) (input : WikiStoragePlanInput)
    (family : SharedFamily) {slug : Text} (h : slug ∈ family.slugs input) :
    family.document config input slug ∈ planDocuments config input := by
  unfold planDocuments buildWikiStoragePlan buildSharedDocuments
  refine List.mem_append_right _ (List.mem_flatMap.mpr ⟨family, ?_, List.mem_map_of_mem h⟩)
  cases family <;> decide

/-- The levels of the personal documents tell their kinds apart. -/
theorem personalLevels_unique {target : Text} {kind other : WikiStorageDocumentKind}
    (hk : kind ∈ personalKinds target) (ho : other ∈ personalKinds target)
    (same : (personalLevels target kind).flatMap (fun segment => '/' :: normalizeTitleSegment segment) =
      (personalLevels target other).flatMap fun segment => '/' :: normalizeTitleSegment segment) :
    kind = other := by
  have profile : normalizeTitleSegment "Profile".toList = "Profile".toList := by decide
  have preferences : normalizeTitleSegment "Preferences".toList = "Preferences".toList := by decide
  have queues : normalizeTitleSegment "Queues".toList = "Queues".toList := by decide
  have workspace : normalizeTitleSegment "Workspace".toList = "Workspace".toList := by decide
  have labels : normalizeTitleSegment "Labels".toList = "Labels".toList := by decide
  simp only [personalKinds, List.mem_cons, List.not_mem_nil, or_false] at hk ho
  rcases hk with rfl | rfl | rfl | rfl | rfl | rfl <;>
    rcases ho with rfl | rfl | rfl | rfl | rfl | rfl <;>
    first
    | rfl
    | simp only [personalLevels, List.flatMap_cons, List.flatMap_nil, profile, preferences, queues,
        workspace, labels] at same
      simp at same

theorem segment_normalized (family : SharedFamily) :
    normalizeTitleSegment family.segment = family.segment := by
  cases family <;> decide

theorem segment_plain (family : SharedFamily) : ':' ∉ family.segment ∧ '/' ∉ family.segment := by
  cases family <;> decide

theorem segment_injective {family other : SharedFamily} (h : family.segment = other.segment) :
    family = other := by
  cases family <;> cases other <;> first | rfl | exact absurd h (by decide)

theorem personalTitle_eq (segments : List Text) :
    buildPersonalTitle config input.username segments =
      titleOwner config.personalNamespace input.username ++
        '/' :: normalizeTitleSegment config.projectRootSegment ++
        segments.flatMap fun segment => '/' :: normalizeTitleSegment segment := by
  rw [buildPersonalTitle, buildTitle_eq]
  simp

theorem sharedTitle_eq (family : SharedFamily) (slug : Text) :
    (family.document config input slug).title =
      (titleOwner config.sharedNamespace input.sharedOwnerUsername ++
        '/' :: normalizeTitleSegment config.projectRootSegment ++
        '/' :: normalizeTitleSegment input.targetWikiId) ++ '/' :: family.segment ++
        '/' :: normalizeTitleSegment slug := by
  rw [SharedFamily.document, buildSharedTitle, buildTitle_eq]
  simp [segment_normalized]

/-- Titles that end in the same slug of a family are the same from the family on. -/
theorem sharedTitle_unique {family other : SharedFamily} {slug slug' : Text}
    (h : (family.document config input slug).title = (other.document config input slug').title) :
    family = other ∧ normalizeTitleSegment slug = normalizeTitleSegment slug' := by
  rw [sharedTitle_eq, sharedTitle_eq] at h
  obtain ⟨above, slugs⟩ := Framing.last_unique (normalizeTitleSegment_no_slash slug)
    (normalizeTitleSegment_no_slash slug') h
  obtain ⟨_, segments⟩ := Framing.last_unique (segment_plain family).2 (segment_plain other).2 above
  exact ⟨segment_injective segments, slugs⟩

/-- A document with a level of its own and one for the wiki would need a family of its name. -/
theorem named_levels_apart {name target slug above rest : Text} {family : SharedFamily}
    (own : normalizeTitleSegment name ≠ family.segment) :
    above ++ [name, target].flatMap (fun segment => '/' :: normalizeTitleSegment segment) ≠
      rest ++ '/' :: family.segment ++ '/' :: normalizeTitleSegment slug := by
  intro h
  have cut : above ++ '/' :: normalizeTitleSegment name ++ '/' :: normalizeTitleSegment target =
      rest ++ '/' :: family.segment ++ '/' :: normalizeTitleSegment slug := by
    simpa using h
  obtain ⟨upper, _⟩ := Framing.last_unique (normalizeTitleSegment_no_slash target)
    (normalizeTitleSegment_no_slash slug) cut
  exact own (Framing.last_unique (normalizeTitleSegment_no_slash name)
    (segment_plain family).2 upper).2

/-- A document with one plain level meets a shared one where all the levels agree. -/
theorem plain_level_meets {name root slug above rest : Text} {family : SharedFamily}
    (normal : normalizeTitleSegment name = name) :
    above ++ '/' :: normalizeTitleSegment root ++
        [name].flatMap (fun segment => '/' :: normalizeTitleSegment segment) =
      rest ++ '/' :: family.segment ++ '/' :: normalizeTitleSegment slug ↔
    above = rest ∧ normalizeTitleSegment root = family.segment ∧
      normalizeTitleSegment slug = name := by
  rw [List.flatMap_singleton]
  constructor
  · intro h
    obtain ⟨upper, slugs⟩ := Framing.last_unique (normalizeTitleSegment_no_slash name)
      (normalizeTitleSegment_no_slash slug) h
    obtain ⟨top, roots⟩ := Framing.last_unique (normalizeTitleSegment_no_slash root)
      (segment_plain family).2 upper
    exact ⟨top, roots, by rw [← slugs, normal]⟩
  · rintro ⟨rfl, roots, slugs⟩
    rw [normal, roots, slugs]

/-- A personal document lies where a shared one does only in one odd arrangement. -/
theorem personal_shared_title {kind : WikiStorageDocumentKind}
    (hk : kind ∈ personalKinds input.targetWikiId) (family : SharedFamily) (slug : Text) :
    buildPersonalTitle config input.username (personalLevels input.targetWikiId kind) =
        (family.document config input slug).title ↔
      titleOwner config.personalNamespace input.username =
          titleOwner config.sharedNamespace input.sharedOwnerUsername ++
            '/' :: normalizeTitleSegment config.projectRootSegment ++
            '/' :: normalizeTitleSegment input.targetWikiId ∧
        normalizeTitleSegment config.projectRootSegment = family.segment ∧
        (kind = .personalProfile ∧ normalizeTitleSegment slug = "Profile".toList ∨
          kind = .personalPreferences ∧ normalizeTitleSegment slug = "Preferences".toList) := by
  rw [personalTitle_eq, sharedTitle_eq]
  simp only [personalKinds, List.mem_cons, List.not_mem_nil, or_false] at hk
  rcases hk with rfl | rfl | rfl | rfl | rfl | rfl
  · -- the user's index ends where the owner's part would have to end in a family
    simp only [reduceCtorEq, false_and, or_self, and_false, iff_false]
    intro h
    have none : personalLevels input.targetWikiId .personalIndex = [] := rfl
    rw [none, List.flatMap_nil, List.append_nil] at h
    obtain ⟨upper, _⟩ := Framing.last_unique
      (normalizeTitleSegment_no_slash config.projectRootSegment)
      (normalizeTitleSegment_no_slash slug) h
    exact titleOwner_last (segment_plain family).1 upper
  · rw [personalLevels, plain_level_meets (by decide)]
    simp
  · rw [personalLevels, plain_level_meets (by decide)]
    simp
  all_goals
    simp only [reduceCtorEq, false_and, or_self, and_false, iff_false]
    exact named_levels_apart (by cases family <;> decide)

end Documents

/-- Every page of the plan but the registry's has one document, exactly when the slugs of
each family stay distinct and the shared tree does not lie under the user's page. -/
theorem pages_distinct_iff (config : WikiStorageConfig) (input : WikiStoragePlanInput) :
    PagesDistinct config input ↔ SlugsDistinct input ∧ ¬ SharedUnderPersonal config input := by
  constructor
  · intro distinct
    constructor
    · intro family slug member other member' same
      by_contra differ
      refine distinct _ (shared_mem config input family member) _
        (shared_mem config input family member') ?_ rfl ?_
      · cases family <;> simpa [SharedFamily.document, SharedFamily.kind] using differ
      · rw [sharedTitle_eq, sharedTitle_eq, same]
    · rintro ⟨home, owner, family, root, slug, member, named⟩
      have kinds : ∃ kind ∈ personalKinds input.targetWikiId,
          (kind = .personalProfile ∧ normalizeTitleSegment slug = "Profile".toList ∨
            kind = .personalPreferences ∧ normalizeTitleSegment slug = "Preferences".toList) := by
        rcases named with profile | preferences
        · exact ⟨.personalProfile, by simp [personalKinds], .inl ⟨rfl, profile⟩⟩
        · exact ⟨.personalPreferences, by simp [personalKinds], .inr ⟨rfl, preferences⟩⟩
      obtain ⟨kind, personal, named⟩ := kinds
      obtain ⟨document, listed, rfl, site, title⟩ := personal_mem config input kind personal
      refine distinct document listed _ (shared_mem config input family member) ?_
        (site.trans home) (title.trans ((personal_shared_title personal family slug).mpr
          ⟨owner, root, named⟩))
      intro same
      rw [same] at personal
      cases family <;> simp [SharedFamily.document, SharedFamily.kind, personalKinds] at personal
  · rintro ⟨slugs, apart⟩ document listed other listed' differ site title
    have under : ∀ personal ∈ planDocuments config input, ∀ family : SharedFamily,
        ∀ slug ∈ family.slugs input, personal.siteWikiId = input.homeWikiId →
        personal.kind ∈ personalKinds input.targetWikiId →
        personal.title = buildPersonalTitle config input.username
          (personalLevels input.targetWikiId personal.kind) →
        personal.siteWikiId = (family.document config input slug).siteWikiId →
        personal.title = (family.document config input slug).title → False := by
      intro personal _ family slug member home kind levels site title
      rw [levels, personal_shared_title kind] at title
      obtain ⟨owner, root, named⟩ := title
      exact apart ⟨home.symm.trans site, owner, family, root, slug, member,
        named.imp And.right And.right⟩
    rcases mem_planDocuments listed with ⟨home, kind, levels⟩ | ⟨family, slug, member, rfl⟩ <;>
      rcases mem_planDocuments listed' with ⟨home', kind', levels'⟩ | ⟨family', slug', member', rfl⟩
    · rw [levels, levels', personalTitle_eq, personalTitle_eq] at title
      exact differ (personalLevels_unique kind kind' (List.append_cancel_left title))
    · exact under document listed family' slug' member' home kind levels site title
    · exact under other listed' family slug member home' kind' levels' site.symm title.symm
    · obtain ⟨rfl, same⟩ := sharedTitle_unique title
      have equal := slugs family slug member slug' member' same
      rw [equal] at differ
      exact differ rfl

/-- A plan with two teams whose slugs differ in their separator. -/
def twoTeams : WikiStoragePlanInput where
  username := "Schiste".toList
  homeWikiId := "frwiki".toList
  targetWikiId := "frwiki".toList
  sharedOwnerUsername := "Schiste".toList
  teamSlugs := ["core team".toList, "core_team".toList]
  ruleSetSlugs := ["default".toList]
  trainingDatasetSlugs := ["main".toList]
  auditPeriodSlugs := ["2026-03".toList]

/-- Both teams are the page `User:Schiste/SP42/frwiki/Teams/core_team`. -/
theorem two_teams_share_page :
    twoTeams.teamSlugs.Nodup ∧ ¬ PagesDistinct WikiStorageConfig.default twoTeams := by
  refine ⟨by decide, fun distinct => ?_⟩
  have apart := distinct (SharedFamily.team.document .default twoTeams "core team".toList)
    (shared_mem _ _ _ (by decide))
    (SharedFamily.team.document .default twoTeams "core_team".toList)
    (shared_mem _ _ _ (by decide)) (by decide) (Eq.refl "metawiki".toList)
  exact apart (by decide)

end SP42.Storage
