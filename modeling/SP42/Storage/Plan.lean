import SP42.Base.Text

/-!
The plan of an operator's on-wiki documents: which pages there are, on which wiki
they live and what their titles are. A title is a namespace, a user and the
normalised segments of the document, joined by slashes.
-/
namespace SP42.Storage

structure WikiStorageConfig where
  projectRootSegment : Text
  personalNamespace : Text
  sharedNamespace : Text
  metaWikiId : Text
  deriving DecidableEq

structure WikiStoragePlanInput where
  username : Text
  homeWikiId : Text
  targetWikiId : Text
  sharedOwnerUsername : Text
  teamSlugs : List Text
  ruleSetSlugs : List Text
  trainingDatasetSlugs : List Text
  auditPeriodSlugs : List Text
  deriving DecidableEq

inductive WikiStorageRealm where
  | personalUserSpace
  | sharedMetaUserSpace
  deriving DecidableEq

inductive WikiStorageDocumentKind where
  | personalIndex
  | personalProfile
  | personalPreferences
  | personalQueue (wikiId : Text)
  | personalWorkspace (wikiId : Text)
  | personalLabels (wikiId : Text)
  | sharedRegistry (wikiId : Text)
  | sharedTeam (wikiId teamSlug : Text)
  | sharedRuleSet (wikiId ruleSetSlug : Text)
  | sharedTrainingDataset (wikiId datasetSlug : Text)
  | sharedAuditPeriod (wikiId periodSlug : Text)
  deriving DecidableEq

structure WikiStorageDocument where
  siteWikiId : Text
  realm : WikiStorageRealm
  kind : WikiStorageDocumentKind
  title : Text
  description : Text
  deriving DecidableEq

structure WikiStoragePlan where
  personalRoot : WikiStorageDocument
  personalDocuments : List WikiStorageDocument
  sharedRoot : WikiStorageDocument
  sharedDocuments : List WikiStorageDocument
  notes : List Text

def projectName : Text := "SP42".toList

/-- `WikiStorageConfig::default`. -/
def WikiStorageConfig.default : WikiStorageConfig where
  projectRootSegment := projectName
  personalNamespace := "User".toList
  sharedNamespace := "User".toList
  metaWikiId := "metawiki".toList

/-- The characters a title may not contain become a dash, white space an underscore. -/
def mapTitleCharacter (c : Char) : Char :=
  if c ∈ ['/', '#', '<', '>', '[', ']', '{', '}', '|'] then '-'
  else if Text.isWhitespace c then '_'
  else c

def isSeparator (c : Char) : Bool := c == '_' || c == '-'

/-- The loop of `normalize_title_segment`: of a run of separators the first one stays. -/
def foldSeparators : Bool → Text → Text
  | _, [] => []
  | lastWasSeparator, c :: rest =>
    let mapped := mapTitleCharacter c
    if isSeparator mapped && lastWasSeparator then foldSeparators lastWasSeparator rest
    else mapped :: foldSeparators (isSeparator mapped) rest

def normalizeTitleSegment (raw : Text) : Text :=
  Text.trimMatches isSeparator (foldSeparators false (Text.trim raw))

def buildTitle (namespace_ username : Text) (segments : List Text) : Text :=
  namespace_ ++ ":".toList ++ normalizeTitleSegment username ++ "/".toList ++
    Text.join "/".toList (segments.map normalizeTitleSegment)

def buildPersonalTitle (config : WikiStorageConfig) (username : Text) (segments : List Text) :
    Text :=
  buildTitle config.personalNamespace username (config.projectRootSegment :: segments)

def buildSharedTitle (config : WikiStorageConfig) (ownerUsername : Text) (segments : List Text) :
    Text :=
  buildTitle config.sharedNamespace ownerUsername (config.projectRootSegment :: segments)

def defaultIfEmpty (values : List Text) (default : Text) : List Text :=
  if values.isEmpty then [default] else values

def buildPersonalDocuments (config : WikiStorageConfig) (input : WikiStoragePlanInput) :
    List WikiStorageDocument :=
  [{ siteWikiId := input.homeWikiId
     realm := .personalUserSpace
     kind := .personalProfile
     title := buildPersonalTitle config input.username ["Profile".toList]
     description :=
      "Public operator identity, home wiki, and visible profile metadata.".toList },
   { siteWikiId := input.homeWikiId
     realm := .personalUserSpace
     kind := .personalPreferences
     title := buildPersonalTitle config input.username ["Preferences".toList]
     description := "User-visible patrol preferences, filters, and UI defaults.".toList },
   { siteWikiId := input.homeWikiId
     realm := .personalUserSpace
     kind := .personalQueue input.targetWikiId
     title := buildPersonalTitle config input.username ["Queues".toList, input.targetWikiId]
     description := "Public queue preferences and saved queue state for ".toList ++
      input.targetWikiId ++ ".".toList },
   { siteWikiId := input.homeWikiId
     realm := .personalUserSpace
     kind := .personalWorkspace input.targetWikiId
     title := buildPersonalTitle config input.username ["Workspace".toList, input.targetWikiId]
     description := "Public working notes and saved review context for ".toList ++
      input.targetWikiId ++ ".".toList },
   { siteWikiId := input.homeWikiId
     realm := .personalUserSpace
     kind := .personalLabels input.targetWikiId
     title := buildPersonalTitle config input.username ["Labels".toList, input.targetWikiId]
     description := "Public labels and training examples contributed by the user for ".toList ++
      input.targetWikiId ++ ".".toList }]

/-- The four families of shared documents, each a loop over its slugs in the source. -/
inductive SharedFamily where
  | team
  | ruleSet
  | trainingDataset
  | auditPeriod
  deriving DecidableEq

namespace SharedFamily

def all : List SharedFamily := [.team, .ruleSet, .trainingDataset, .auditPeriod]

def slugs (input : WikiStoragePlanInput) : SharedFamily → List Text
  | .team => defaultIfEmpty input.teamSlugs "core".toList
  | .ruleSet => defaultIfEmpty input.ruleSetSlugs "default".toList
  | .trainingDataset => defaultIfEmpty input.trainingDatasetSlugs "main".toList
  | .auditPeriod => defaultIfEmpty input.auditPeriodSlugs "current".toList

def segment : SharedFamily → Text
  | .team => "Teams".toList
  | .ruleSet => "Rules".toList
  | .trainingDataset => "Training".toList
  | .auditPeriod => "Audit".toList

def kind (wikiId slug : Text) : SharedFamily → WikiStorageDocumentKind
  | .team => .sharedTeam wikiId slug
  | .ruleSet => .sharedRuleSet wikiId slug
  | .trainingDataset => .sharedTrainingDataset wikiId slug
  | .auditPeriod => .sharedAuditPeriod wikiId slug

def describes : SharedFamily → Text
  | .team => "Shared team definition `".toList
  | .ruleSet => "Shared rule set `".toList
  | .trainingDataset => "Shared public training dataset `".toList
  | .auditPeriod => "Shared public audit ledger `".toList

def document (config : WikiStorageConfig) (input : WikiStoragePlanInput) (family : SharedFamily)
    (slug : Text) : WikiStorageDocument where
  siteWikiId := config.metaWikiId
  realm := .sharedMetaUserSpace
  kind := family.kind input.targetWikiId slug
  title := buildSharedTitle config input.sharedOwnerUsername
    [input.targetWikiId, family.segment, slug]
  description := family.describes ++ slug ++ "` for ".toList ++ input.targetWikiId ++ ".".toList

end SharedFamily

def buildSharedDocuments (config : WikiStorageConfig) (input : WikiStoragePlanInput) :
    List WikiStorageDocument :=
  SharedFamily.all.flatMap fun family => (family.slugs input).map (family.document config input)

def buildWikiStoragePlan (config : WikiStorageConfig) (input : WikiStoragePlanInput) :
    WikiStoragePlan :=
  let personalRoot : WikiStorageDocument :=
    { siteWikiId := input.homeWikiId
      realm := .personalUserSpace
      kind := .personalIndex
      title := buildPersonalTitle config input.username []
      description := "Personal SP42 landing page for ".toList ++ input.username ++
        " on ".toList ++ input.homeWikiId ++ ".".toList }
  let sharedRoot : WikiStorageDocument :=
    { siteWikiId := config.metaWikiId
      realm := .sharedMetaUserSpace
      kind := .sharedRegistry input.targetWikiId
      title := buildSharedTitle config input.sharedOwnerUsername
        [input.targetWikiId, "Registry".toList]
      description := "Shared SP42 registry and landing page for ".toList ++ input.targetWikiId ++
        " on Meta-Wiki.".toList }
  { personalRoot := personalRoot
    personalDocuments := buildPersonalDocuments config input
    sharedRoot := sharedRoot
    sharedDocuments := buildSharedDocuments config input
    notes :=
      ["Personal durable state lives on ".toList ++ input.homeWikiId ++ " under ".toList ++
        personalRoot.title ++ ".".toList,
       "Shared durable state lives on ".toList ++ config.metaWikiId ++ " under ".toList ++
        sharedRoot.title ++ ".".toList,
       "Realtime coordination, sessions, tokens, and in-flight action state remain memory-only.".toList] }

/-- The document of a kind; the roots are looked at first. -/
def resolveWikiStorageDocument (plan : WikiStoragePlan) (kind : WikiStorageDocumentKind) :
    Option WikiStorageDocument :=
  if plan.personalRoot.kind = kind then some plan.personalRoot
  else if plan.sharedRoot.kind = kind then some plan.sharedRoot
  else (plan.personalDocuments ++ plan.sharedDocuments).find? fun document => document.kind = kind

end SP42.Storage
