import SP42.Base.Machine
import SP42.Base.Number
import SP42.Storage.Plan

/-!
The typed documents that are kept on public wiki pages: their defaults, what a first use puts
into them, and the checks that every payload passes on its way to a page and from one.
-/
namespace SP42.Storage

structure PublicUserPreferencesDocument where
  preferredWikiId : Text
  queueLimit : Nat
  hideMinor : Bool
  hideBots : Bool
  editorTypes : List Text
  tagFilters : List Text
  deriving DecidableEq

structure PublicTeamRegistryEntry where
  slug : Text
  title : Text
  deriving DecidableEq

structure PublicTeamRegistryDocument where
  wikiId : Text
  teams : List PublicTeamRegistryEntry
  deriving DecidableEq

structure PublicTeamDefinitionDocument where
  wikiId : Text
  slug : Text
  title : Text
  description : Text
  members : List Text
  trustedUsers : List Text
  deriving DecidableEq

structure PublicRuleSetDocument where
  wikiId : Text
  slug : Text
  title : Text
  namespaceAllowlist : List Int
  minScore : Option Int
  tagFilters : List Text
  hideMinor : Bool
  hideBots : Bool
  duplicateClusterBoost : FlagState
  trustedUsers : List Text
  deriving DecidableEq

structure PublicAuditLedgerReasoning where
  appliedRuleSources : List Text
  matchedTrustedSources : List Text
  duplicateClusterSize : Option Nat
  obviousVandalism : FlagState
  deriving DecidableEq

structure PublicAuditLedgerEntry where
  timestampMs : Int
  actor : Text
  action : Text
  summary : Text
  revId : Option Nat
  title : Option Text
  targetUser : Option Text
  accepted : FlagState
  httpStatus : Option Nat
  apiCode : Option Text
  retryable : FlagState
  warnings : List Text
  result : Option Text
  error : Option Text
  heuristicReasoning : Option PublicAuditLedgerReasoning
  deriving DecidableEq

structure PublicAuditLedgerDocument where
  wikiId : Text
  periodSlug : Text
  entries : List PublicAuditLedgerEntry
  deriving DecidableEq

inductive PublicStorageDocumentData where
  | preferences (document : PublicUserPreferencesDocument)
  | registry (document : PublicTeamRegistryDocument)
  | team (document : PublicTeamDefinitionDocument)
  | ruleSet (document : PublicRuleSetDocument)
  | auditLedger (document : PublicAuditLedgerDocument)
  deriving DecidableEq

inductive PublicDocumentError where
  | invalidDocumentKind (message : Text)
  | validation (message : Text)
  | serialize (message : Text)
  deriving DecidableEq

def PublicDocumentError.display : PublicDocumentError → Text
  | .invalidDocumentKind message => "public document kind is invalid: ".toList ++ message
  | .validation message => "public document validation failed: ".toList ++ message
  | .serialize message => "public document serialization failed: ".toList ++ message

def quoted (text : Text) : Text := "\x60".toList ++ text ++ "\x60".toList

/-- `serde_json` on the payloads, the debug form of a kind, and the upper case of a letter. -/
structure DocumentLibrary (Value : Type) where
  toValue : PublicStorageDocumentData → Except Text Value
  fromValue : Value → Except Text PublicStorageDocumentData
  debug : WikiStorageDocumentKind → Text
  toUppercase : Char → Text

section Validation

def blank (text : Text) : Bool := Text.trim text = []

def invalid (message : Text) : Except PublicDocumentError Unit := .error (.validation message)

/-- The loops over a `BTreeSet` of what was seen: each value is checked, then entered once. -/
def validateUnique {α κ : Type} [DecidableEq κ] (check : α → Option Text) (key : α → κ)
    (duplicate : α → Text) : List κ → List α → Except PublicDocumentError Unit
  | _, [] => .ok ()
  | seen, value :: rest =>
      match check value with
      | some message => invalid message
      | none =>
          if key value ∈ seen then invalid (duplicate value)
          else validateUnique check key duplicate (key value :: seen) rest

def validateNonEmptyUniqueStrings (label : String) (values : List Text) :
    Except PublicDocumentError Unit :=
  validateUnique
    (fun value =>
      if blank value then some (label.toList ++ " contains a blank value".toList) else none)
    Text.trim
    (fun value => label.toList ++ " contains duplicate value ".toList ++ quoted (Text.trim value))
    [] values

def validateRegistryEntries (teams : List PublicTeamRegistryEntry) :
    Except PublicDocumentError Unit :=
  validateUnique
    (fun entry => if blank entry.slug || blank entry.title then
      some "registry entries require non-empty slug and title".toList else none)
    PublicTeamRegistryEntry.slug
    (fun entry => "registry contains duplicate team slug ".toList ++ quoted entry.slug) [] teams

def validateNamespaces (namespaces : List Int) : Except PublicDocumentError Unit :=
  validateUnique (fun _ => none) id
    (fun namespace_ => "rule-set namespace_allowlist contains duplicate namespace ".toList ++
      quoted (Text.ofInt namespace_)) [] namespaces

def validateAuditEntries : List PublicAuditLedgerEntry → Except PublicDocumentError Unit
  | [] => .ok ()
  | entry :: rest =>
      if blank entry.actor || blank entry.action || blank entry.summary then
        invalid "audit entries require non-empty actor, action, and summary".toList
      else validateAuditEntries rest

def validatePublicStorageDocument : PublicStorageDocumentData → Except PublicDocumentError Unit
  | .preferences value =>
      if blank value.preferredWikiId then
        invalid "preferences preferred_wiki_id must not be blank".toList
      else if value.queueLimit = 0 then
        invalid "preferences queue_limit must be greater than zero".toList
      else .ok ()
  | .registry value =>
      if blank value.wikiId then invalid "registry wiki_id must not be blank".toList
      else validateRegistryEntries value.teams
  | .team value =>
      if blank value.wikiId || blank value.slug || blank value.title then
        invalid "team documents require non-empty wiki_id, slug, and title".toList
      else validateNonEmptyUniqueStrings "team trusted_users" value.trustedUsers
  | .ruleSet value =>
      if blank value.wikiId || blank value.slug || blank value.title then
        invalid "rule-set documents require non-empty wiki_id, slug, and title".toList
      else do
        validateNamespaces value.namespaceAllowlist
        if value.minScore.any (· < 0) then invalid "rule-set min_score must not be negative".toList
        else validateNonEmptyUniqueStrings "rule-set trusted_users" value.trustedUsers
  | .auditLedger value =>
      if blank value.wikiId || blank value.periodSlug then
        invalid "audit ledger requires non-empty wiki_id and period_slug".toList
      else validateAuditEntries value.entries

end Validation

section Kinds

variable {Value : Type} (library : DocumentLibrary Value)

def PublicStorageDocumentData.kindLabel : PublicStorageDocumentData → Text
  | .preferences _ => "preferences".toList
  | .registry _ => "registry".toList
  | .team _ => "team".toList
  | .ruleSet _ => "rule_set".toList
  | .auditLedger _ => "audit_ledger".toList

def compatible : PublicStorageDocumentData → WikiStorageDocumentKind → Bool
  | .preferences _, .personalPreferences => true
  | .registry _, .sharedRegistry _ => true
  | .team _, .sharedTeam _ _ => true
  | .ruleSet _, .sharedRuleSet _ _ => true
  | .auditLedger _, .sharedAuditPeriod _ _ => true
  | _, _ => false

def ensureMatchesDocumentKind (data : PublicStorageDocumentData) (kind : WikiStorageDocumentKind) :
    Except PublicDocumentError Unit :=
  if compatible data kind then validatePublicStorageDocument data
  else .error (.invalidDocumentKind ("public document payload ".toList ++ quoted data.kindLabel ++
    " does not match storage kind ".toList ++ quoted (library.debug kind)))

def intoJsonValue (data : PublicStorageDocumentData) : Except PublicDocumentError Value := do
  validatePublicStorageDocument data
  (library.toValue data).mapError .serialize

def parsePublicStorageDocument (kind : WikiStorageDocumentKind) (data : Value) :
    Except PublicDocumentError PublicStorageDocumentData := do
  let document ← (library.fromValue data).mapError .serialize
  ensureMatchesDocumentKind library document kind
  .ok document

def defaultPublicStorageDocument (kind : WikiStorageDocumentKind) :
    Except PublicDocumentError PublicStorageDocumentData :=
  match kind with
  | .personalPreferences =>
      .ok (.preferences
        { preferredWikiId := "frwiki".toList
          queueLimit := 25
          hideMinor := false
          hideBots := true
          editorTypes := ["anonymous".toList, "temporary".toList]
          tagFilters := [] })
  | .sharedRegistry wikiId => .ok (.registry { wikiId, teams := [] })
  | .sharedTeam wikiId teamSlug =>
      .ok (.team
        { wikiId
          slug := teamSlug
          title := teamSlug
          description := []
          members := []
          trustedUsers := [] })
  | .sharedRuleSet wikiId ruleSetSlug =>
      .ok (.ruleSet
        { wikiId
          slug := ruleSetSlug
          title := ruleSetSlug
          namespaceAllowlist := [0]
          minScore := none
          tagFilters := []
          hideMinor := false
          hideBots := false
          duplicateClusterBoost := .enabled
          trustedUsers := [] })
  | .sharedAuditPeriod wikiId periodSlug =>
      .ok (.auditLedger { wikiId, periodSlug, entries := [] })
  | _ => .error (.invalidDocumentKind ("storage kind ".toList ++ quoted (library.debug kind) ++
      " is not a typed public document".toList))

end Kinds

section Bootstrap

variable {Value : Type} (library : DocumentLibrary Value)

/-- What is used of a wiki's configuration. -/
structure WikiConfig where
  wikiId : Text
  displayName : Text
  namespaceAllowlist : List Int

def capitalized (word : Text) : Text :=
  match word with
  | [] => []
  | first :: rest => library.toUppercase first ++ rest

def humanizeSlug (slug : Text) : Text :=
  Text.join [' ']
    (((slug.splitOnP fun c => c == '-' || c == '_').filter (· ≠ [])).map (capitalized library))

def ownerUsernameFromTitle (title : Text) : Option Text :=
  if "User:".toList.isPrefixOf title then
    ((title.drop 5).splitOn '/').head?.filter fun owner => !blank owner
  else none

def pushNew (values : List Text) (value : Text) : List Text :=
  if value ∈ values then values else values ++ [value]

def bootstrapTeam (config : WikiConfig) (actor : Option Text)
    (document : PublicTeamDefinitionDocument) : PublicTeamDefinitionDocument where
  wikiId := document.wikiId
  slug := document.slug
  title := if document.title = document.slug then humanizeSlug library document.slug
    else document.title
  description := if blank document.description then
      "Default SP42 patrol team for ".toList ++ config.displayName ++
        " using public on-wiki coordination.".toList
    else document.description
  members := actor.elim document.members (pushNew document.members)
  trustedUsers := actor.elim document.trustedUsers (pushNew document.trustedUsers)

def bootstrapRuleSet (config : WikiConfig) (actor : Option Text)
    (document : PublicRuleSetDocument) : PublicRuleSetDocument :=
  { document with
    title := if document.title = document.slug then humanizeSlug library document.slug
      else document.title
    namespaceAllowlist := config.namespaceAllowlist
    hideBots := true
    trustedUsers := actor.elim document.trustedUsers (pushNew document.trustedUsers) }

/-- What a first use puts into the default document. -/
def bootstrapped (config : WikiConfig) (actor : Option Text) :
    PublicStorageDocumentData → PublicStorageDocumentData
  | .preferences document => .preferences
      { document with
        preferredWikiId := config.wikiId
        hideBots := true
        editorTypes := if document.editorTypes = [] then ["anonymous".toList, "temporary".toList]
          else document.editorTypes }
  | .registry document => .registry
      { document with
        teams := if document.teams = [] then [⟨"core".toList, "Core Patrol".toList⟩]
          else document.teams }
  | .team document => .team (bootstrapTeam library config actor document)
  | .ruleSet document => .ruleSet (bootstrapRuleSet library config actor document)
  | .auditLedger document => .auditLedger document

def bootstrapPublicStorageDocument (kind : WikiStorageDocumentKind) (config : WikiConfig)
    (bootstrapActor : Option Text) : Except PublicDocumentError PublicStorageDocumentData :=
  let actor := (bootstrapActor.map Text.trim).filter (· ≠ [])
  (defaultPublicStorageDocument library kind).map (bootstrapped library config actor)

def flagText (flag : FlagState) : Text :=
  if flag.isEnabled then "true".toList else "false".toList

def publicDocumentHumanSummary : PublicStorageDocumentData → List Text
  | .preferences document =>
      ["Public SP42 preferences for ".toList ++ document.preferredWikiId ++
        " with queue limit ".toList ++ Text.ofNat document.queueLimit ++ ".".toList]
  | .registry document =>
      ["Public SP42 team registry for ".toList ++ document.wikiId ++ " with ".toList ++
        Text.ofNat document.teams.length ++ " teams.".toList]
  | .team document =>
      ["Public SP42 team definition ".toList ++ quoted document.slug ++ " with ".toList ++
        Text.ofNat document.members.length ++ " members and ".toList ++
        Text.ofNat document.trustedUsers.length ++ " trusted users.".toList]
  | .ruleSet document =>
      ["Public SP42 rule set ".toList ++ quoted document.slug ++ " for ".toList ++
        Text.ofNat document.namespaceAllowlist.length ++ " namespaces, ".toList ++
        Text.ofNat document.trustedUsers.length ++ " trusted users, min_score=".toList ++
        document.minScore.elim "none".toList Text.ofInt ++ ", duplicate_cluster_boost=".toList ++
        flagText document.duplicateClusterBoost ++ ".".toList]
  | .auditLedger document =>
      ["Public SP42 audit ledger ".toList ++ quoted document.periodSlug ++ " with ".toList ++
        Text.ofNat document.entries.length ++ " entries.".toList]

end Bootstrap

section Bootstrapping

variable {Value : Type} (library : DocumentLibrary Value) (config : WikiConfig)

theorem validateUnique_ok_iff {α κ : Type} [DecidableEq κ] {check : α → Option Text} {key : α → κ}
    {duplicate : α → Text} (seen : List κ) (values : List α) :
    validateUnique check key duplicate seen values = .ok () ↔
      (∀ value ∈ values, check value = none ∧ key value ∉ seen) ∧ (values.map key).Nodup := by
  induction values generalizing seen with
  | nil => simp [validateUnique]
  | cons value rest ih =>
      rw [validateUnique]
      cases checked : check value with
      | some message => simp [invalid, checked]
      | none =>
          by_cases again : key value ∈ seen
          · simp [invalid, again]
          · simp only [again, if_false, ih, List.mem_cons, not_or, List.map_cons, List.nodup_cons,
              forall_eq_or_imp, checked, not_false_eq_true, and_self, true_and, List.mem_map,
              not_exists, not_and]
            exact ⟨fun ⟨old, apart⟩ => ⟨fun v mem => ⟨(old v mem).1, (old v mem).2.2⟩,
                fun v mem => (old v mem).2.1, apart⟩,
              fun ⟨old, new, apart⟩ => ⟨fun v mem => ⟨(old v mem).1, new v mem, (old v mem).2⟩,
                apart⟩⟩

/-- What a first use of a kind of document needs of its names and of the wiki. -/
def Bootstraps : WikiStorageDocumentKind → Prop
  | .personalPreferences => blank config.wikiId = false
  | .sharedRegistry wikiId => blank wikiId = false
  | .sharedTeam wikiId slug =>
      blank wikiId = false ∧ blank slug = false ∧ blank (humanizeSlug library slug) = false
  | .sharedRuleSet wikiId slug =>
      blank wikiId = false ∧ blank slug = false ∧ blank (humanizeSlug library slug) = false ∧
        config.namespaceAllowlist.Nodup
  | .sharedAuditPeriod wikiId periodSlug => blank wikiId = false ∧ blank periodSlug = false
  | _ => False

theorem trusted_ok (label : String) (bootstrapActor : Option Text) :
    validateNonEmptyUniqueStrings label
      (((bootstrapActor.map Text.trim).filter (· ≠ [])).elim [] (pushNew [])) = .ok () := by
  cases held : (bootstrapActor.map Text.trim).filter (· ≠ []) with
  | none => rfl
  | some actor =>
      obtain ⟨trimmed, inked⟩ := Option.filter_eq_some_iff.mp held
      obtain ⟨raw, -, rfl⟩ := Option.map_eq_some_iff.mp trimmed
      refine (validateUnique_ok_iff [] [Text.trim raw]).mpr
        ⟨fun value mem => ?_, List.pairwise_singleton _ _⟩
      rw [List.mem_singleton.mp mem]
      have solid : blank (Text.trim raw) = false := by
        rw [blank, Text.trim_trim]
        exact decide_eq_false (of_decide_eq_true inked)
      exact ⟨if_neg (Bool.eq_false_iff.mp solid), List.not_mem_nil⟩

theorem invalid_ok_iff {c : Bool} {message : Text} {rest : Except PublicDocumentError Unit} :
    (if c then invalid message else rest) = .ok () ↔ c = false ∧ rest = .ok () := by
  cases c <;> simp [invalid]

/-- The document of a first use passes the check that every write makes, just where its names are
inked and the namespaces of the wiki are distinct, whoever is there first. -/
theorem bootstrap_valid_iff (kind : WikiStorageDocumentKind) (bootstrapActor : Option Text) :
    (do
      let data ← bootstrapPublicStorageDocument library kind config bootstrapActor
      validatePublicStorageDocument data) = .ok () ↔ Bootstraps library config kind := by
  have trusted := fun label => trusted_ok label bootstrapActor
  cases kind with
  | personalPreferences =>
      have inked : (if blank config.wikiId then
          invalid "preferences preferred_wiki_id must not be blank".toList else .ok ()) = .ok () ↔
        blank config.wikiId = false := by
        rw [invalid_ok_iff, and_iff_left rfl]
      exact inked
  | sharedRegistry wikiId =>
      have inked : (if blank wikiId then invalid "registry wiki_id must not be blank".toList
          else validateRegistryEntries [⟨"core".toList, "Core Patrol".toList⟩]) = .ok () ↔
        blank wikiId = false := by
        rw [invalid_ok_iff, and_iff_left (by decide)]
      exact inked
  | sharedTeam wikiId slug =>
      unfold bootstrapPublicStorageDocument defaultPublicStorageDocument
      dsimp only [Except.map, bind, Except.bind, bootstrapped, bootstrapTeam,
        validatePublicStorageDocument]
      rw [if_pos rfl, invalid_ok_iff, trusted, Bool.or_eq_false_iff, Bool.or_eq_false_iff,
        and_iff_left rfl, and_assoc]
      rfl
  | sharedRuleSet wikiId slug =>
      unfold bootstrapPublicStorageDocument defaultPublicStorageDocument
      dsimp only [Except.map, bind, Except.bind, bootstrapped, bootstrapRuleSet,
        validatePublicStorageDocument]
      rw [if_pos rfl, invalid_ok_iff, trusted, Bool.or_eq_false_iff, Bool.or_eq_false_iff,
        and_assoc, and_assoc]
      refine and_congr_right fun _ => and_congr_right fun _ => and_congr_right fun _ => ?_
      have distinct : validateNamespaces config.namespaceAllowlist = .ok () ↔
          config.namespaceAllowlist.Nodup := by
        refine (validateUnique_ok_iff _ _).trans ?_
        simp
      rw [← distinct]
      cases validateNamespaces config.namespaceAllowlist <;> simp
  | sharedAuditPeriod wikiId periodSlug =>
      have inked : (if blank wikiId || blank periodSlug then
          invalid "audit ledger requires non-empty wiki_id and period_slug".toList
          else .ok ()) = .ok () ↔ blank wikiId = false ∧ blank periodSlug = false := by
        rw [invalid_ok_iff, and_iff_left rfl, Bool.or_eq_false_iff]
      exact inked
  | _ => exact iff_of_false (fun passed => nomatch passed) id

end Bootstrapping

end SP42.Storage
