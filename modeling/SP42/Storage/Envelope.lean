import SP42.Lib.Search
import SP42.Storage.Plan

/-!
The machine payload of an on-wiki document: a JSON envelope between two markers
on a page that also has a heading, a description and summary lines. The JSON
library is a parameter; the page is put together and taken apart as text.
-/
namespace SP42.Storage

def payloadBeginMarker : Text := "<!-- SP42:BEGIN -->".toList
def payloadEndMarker : Text := "<!-- SP42:END -->".toList
def openingTag : Text := "<syntaxhighlight lang=\"json\">".toList
def closingTag : Text := "</syntaxhighlight>".toList

structure WikiStoragePayloadEnvelope (Value : Type) where
  project : Text
  version : Nat
  title : Text
  kind : Text
  siteWikiId : Text
  realm : WikiStorageRealm
  data : Value
  deriving DecidableEq

inductive WikiStorageError where
  | invalidInput (message : Text)
  | serialize (message : Text)
  deriving DecidableEq

/-- `serde_json` on envelopes, and the strings of a JSON value: its keys and its texts. -/
structure JsonLibrary (Value : Type) where
  toStringPretty : WikiStoragePayloadEnvelope Value → Except Text Text
  fromStr : Text → Except Text (WikiStoragePayloadEnvelope Value)
  texts : Value → List Text

def documentKindLabel : WikiStorageDocumentKind → Text
  | .personalIndex => "personal-index".toList
  | .personalProfile => "personal-profile".toList
  | .personalPreferences => "personal-preferences".toList
  | .personalQueue _ => "personal-queue".toList
  | .personalWorkspace _ => "personal-workspace".toList
  | .personalLabels _ => "personal-labels".toList
  | .sharedRegistry _ => "shared-registry".toList
  | .sharedTeam _ _ => "shared-team".toList
  | .sharedRuleSet _ _ => "shared-rule-set".toList
  | .sharedTrainingDataset _ _ => "shared-training-dataset".toList
  | .sharedAuditPeriod _ _ => "shared-audit-period".toList

/-- `title.rsplit('/').next()`: the last level of a title. -/
def lastLevel (title : Text) : Text := title.rtakeWhile (· ≠ '/')

section Page

variable {Value : Type} (json : JsonLibrary Value)

def envelopeOf (document : WikiStorageDocument) (data : Value) :
    WikiStoragePayloadEnvelope Value where
  project := projectName
  version := 1
  title := document.title
  kind := documentKindLabel document.kind
  siteWikiId := document.siteWikiId
  realm := document.realm
  data := data

/-- The lines above the payload. -/
def headLines (document : WikiStorageDocument) (humanSummary : List Text) : List Text :=
  ["= ".toList ++ lastLevel document.title ++ " =".toList, [], document.description] ++
    (if humanSummary.isEmpty then []
      else [[], "== Summary ==".toList] ++ humanSummary.map fun line => "* ".toList ++ line) ++
    [[], "== Machine payload ==".toList]

def renderWikiStorageDocumentPage (document : WikiStorageDocument) (humanSummary : List Text)
    (data : Value) : Except WikiStorageError Text :=
  match json.toStringPretty (envelopeOf document data) with
  | .error message => .error (.serialize message)
  | .ok payload =>
      .ok (Text.join "\n".toList (headLines document humanSummary ++
        [payloadBeginMarker, openingTag, payload, closingTag, payloadEndMarker]))

def parseWikiStoragePayloadEnvelope (body : Text) :
    Except WikiStorageError (WikiStoragePayloadEnvelope Value) :=
  match Search.find payloadBeginMarker body with
  | none => .error (.invalidInput "document does not contain SP42 payload markers".toList)
  | some begin_ =>
    match Search.find payloadEndMarker body with
    | none =>
        .error (.invalidInput "document does not contain a closing SP42 payload marker".toList)
    | some end_ =>
      if end_ ≤ begin_ then
        .error (.invalidInput "document payload markers are malformed".toList)
      else
        let payloadSection := (body.take end_).drop (begin_ + payloadBeginMarker.length)
        let payload :=
          Text.trim (Search.erase closingTag (Search.erase openingTag payloadSection))
        match json.fromStr payload with
        | .ok envelope => .ok envelope
        | .error message => .error (.serialize message)

/-- What the pages rely on: printing is undone by parsing, prints an object, and writes what
begins with `<` and has neither quote nor backslash only where a string has it. A quote inside
a string is printed escaped, so the opening tag is never printed. -/
structure JsonLibrary.Lawful (json : JsonLibrary Value) : Prop where
  inverse : ∀ envelope printed, json.toStringPretty envelope = .ok printed →
    json.fromStr printed = .ok envelope
  object : ∀ envelope printed, json.toStringPretty envelope = .ok printed →
    ∃ fields, printed = '{' :: fields ++ ['}']
  verbatim : ∀ envelope printed, json.toStringPretty envelope = .ok printed →
    ∀ word : Text, word.head? = some '<' → '"' ∉ word → '\\' ∉ word → word <:+: printed →
    ∃ string ∈ [envelope.project, envelope.title, envelope.kind, envelope.siteWikiId] ++
      json.texts envelope.data, word <:+: string
  escaped : ∀ envelope printed, json.toStringPretty envelope = .ok printed →
    ¬ openingTag <:+: printed

/-- No marker in what is printed above the payload, and neither the end marker nor the closing
tag in a string of the payload. -/
structure Framed (document : WikiStorageDocument) (humanSummary : List Text) (data : Value) :
    Prop where
  head : ∀ piece ∈ lastLevel document.title :: document.description :: humanSummary,
    ¬ payloadBeginMarker <:+: piece ∧ ¬ payloadEndMarker <:+: piece
  strings : ∀ string ∈ document.title :: document.siteWikiId :: json.texts data,
    ¬ payloadEndMarker <:+: string ∧ ¬ closingTag <:+: string

end Page

section Words

variable {word : Text}

theorem begin_not_blank : '\n' ∉ payloadBeginMarker := by decide

theorem end_not_blank : '\n' ∉ payloadEndMarker := by decide

/-- A marker on a decorated line is on what the line decorates. -/
theorem marker_of_decorated {before piece after inner : Text}
    (shape : word = '<' :: inner ++ ['>']) (left : '<' ∉ before) (right : '>' ∉ after)
    (h : word <:+: before ++ piece ++ after) : word <:+: piece := by
  subst shape
  have ends := Search.infix_of_right_margin right h
  exact Search.infix_of_left_margin left ends

theorem marker_not_plain {inner piece : Text} (shape : word = '<' :: inner ++ ['>'])
    (plain : '<' ∉ piece) : ¬ word <:+: piece := by
  intro inside
  subst shape
  exact plain (inside.subset (by simp))

/-- The lines above the payload are free of a marker that their pieces are free of. -/
theorem headLines_free {document : WikiStorageDocument} {humanSummary : List Text} {inner : Text}
    (shape : word = '<' :: inner ++ ['>'])
    (free : ∀ piece ∈ lastLevel document.title :: document.description :: humanSummary,
      ¬ word <:+: piece) :
    ∀ line ∈ headLines document humanSummary, ¬ word <:+: line := by
  have blank : ¬ word <:+: ([] : Text) := marker_not_plain shape (by simp)
  intro line listed
  unfold headLines at listed
  rcases List.mem_append.mp listed with above | payload
  · rcases List.mem_append.mp above with top | summary
    · simp only [List.mem_cons, List.not_mem_nil, or_false] at top
      rcases top with rfl | rfl | rfl
      · intro inside
        exact free _ (by simp) (marker_of_decorated shape (by decide) (by decide) inside)
      · exact blank
      · exact free _ (by simp)
    · split at summary
      · cases summary
      · rcases List.mem_append.mp summary with title | lines
        · simp only [List.mem_cons, List.not_mem_nil, or_false] at title
          rcases title with rfl | rfl
          · exact blank
          · exact marker_not_plain shape (by decide)
        · obtain ⟨piece, member, rfl⟩ := List.mem_map.mp lines
          intro inside
          rw [← List.append_nil ("* ".toList ++ piece)] at inside
          exact free piece (by simp [member])
            (marker_of_decorated shape (by decide) (by simp) inside)
  · simp only [List.mem_cons, List.not_mem_nil, or_false] at payload
    rcases payload with rfl | rfl
    · exact blank
    · exact marker_not_plain shape (by decide)

end Words

theorem documentKindLabel_plain (kind : WikiStorageDocumentKind) :
    '<' ∉ documentKindLabel kind := by
  cases kind <;> exact Text.not_mem_literal (by decide)

section RoundTrip

variable {Value : Type} {json : JsonLibrary Value} {document : WikiStorageDocument}
  {humanSummary : List Text} {data : Value} {printed : Text}

/-- The printed envelope is free of what its strings are free of. -/
theorem printed_free (lawful : json.Lawful) (framed : Framed json document humanSummary data)
    (prints : json.toStringPretty (envelopeOf document data) = .ok printed) :
    ¬ payloadEndMarker <:+: printed ∧ ¬ closingTag <:+: printed := by
  have own : ∀ word inner : Text, word = '<' :: inner ++ ['>'] → '"' ∉ word → '\\' ∉ word →
      (∀ string ∈ document.title :: document.siteWikiId :: json.texts data, ¬ word <:+: string) →
      ¬ word <:+: printed := by
    intro word inner shape quote backslash free inside
    obtain ⟨string, member, found⟩ := lawful.verbatim _ _ prints word (by rw [shape]; rfl) quote
      backslash inside
    simp only [envelopeOf, List.cons_append, List.nil_append, List.mem_cons] at member
    rcases member with rfl | rfl | rfl | rfl | member
    · exact marker_not_plain shape (by decide) found
    · exact free _ (by simp) found
    · exact marker_not_plain shape (documentKindLabel_plain document.kind) found
    · exact free _ (by simp) found
    · exact free string (by simp [member]) found
  constructor
  · exact own _ "!-- SP42:END --".toList (by decide) (by decide) (by decide)
      fun string member => (framed.strings string member).1
  · exact own _ "/syntaxhighlight".toList (by decide) (by decide) (by decide)
      fun string member => (framed.strings string member).2

/-- Between the markers of a page stand the wrapped payload's lines. -/
theorem payload_between (head : List Text) (inhabited : head ≠ [])
    (beginFree : ∀ line ∈ head, ¬ payloadBeginMarker <:+: line)
    (endFree : ∀ line ∈ head, ¬ payloadEndMarker <:+: line)
    (payloadFree : ¬ payloadEndMarker <:+: printed) :
    let body := Text.join "\n".toList
      (head ++ [payloadBeginMarker, openingTag, printed, closingTag, payloadEndMarker])
    ∃ begin_ end_, Search.find payloadBeginMarker body = some begin_ ∧
      Search.find payloadEndMarker body = some end_ ∧ begin_ < end_ ∧
      (body.take end_).drop (begin_ + payloadBeginMarker.length) =
        "\n".toList ++ openingTag ++ "\n".toList ++ printed ++ "\n".toList ++ closingTag ++
          "\n".toList := by
  intro body
  let above := Text.join "\n".toList head ++ "\n".toList
  let wrapped := "\n".toList ++ openingTag ++ "\n".toList ++ printed ++ "\n".toList ++ closingTag ++
    "\n".toList
  have laidOut : body = above ++ (payloadBeginMarker ++ (wrapped ++ payloadEndMarker)) := by
    simp only [body, above, wrapped]
    rw [Text.join_append _ inhabited (by simp)]
    simp [Text.join_cons]
  have beginAt : Search.find payloadBeginMarker body = some above.length := by
    rw [laidOut]
    refine Search.find_append rfl fun inside => ?_
    rcases Search.infix_append_cons begin_not_blank inside with here | there
    · obtain ⟨line, listed, found⟩ := Search.infix_join begin_not_blank inhabited here
      exact beginFree line listed found
    · exact absurd there (by decide)
  have toEnd : body = (above ++ (payloadBeginMarker ++ wrapped)) ++ (payloadEndMarker ++ []) := by
    rw [laidOut]
    simp
  have endAt : Search.find payloadEndMarker body =
      some (above ++ (payloadBeginMarker ++ wrapped)).length := by
    rw [toEnd]
    refine Search.find_append rfl fun inside => ?_
    have lines : above ++ (payloadBeginMarker ++ wrapped) = Text.join "\n".toList
        (head ++ [payloadBeginMarker, openingTag, printed, closingTag, []]) := by
      simp only [above, wrapped]
      rw [Text.join_append _ inhabited (by simp)]
      simp [Text.join_cons]
    rw [lines] at inside
    obtain ⟨line, listed, found⟩ := Search.infix_join end_not_blank (by simp) inside
    simp only [List.mem_append, List.mem_cons, List.not_mem_nil, or_false] at listed
    rcases listed with listed | rfl | rfl | rfl | rfl | rfl
    · exact endFree line listed found
    · exact absurd found (by decide)
    · exact absurd found (by decide)
    · exact payloadFree found
    · exact absurd found (by decide)
    · exact absurd found (by decide)
  refine ⟨_, _, beginAt, endAt, ?_, ?_⟩
  · simp only [List.length_append]
    have long : 0 < payloadBeginMarker.length := by decide
    omega
  · rw [toEnd, List.take_left, ← List.append_assoc, ← List.length_append, List.drop_left]

/-- Unwrapping takes the tags and the line ends away from a payload that has none of them. -/
theorem unwrap_payload {fields : Text} (object : printed = '{' :: fields ++ ['}'])
    (openFree : ¬ openingTag <:+: printed) (closeFree : ¬ closingTag <:+: printed) :
    Text.trim (Search.erase closingTag (Search.erase openingTag ("\n".toList ++ openingTag ++
      "\n".toList ++ printed ++ "\n".toList ++ closingTag ++ "\n".toList))) = printed := by
  have opened : Search.erase openingTag ("\n".toList ++ openingTag ++ "\n".toList ++ printed ++
      "\n".toList ++ closingTag ++ "\n".toList) =
      "\n\n".toList ++ printed ++ "\n".toList ++ (closingTag ++ "\n".toList) := by
    have split : "\n".toList ++ openingTag ++ "\n".toList ++ printed ++ "\n".toList ++ closingTag ++
        "\n".toList = "\n".toList ++ (openingTag ++
          ("\n".toList ++ printed ++ "\n".toList ++ closingTag ++ "\n".toList)) := by
      simp
    rw [split, Search.erase_append rfl (by decide), Search.erase_of_not_infix]
    · simp
    · intro inside
      have lines : "\n".toList ++ printed ++ "\n".toList ++ closingTag ++ "\n".toList =
          List.intercalate ['\n'] [[], printed, closingTag, []] := by
        simp [List.intercalate_cons_cons]
      rw [lines] at inside
      obtain ⟨line, listed, found⟩ := Search.infix_join (by decide) (by simp) inside
      simp only [List.mem_cons, List.not_mem_nil, or_false] at listed
      rcases listed with rfl | rfl | rfl | rfl
      · exact absurd found (by decide)
      · exact openFree found
      · exact absurd found (by decide)
      · exact absurd found (by decide)
  have closed : Search.erase closingTag
      ("\n\n".toList ++ printed ++ "\n".toList ++ (closingTag ++ "\n".toList)) =
      "\n\n".toList ++ printed ++ "\n\n".toList := by
    rw [Search.erase_append rfl, Search.erase_of_not_infix]
    · simp
    · decide
    · intro inside
      have lines : "\n\n".toList ++ printed ++ "\n".toList =
          List.intercalate ['\n'] [[], [], printed, []] := by
        simp [List.intercalate_cons_cons]
      rw [lines] at inside
      obtain ⟨line, listed, found⟩ := Search.infix_join (by decide) (by simp) inside
      simp only [List.mem_cons, List.not_mem_nil, or_false] at listed
      rcases listed with rfl | rfl | rfl | rfl
      · exact absurd found (by decide)
      · exact absurd found (by decide)
      · exact closeFree found
      · exact absurd found (by decide)
  rw [opened, closed, object]
  exact Text.trim_padded (List.all_eq_true.mp (by decide)) (List.all_eq_true.mp (by decide))
    (by decide) (by decide)

/-- A page whose head has no marker and whose strings have neither the end marker nor the
closing tag is read back as the envelope it was rendered from. -/
theorem wiki_document_survives (lawful : json.Lawful)
    (framed : Framed json document humanSummary data) {page : Text}
    (rendered : renderWikiStorageDocumentPage json document humanSummary data = .ok page) :
    ∃ envelope, parseWikiStoragePayloadEnvelope json page = .ok envelope ∧
      envelope.data = data ∧ envelope.title = document.title ∧
      envelope.kind = documentKindLabel document.kind ∧
      envelope.siteWikiId = document.siteWikiId ∧ envelope.realm = document.realm := by
  unfold renderWikiStorageDocumentPage at rendered
  cases prints : json.toStringPretty (envelopeOf document data) with
  | error message =>
      rw [prints] at rendered
      cases rendered
  | ok printed =>
      rw [prints] at rendered
      obtain ⟨fields, object⟩ := lawful.object _ _ prints
      obtain ⟨endFree, closeFree⟩ := printed_free lawful framed prints
      have beginHead := @headLines_free payloadBeginMarker document humanSummary
        "!-- SP42:BEGIN --".toList (by decide) fun piece member => (framed.head piece member).1
      have endHead := @headLines_free payloadEndMarker document humanSummary
        "!-- SP42:END --".toList (by decide) fun piece member => (framed.head piece member).2
      obtain ⟨begin_, end_, beginAt, endAt, ordered, between⟩ :=
        @payload_between printed (headLines document humanSummary)
          (List.cons_ne_nil _ _) beginHead endHead endFree
      refine ⟨envelopeOf document data, ?_, rfl, rfl, rfl, rfl, rfl⟩
      rw [← Except.ok.inj rendered, parseWikiStoragePayloadEnvelope, beginAt, endAt]
      dsimp only
      rw [if_neg (Nat.not_le.mpr ordered), between,
        unwrap_payload object (lawful.escaped _ _ prints) closeFree, lawful.inverse _ _ prints]

end RoundTrip

def profileDocument : WikiStorageDocument where
  siteWikiId := "frwiki".toList
  realm := .personalUserSpace
  kind := .personalProfile
  title := "User:Schiste/SP42/Profile".toList
  description := "Public operator identity.".toList

/-- What is printed between the opening brace and the data, for a text that needs no escapes. -/
def printedFields : Text :=
  "\n  \"project\": \"SP42\",\n  \"version\": 1,\n".toList ++
    "  \"title\": \"User:Schiste/SP42/Profile\",\n  \"kind\": \"personal-profile\",\n".toList ++
    "  \"site_wiki_id\": \"frwiki\",\n  \"realm\": \"PersonalUserSpace\",\n  \"data\": \"".toList

def printedHead : Text := '{' :: printedFields

def printedProfile (text : Text) : Text := printedHead ++ text ++ ['"', '\n', '}']

def profileTexts : List Text := ["hello".toList, closingTag, []]

/-- What the library does with the texts above. -/
def profileJson : JsonLibrary Text where
  toStringPretty envelope :=
    if envelope.data ∈ profileTexts ∧ envelope = envelopeOf profileDocument envelope.data then
      .ok (printedProfile envelope.data)
    else .error "not a sampled value".toList
  fromStr printed :=
    match profileTexts.find? fun text => printedProfile text = printed with
    | some text => .ok (envelopeOf profileDocument text)
    | none => .error "not a sampled text".toList
  texts text := [text]

set_option maxRecDepth 4000 in
theorem printedHead_plain : '<' ∉ printedHead := by
  have fields : '<' ∉ printedFields := List.not_mem_append
    (List.not_mem_append (Text.not_mem_literal (by decide)) (Text.not_mem_literal (by decide)))
    (Text.not_mem_literal (by decide))
  exact List.not_mem_cons_of_ne_of_not_mem (by decide) fields

theorem profileJson_fromStr (printed : Text) : profileJson.fromStr printed =
    match profileTexts.find? fun text => printedProfile text = printed with
    | some text => .ok (envelopeOf profileDocument text)
    | none => .error "not a sampled text".toList := rfl

theorem profileJson_reads {text : Text} (sampled : text ∈ profileTexts) :
    profileJson.fromStr (printedProfile text) = .ok (envelopeOf profileDocument text) := by
  rw [profileJson_fromStr]
  cases found : profileTexts.find? fun other => printedProfile other = printedProfile text with
  | none =>
      have missed := List.find?_eq_none.mp found text sampled
      simp at missed
  | some other =>
      have same : printedProfile other = printedProfile text := by
        simpa using List.find?_some found
      rw [List.append_cancel_left (List.append_cancel_right same)]

theorem profileJson_prints {envelope : WikiStoragePayloadEnvelope Text} {printed : Text}
    (h : profileJson.toStringPretty envelope = .ok printed) :
    ∃ text ∈ profileTexts, envelope = envelopeOf profileDocument text ∧
      printed = printedProfile text := by
  simp only [profileJson] at h
  split at h
  · next sampled => exact ⟨envelope.data, sampled.1, sampled.2, (Except.ok.inj h).symm⟩
  · cases h

theorem profileJson_lawful : profileJson.Lawful where
  inverse := by
    intro envelope printed prints
    obtain ⟨text, sampled, rfl, rfl⟩ := profileJson_prints prints
    exact profileJson_reads sampled
  object := by
    intro envelope printed prints
    obtain ⟨text, _, rfl, rfl⟩ := profileJson_prints prints
    exact ⟨printedFields ++ text ++ ['"', '\n'], by simp [printedProfile, printedHead]⟩
  verbatim := by
    intro envelope printed prints word first quote _ inside
    obtain ⟨text, sampled, rfl, rfl⟩ := profileJson_prints prints
    cases word with
    | nil => cases first
    | cons c word =>
        obtain rfl : c = '<' := Option.some.inj first
        rcases Search.infix_append_cons quote inside with here | there
        · exact ⟨text, by simp [profileJson, envelopeOf],
            Search.infix_of_left_margin printedHead_plain here⟩
        · exact absurd (there.subset List.mem_cons_self) (by decide)
  escaped := by
    intro envelope printed prints inside
    obtain ⟨text, sampled, rfl, rfl⟩ := profileJson_prints prints
    rw [printedProfile, List.append_assoc] at inside
    have after := Search.infix_of_left_margin printedHead_plain inside
    simp only [profileTexts, List.mem_cons, List.not_mem_nil, or_false] at sampled
    rcases sampled with rfl | rfl | rfl <;> exact absurd after (by decide)

theorem wiki_document_survives_hello :
    ∃ page envelope, renderWikiStorageDocumentPage profileJson profileDocument
        ["Speaks French.".toList] "hello".toList = .ok page ∧
      parseWikiStoragePayloadEnvelope profileJson page = .ok envelope ∧
      envelope.data = "hello".toList := by
  obtain ⟨page, rendered⟩ : ∃ page, renderWikiStorageDocumentPage profileJson profileDocument
      ["Speaks French.".toList] "hello".toList = .ok page := ⟨_, rfl⟩
  obtain ⟨envelope, parsed, data, _⟩ := @wiki_document_survives Text profileJson profileDocument
    ["Speaks French.".toList] "hello".toList profileJson_lawful
    ⟨by decide, by decide⟩ page rendered
  exact ⟨page, envelope, rendered, parsed, data⟩

/-- A text that quotes the closing tag comes back without it. -/
theorem closing_tag_lost :
    ¬ ∀ (Value : Type) (json : JsonLibrary Value), json.Lawful →
      ∀ (document : WikiStorageDocument) (humanSummary : List Text) (data : Value) (page : Text),
        renderWikiStorageDocumentPage json document humanSummary data = .ok page →
        ∃ envelope, parseWikiStoragePayloadEnvelope json page = .ok envelope ∧
          envelope.data = data := by
  intro survives
  have lost : (renderWikiStorageDocumentPage profileJson profileDocument [] closingTag).toOption.bind
      (fun page => (parseWikiStoragePayloadEnvelope profileJson page).toOption.map
        WikiStoragePayloadEnvelope.data) = some [] := by
    decide +kernel
  cases rendered : renderWikiStorageDocumentPage profileJson profileDocument [] closingTag with
  | error message =>
      rw [rendered] at lost
      cases lost
  | ok page =>
      obtain ⟨envelope, parsed, data⟩ := survives Text profileJson profileJson_lawful
        profileDocument [] closingTag page rendered
      have kept : closingTag = [] := by
        simpa [rendered, parsed, Except.toOption, data] using lost
      cases kept

end SP42.Storage
