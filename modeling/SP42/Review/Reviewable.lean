import SP42.Base.Number
import SP42.Lib.Words

/-!
The identity of a reviewable item and its encoded form. A decoded identity encodes as
the text it came from; the other way around it depends on what the fields hold.
-/
namespace SP42.Review

section Identity

inductive ReviewableItemKind where
  | page
  | draft
  | nomination
  | investigationCase
  | custom (name : Text)
  deriving DecidableEq

def ReviewableItemKind.asWireStr : ReviewableItemKind → Text
  | .page => "page".toList
  | .draft => "draft".toList
  | .nomination => "nomination".toList
  | .investigationCase => "investigation_case".toList
  | .custom name => name

inductive ReviewableItemIdError where
  | emptyWikiId
  | emptyLocalId
  | reservedDelimiterInLocalId (localId : Text)
  | emptyCustomKind
  | decode (encoded : Text)
  | unsupportedVersion (encoded : Text)
  deriving DecidableEq

def reviewableItemIdVersion : Text := "v1".toList

def encodedHead : Text := "reviewable:v1:".toList

/-- An identity as `new` lets it be built. -/
@[ext] structure ReviewableItemId where
  kind : ReviewableItemKind
  wikiId : Text
  localId : Text
  named : kind ≠ .custom []
  wiki : wikiId ≠ []
  subject : localId ≠ []
  undelimited : ':' ∉ localId
  deriving DecidableEq

def ReviewableItemId.new (kind : ReviewableItemKind) (wikiId localId : Text) :
    Except ReviewableItemIdError ReviewableItemId :=
  if named : kind = .custom [] then .error .emptyCustomKind
  else if wiki : wikiId = [] then .error .emptyWikiId
  else if subject : localId = [] then .error .emptyLocalId
  else if delimited : ':' ∈ localId then .error (.reservedDelimiterInLocalId localId)
  else .ok ⟨kind, wikiId, localId, named, wiki, subject, delimited⟩

def ReviewableItemId.page (wikiId : Text) (pageId : Int) :
    Except ReviewableItemIdError ReviewableItemId :=
  ReviewableItemId.new .page wikiId (Text.ofInt pageId)

def ReviewableItemId.toEncoded (id : ReviewableItemId) : Text :=
  encodedHead ++ id.kind.asWireStr ++ ':' :: id.wikiId ++ ':' :: id.localId

/-- `str::strip_prefix`. -/
def stripStart (word text : Text) : Option Text :=
  if word.isPrefixOf text then some (text.drop word.length) else none

/-- A piece of the encoded form as a kind. -/
def decodeKind (kind : Text) : Option ReviewableItemKind :=
  if kind = "page".toList then some .page
  else if kind = "draft".toList then some .draft
  else if kind = "nomination".toList then some .nomination
  else if kind = "investigation_case".toList then some .investigationCase
  else if kind = [] then none
  else some (.custom kind)

def ReviewableItemId.fromEncoded (encoded : Text) :
    Except ReviewableItemIdError ReviewableItemId :=
  match stripStart "reviewable:".toList encoded with
  | none => .error (.decode encoded)
  | some afterNamespace =>
      if !reviewableItemIdVersion.isPrefixOf afterNamespace then
        .error (.unsupportedVersion encoded)
      else
        match (stripStart reviewableItemIdVersion afterNamespace).bind (stripStart [':']) with
        | none => .error (.decode encoded)
        | some rest =>
            match rest.splitOn ':' with
            | [kind, wikiId, localId] =>
                match decodeKind kind with
                | some kind => ReviewableItemId.new kind wikiId localId
                | none => .error (.decode encoded)
            | _ => .error (.decode encoded)

end Identity

section Decoding

theorem stripStart_eq_some {word text rest : Text} :
    stripStart word text = some rest ↔ text = word ++ rest := by
  unfold stripStart
  constructor
  · intro stripped
    split at stripped
    · next front =>
        cases stripped
        exact (List.prefix_iff_eq_append.mp (List.isPrefixOf_iff_prefix.mp front)).symm
    · cases stripped
  · rintro rfl
    rw [if_pos (List.isPrefixOf_iff_prefix.mpr (List.prefix_append word rest)), List.drop_left]

theorem new_eq_ok {kind : ReviewableItemKind} {wikiId localId : Text} {id : ReviewableItemId}
    (minted : ReviewableItemId.new kind wikiId localId = .ok id) :
    id.kind = kind ∧ id.wikiId = wikiId ∧ id.localId = localId := by
  unfold ReviewableItemId.new at minted
  split at minted
  · cases minted
  split at minted
  · cases minted
  split at minted
  · cases minted
  split at minted
  · cases minted
  cases minted
  exact ⟨rfl, rfl, rfl⟩

theorem new_self (id : ReviewableItemId) :
    ReviewableItemId.new id.kind id.wikiId id.localId = .ok id := by
  unfold ReviewableItemId.new
  rw [dif_neg id.named, dif_neg id.wiki, dif_neg id.subject, dif_neg id.undelimited]

theorem asWireStr_decodeKind {kind : Text} {decoded : ReviewableItemKind}
    (known : decodeKind kind = some decoded) : decoded.asWireStr = kind := by
  unfold decodeKind at known
  split at known
  · next same => cases known; exact same.symm
  split at known
  · next same => cases known; exact same.symm
  split at known
  · next same => cases known; exact same.symm
  split at known
  · next same => cases known; exact same.symm
  split at known
  · cases known
  cases known
  rfl

theorem splitOn_eq_three {rest kind wikiId localId : Text} :
    rest.splitOn ':' = [kind, wikiId, localId] ↔
      rest = kind ++ ':' :: wikiId ++ ':' :: localId ∧ ':' ∉ kind ∧ ':' ∉ wikiId ∧ ':' ∉ localId := by
  have joined : [':'].intercalate [kind, wikiId, localId] =
      kind ++ ':' :: wikiId ++ ':' :: localId := by
    simp [List.intercalate]
  constructor
  · intro pieces
    have whole := @List.intercalate_splitOn _ rest _ _ ':'
    have undelimited : ∀ piece ∈ [kind, wikiId, localId], ':' ∉ piece := by
      rw [← pieces, List.splitOn_eq_splitOnP]
      intro piece member delimiter
      have solid := Words.solid_of_mem_words member ':' delimiter
      cases solid
    rw [pieces, joined] at whole
    exact ⟨whole.symm, undelimited kind (by simp), undelimited wikiId (by simp),
      undelimited localId (by simp)⟩
  · rintro ⟨rfl, first, second, third⟩
    rw [← joined]
    refine List.splitOn_intercalate ':' ?_ (List.cons_ne_nil _ _)
    simpa using ⟨first, second, third⟩

/-- A text decodes just where it is three undelimited pieces behind the head. -/
theorem fromEncoded_eq_ok {encoded : Text} {id : ReviewableItemId} :
    ReviewableItemId.fromEncoded encoded = .ok id ↔ ∃ kind wikiId localId decoded,
      encoded = encodedHead ++ (kind ++ ':' :: wikiId ++ ':' :: localId) ∧
        (':' ∉ kind ∧ ':' ∉ wikiId ∧ ':' ∉ localId) ∧ decodeKind kind = some decoded ∧
        ReviewableItemId.new decoded wikiId localId = .ok id := by
  have head : ∀ rest, encodedHead ++ rest =
      "reviewable:".toList ++ (reviewableItemIdVersion ++ ([':'] ++ rest)) := fun _ => rfl
  constructor
  · intro decoded
    unfold ReviewableItemId.fromEncoded at decoded
    split at decoded
    · cases decoded
    next afterNamespace namespaced =>
      split at decoded
      · cases decoded
      split at decoded
      · cases decoded
      next rest versioned =>
        split at decoded
        · next kind wikiId localId pieces =>
            split at decoded
            · next known =>
                obtain ⟨tail, version, delimiter⟩ := Option.bind_eq_some_iff.mp versioned
                have whole := stripStart_eq_some.mp namespaced
                rw [stripStart_eq_some.mp version, stripStart_eq_some.mp delimiter, ← head] at whole
                obtain ⟨joined, undelimited⟩ := splitOn_eq_three.mp pieces
                exact ⟨kind, wikiId, localId, _, joined ▸ whole, undelimited, known, decoded⟩
            · cases decoded
        · cases decoded
  · rintro ⟨kind, wikiId, localId, decoded, rfl, undelimited, known, minted⟩
    have pieces := splitOn_eq_three.mpr ⟨rfl, undelimited⟩
    have versioned : reviewableItemIdVersion.isPrefixOf
        (reviewableItemIdVersion ++ ([':'] ++ (kind ++ ':' :: wikiId ++ ':' :: localId))) = true :=
      List.isPrefixOf_iff_prefix.mpr (List.prefix_append _ _)
    unfold ReviewableItemId.fromEncoded
    rw [head, stripStart_eq_some.mpr rfl]
    dsimp only
    rw [versioned, stripStart_eq_some.mpr rfl, Option.bind_some, stripStart_eq_some.mpr rfl]
    dsimp only
    rw [pieces]
    dsimp only
    rw [known]
    exact minted

end Decoding

section Faithful

/-- The names that stand for the kinds of their own. -/
def takenNames : List Text :=
  ["page".toList, "draft".toList, "nomination".toList, "investigation_case".toList]

/-- A custom name is neither taken nor delimited, and the wiki is not delimited. -/
structure Plain (id : ReviewableItemId) : Prop where
  untaken : ∀ name, id.kind = .custom name → name ∉ takenNames
  kind : ∀ name, id.kind = .custom name → ':' ∉ name
  wiki : ':' ∉ id.wikiId

theorem decodeKind_custom (name : Text) :
    decodeKind name = some (.custom name) ↔ name ≠ [] ∧ name ∉ takenNames := by
  unfold decodeKind takenNames
  simp only [List.mem_cons, List.not_mem_nil, or_false, not_or]
  constructor
  · intro known
    split at known
    · cases known
    next page =>
      split at known
      · cases known
      next draft =>
        split at known
        · cases known
        next nomination =>
          split at known
          · cases known
          next case =>
            split at known
            · cases known
            next named => exact ⟨named, page, draft, nomination, case⟩
  · rintro ⟨named, page, draft, nomination, case⟩
    rw [if_neg page, if_neg draft, if_neg nomination, if_neg case, if_neg named]

/-- A kind reads back unless it is a custom one under a taken name. -/
theorem decodeKind_asWireStr_iff {kind : ReviewableItemKind} (named : kind ≠ .custom []) :
    decodeKind kind.asWireStr = some kind ↔ ∀ name, kind = .custom name → name ∉ takenNames := by
  cases kind with
  | custom name =>
      have inhabited : name ≠ [] := fun empty => named (congrArg _ empty)
      refine (decodeKind_custom name).trans ((and_iff_right inhabited).trans ⟨?_, ?_⟩)
      · rintro untaken other same
        cases same
        exact untaken
      · exact fun untaken => untaken name rfl
  | _ => exact iff_of_true (by decide) (fun _ other => nomatch other)

theorem undelimited_asWireStr_iff (kind : ReviewableItemKind) :
    ':' ∉ kind.asWireStr ↔ ∀ name, kind = .custom name → ':' ∉ name := by
  cases kind with
  | custom name =>
      constructor
      · rintro undelimited other same
        cases same
        exact undelimited
      · exact fun undelimited => undelimited name rfl
  | _ => exact iff_of_true (by decide) (fun _ other => nomatch other)

theorem encoded_eq (id : ReviewableItemId) : id.toEncoded =
    encodedHead ++ (id.kind.asWireStr ++ ':' :: id.wikiId ++ ':' :: id.localId) := by
  unfold ReviewableItemId.toEncoded
  simp only [List.append_assoc]

/-- What decodes is the encoding of what it decodes to. -/
theorem toEncoded_of_fromEncoded {encoded : Text} {id : ReviewableItemId}
    (decoded : ReviewableItemId.fromEncoded encoded = .ok id) : id.toEncoded = encoded := by
  obtain ⟨kind, wikiId, localId, read, rfl, -, known, minted⟩ := fromEncoded_eq_ok.mp decoded
  obtain ⟨sameKind, rfl, rfl⟩ := new_eq_ok minted
  rw [encoded_eq, sameKind, asWireStr_decodeKind known]

/-- An identity reads back just where its fields are plain. -/
theorem reads_back_iff (id : ReviewableItemId) :
    ReviewableItemId.fromEncoded id.toEncoded = .ok id ↔ Plain id := by
  rw [fromEncoded_eq_ok, encoded_eq]
  constructor
  · rintro ⟨kind, wikiId, localId, read, same, ⟨kindFree, wikiFree, localFree⟩, known, minted⟩
    obtain ⟨rfl, rfl, rfl⟩ := new_eq_ok minted
    have kindSame := asWireStr_decodeKind known
    subst kindSame
    exact ⟨(decodeKind_asWireStr_iff id.named).mp known,
      (undelimited_asWireStr_iff id.kind).mp kindFree, wikiFree⟩
  · intro plain
    have known := (decodeKind_asWireStr_iff id.named).mpr plain.untaken
    have kindFree := (undelimited_asWireStr_iff id.kind).mpr plain.kind
    exact ⟨_, _, _, _, rfl, ⟨kindFree, plain.wiki, id.undelimited⟩, known, new_self id⟩

/-- An identity reads back just where it is plain, no other plain one shares its encoding, and every
text that is accepted for it is its encoding. -/
theorem encoding_faithful (id : ReviewableItemId) :
    (ReviewableItemId.fromEncoded id.toEncoded = .ok id ↔ Plain id) ∧
      (∀ other : ReviewableItemId, Plain id → Plain other → other.toEncoded = id.toEncoded →
        other = id) ∧
      ∀ encoded, ReviewableItemId.fromEncoded encoded = .ok id → id.toEncoded = encoded := by
  refine ⟨reads_back_iff id, ?_, fun _ => toEncoded_of_fromEncoded⟩
  intro other plain plainOther same
  have read := (reads_back_iff other).mpr plainOther
  rw [same, (reads_back_iff id).mpr plain] at read
  exact (Except.ok.inj read).symm

/-- A page, and a custom kind under the name of the pages. -/
def plainPage : ReviewableItemId :=
  ⟨.page, "frwiki".toList, "1".toList, nofun, by decide, by decide, by decide⟩

def customPage : ReviewableItemId :=
  ⟨.custom "page".toList, "frwiki".toList, "1".toList, by decide, by decide, by decide, by decide⟩

theorem shared_encoding :
    ReviewableItemId.new (.custom "page".toList) "frwiki".toList "1".toList = .ok customPage ∧
      ReviewableItemId.fromEncoded customPage.toEncoded = .ok plainPage ∧
      customPage ≠ plainPage ∧ customPage.toEncoded = plainPage.toEncoded := by
  have read : ReviewableItemId.fromEncoded plainPage.toEncoded = .ok plainPage :=
    fromEncoded_eq_ok.mpr
      ⟨"page".toList, "frwiki".toList, "1".toList, .page, rfl, by decide, by decide, rfl⟩
  exact ⟨rfl, read, by decide, rfl⟩

end Faithful

end SP42.Review
