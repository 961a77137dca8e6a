import Std.Data.ExtTreeMap.Lemmas
import Std.Data.ExtTreeSet.Lemmas
import SP42.Base.Number
import SP42.Lib.Entries
import SP42.Lib.Substitution

/-!
The wording of verdict reasons. A catalog holds a template for each code; a reason is rendered by
replacing the placeholders of its parameters one after the other.
-/
namespace SP42.Intake

open Substitution

inductive ReasonError where
  | emptyCode
  | malformedCode (code : String)
  deriving DecidableEq

/-- `ReasonCode::validate_name`. -/
def validateName (name : String) : Except ReasonError Unit :=
  if name = "" then .error .emptyCode
  else if name.toList.all fun c => c.isLower || c.isDigit || c == '_' then .ok ()
  else .error (.malformedCode name)

inductive ReasonParam where
  | text (value : Text)
  | count (value : Int)
  | pageId (value : Int)
  | timestampMs (value : Int)
  deriving DecidableEq

def placeholder (name : String) : Text := '{' :: (name.toList ++ ['}'])

def ReasonParam.diagnosticValue : ReasonParam → Text
  | text value => value
  | count value | pageId value | timestampMs value => Text.ofInt value

abbrev ReasonParams := Std.ExtTreeMap String ReasonParam

structure Reason where
  code : String
  params : ReasonParams

/-- What stands before the next closing brace, and behind it. -/
def closing (text : Text) : Option (Text × Text) :=
  match text.dropWhile (· != '}') with
  | [] => none
  | _ :: after => some (text.takeWhile (· != '}'), after)

theorem closing_eq_some {text name after : Text} :
    closing text = some (name, after) → text = name ++ '}' :: after ∧ '}' ∉ name := by
  intro found
  rw [closing] at found
  cases rest : text.dropWhile (· != '}') with
  | nil =>
      rw [rest] at found
      cases found
  | cons c others =>
      rw [rest] at found
      cases found
      have closes := List.head?_dropWhile_not (· != '}') text
      rw [rest] at closes
      obtain rfl : c = '}' := by simpa using closes
      refine ⟨?_, fun member => ?_⟩
      · rw [← rest, List.takeWhile_append_dropWhile]
      · have passes := List.mem_takeWhile_imp member
        simp at passes

/-- The names between braces; a brace that is not closed ends the search. -/
def placeholderNames : Text → List String
  | [] => []
  | c :: rest =>
      if c = '{' then
        match _closed : closing rest with
        | none => []
        | some (name, after) => String.ofList name :: placeholderNames after
      else placeholderNames rest
  termination_by template => template.length
  decreasing_by
    · rw [(closing_eq_some _closed).1, List.length_cons, List.length_append, List.length_cons]
      omega
    · exact Nat.lt_succ_self _

def templatePlaceholders (template : Text) : Std.ExtTreeSet String :=
  .ofList (placeholderNames template)

structure CatalogEntry where
  template : Text
  params : Std.ExtTreeSet String

structure CatalogEntryDocument where
  template : Text
  params : List String

structure CatalogDocument where
  wikiId : Text
  language : Text
  reasons : Std.ExtTreeMap String CatalogEntryDocument

inductive ReasonCatalogError where
  | parse (message : Text)
  | wrongCatalog (expected found : Text)
  | invalidCode (code : String) (source : ReasonError)
  | undeclaredPlaceholder (code placeholder : String)
  | unusedParameter (code parameter : String)
  | missingCode (wikiId language : Text) (missing : List String)
  | unboundParameter (code parameter : String)
  | extraneousParameter (code parameter : String)
  deriving DecidableEq

structure ReasonCatalog where
  wikiId : Text
  language : Text
  entries : Std.ExtTreeMap String CatalogEntry

section Loading

/-- The names of the first set that are not in the second, in order. -/
def difference (names others : Std.ExtTreeSet String) : List String :=
  names.toList.filter fun name => !others.contains name

/-- The body of the loop over the entries. -/
def loadEntry (code : String) (raw : CatalogEntryDocument) :
    Except ReasonCatalogError CatalogEntry :=
  match validateName code with
  | .error source => .error (.invalidCode code source)
  | .ok () =>
      let declared := Std.ExtTreeSet.ofList raw.params
      let used := templatePlaceholders raw.template
      match difference used declared, difference declared used with
      | undeclared :: _, _ => .error (.undeclaredPlaceholder code undeclared)
      | [], unused :: _ => .error (.unusedParameter code unused)
      | [], [] => .ok { template := raw.template, params := used }

def loadEntries : Std.ExtTreeMap String CatalogEntry → List (String × CatalogEntryDocument) →
    Except ReasonCatalogError (Std.ExtTreeMap String CatalogEntry)
  | entries, [] => .ok entries
  | entries, (code, raw) :: rest =>
      match loadEntry code raw with
      | .error reason => .error reason
      | .ok entry => loadEntries (entries.insert code entry) rest

/-- `ReasonCatalog::load`, with the YAML reader as a parameter. -/
def ReasonCatalog.load (fromYaml : Text → Except Text CatalogDocument) (yaml expectedWikiId
    expectedLanguage : Text) (requiredCodes : Std.ExtTreeSet String) :
    Except ReasonCatalogError ReasonCatalog :=
  match fromYaml yaml with
  | .error message => .error (.parse message)
  | .ok document =>
      if document.wikiId ≠ expectedWikiId then
        .error (.wrongCatalog expectedWikiId document.wikiId)
      else if document.language ≠ expectedLanguage then
        .error (.wrongCatalog expectedLanguage document.language)
      else
        match loadEntries ∅ document.reasons.toList with
        | .error reason => .error reason
        | .ok entries =>
            match requiredCodes.toList.filter fun code => !entries.contains code with
            | [] =>
                .ok { wikiId := document.wikiId, language := document.language, entries := entries }
            | missing => .error (.missingCode expectedWikiId expectedLanguage missing)

end Loading

section Rendering

/-- The loop that replaces the placeholders. -/
def substituteAll (params : List (String × ReasonParam)) (template : Text) : Text :=
  params.foldl (fun out param => replace (placeholder param.1) param.2.diagnosticValue out) template

def ReasonCatalog.render (catalog : ReasonCatalog) (reason : Reason) :
    Except ReasonCatalogError Text :=
  match catalog.entries[reason.code]? with
  | none => .error (.missingCode catalog.wikiId catalog.language [reason.code])
  | some entry =>
      match entry.params.toList.find? fun parameter => !reason.params.contains parameter with
      | some parameter => .error (.unboundParameter reason.code parameter)
      | none =>
          match reason.params.toList.find? fun param => !entry.params.contains param.1 with
          | some param => .error (.extraneousParameter reason.code param.1)
          | none => .ok (substituteAll reason.params.toList entry.template)

end Rendering

section Filling

/-- A template as what is written and its placeholders. -/
def pieces : Text → List (Piece String Char)
  | [] => []
  | c :: rest =>
      if c = '{' then
        match _closed : closing rest with
        | none => [.text (c :: rest)]
        | some (name, after) => .slot (String.ofList name) :: pieces after
      else .text [c] :: pieces rest
  termination_by template => template.length
  decreasing_by
    · rw [(closing_eq_some _closed).1, List.length_cons, List.length_append, List.length_cons]
      omega
    · exact Nat.lt_succ_self _

/-- The template with each placeholder that has a value replaced by it, all at once. -/
def filledIn (values : String → Option ReasonParam) (template : Text) : Text :=
  filled placeholder (fun name => (values name).map ReasonParam.diagnosticValue) (pieces template)

/-- With no value the template is as it was written. -/
theorem filledIn_none (template : Text) : filledIn (fun _ => none) template = template := by
  rw [filledIn]
  fun_induction pieces template with
  | case1 => rfl
  | case2 rest unclosed => exact List.append_nil _
  | case3 rest name after closed ih =>
      rw [filled, List.flatMap_cons, ← filled, ih, Piece.filled, (closing_eq_some closed).1]
      simp [placeholder]
  | case4 c rest other ih =>
      rw [filled, List.flatMap_cons, ← filled, ih]
      rfl

theorem placeholderNames_plain {template : Text} {name : String}
    (member : name ∈ placeholderNames template) : '}' ∉ name.toList := by
  fun_induction placeholderNames template with
  | case1 => cases member
  | case2 rest unclosed => cases member
  | case3 rest inner after closed ih =>
      rcases List.mem_cons.mp member with rfl | later
      · rw [String.toList_ofList]
        exact (closing_eq_some closed).2
      · exact ih later
  | case4 c rest other ih => exact ih member

theorem mem_templatePlaceholders {template : Text} {name : String} :
    name ∈ templatePlaceholders template ↔ name ∈ placeholderNames template := by
  rw [templatePlaceholders, Std.ExtTreeSet.mem_ofList, List.contains_iff_mem]

/-- A placeholder ends with its only closing brace. -/
theorem placeholder_unbordered {name : String} (plain : '}' ∉ name.toList) :
    Unbordered (placeholder name) := by
  intro border some_ begins ends
  have last : border.getLast some_ = '}' := by
    obtain ⟨front, whole⟩ := ends
    have same := congrArg List.getLast? whole
    rw [placeholder, List.getLast?_append_of_ne_nil _ some_,
      List.getLast?_eq_getLast_of_ne_nil some_, ← List.cons_append, List.getLast?_concat] at same
    exact Option.some.inj same
  rw [placeholder, ← List.cons_append, List.prefix_concat_iff] at begins
  rcases begins with whole | front
  · exact whole
  · rcases List.mem_cons.mp (front.subset (last ▸ List.getLast_mem some_)) with same | there
    · cases same
    · exact absurd there plain

end Filling

section Loaded

/-- An entry holds the placeholders of its template. -/
theorem loadEntry_params {code : String} {raw : CatalogEntryDocument} {entry : CatalogEntry}
    (loaded : loadEntry code raw = .ok entry) :
    entry.params = templatePlaceholders entry.template := by
  rw [loadEntry] at loaded
  split at loaded
  · cases loaded
  · dsimp only at loaded
    split at loaded
    · cases loaded
    · cases loaded
    · cases loaded
      rfl

theorem loadEntries_params {documents : List (String × CatalogEntryDocument)}
    {entries loaded : Std.ExtTreeMap String CatalogEntry}
    (good : ∀ (code : String) (entry : CatalogEntry), entries[code]? = some entry →
      entry.params = templatePlaceholders entry.template)
    (ok : loadEntries entries documents = .ok loaded) {code : String} {entry : CatalogEntry}
    (held : loaded[code]? = some entry) : entry.params = templatePlaceholders entry.template := by
  induction documents generalizing entries with
  | nil =>
      cases ok
      exact good code entry held
  | cons document documents ih =>
      obtain ⟨name, raw⟩ := document
      rw [loadEntries] at ok
      cases first : loadEntry name raw with
      | error reason =>
          rw [first] at ok
          cases ok
      | ok built =>
          rw [first] at ok
          refine ih ?_ ok
          intro other found there
          rw [Std.ExtTreeMap.getElem?_insert] at there
          split at there
          · cases there
            exact loadEntry_params first
          · exact good other found there

theorem ReasonCatalog.load_params {fromYaml : Text → Except Text CatalogDocument}
    {yaml wikiId language : Text} {requiredCodes : Std.ExtTreeSet String} {catalog : ReasonCatalog}
    (loaded : ReasonCatalog.load fromYaml yaml wikiId language requiredCodes = .ok catalog)
    {code : String} {entry : CatalogEntry} (held : catalog.entries[code]? = some entry) :
    entry.params = templatePlaceholders entry.template := by
  unfold ReasonCatalog.load at loaded
  split at loaded
  · cases loaded
  · split at loaded
    · cases loaded
    · split at loaded
      · cases loaded
      · split at loaded
        · cases loaded
        · next ok =>
            split at loaded
            · cases loaded
              exact loadEntries_params (fun code entry there => by simp at there) ok held
            · cases loaded

/-- The parameters of a reason are those of the template. -/
def Supplied (reason : Reason) (template : Text) : Prop :=
  ∀ name, name ∈ reason.params ↔ name ∈ templatePlaceholders template

/-- A reason is rendered when its parameters are those of the template. -/
theorem ReasonCatalog.render_entry {catalog : ReasonCatalog} {reason : Reason}
    {entry : CatalogEntry} (held : catalog.entries[reason.code]? = some entry)
    (params : entry.params = templatePlaceholders entry.template) :
    catalog.render reason = .ok (substituteAll reason.params.toList entry.template) ∧
        Supplied reason entry.template ∨
      (∃ error, catalog.render reason = .error error) ∧ ¬ Supplied reason entry.template := by
  rw [ReasonCatalog.render, held]
  dsimp only
  rw [params]
  split
  · next parameter found =>
      refine .inr ⟨⟨_, rfl⟩, fun supplied => ?_⟩
      have needed := Std.ExtTreeSet.mem_toList.mp (List.mem_of_find?_eq_some found)
      have absent := List.find?_some found
      rw [Std.ExtTreeMap.contains_iff_mem.mpr ((supplied parameter).mpr needed)] at absent
      cases absent
  · next bound =>
      split
      · next param found =>
          refine .inr ⟨⟨_, rfl⟩, fun supplied => ?_⟩
          have given := Std.ExtTreeMap.mem_toList_iff_getElem?_eq_some.mp
            (List.mem_of_find?_eq_some found)
          have unused := List.find?_some found
          have used := (supplied param.1).mp (Std.ExtTreeMap.mem_iff_isSome_getElem?.mpr (by
            rw [given]
            rfl))
          rw [Std.ExtTreeSet.contains_iff_mem.mpr used] at unused
          cases unused
      · next used =>
          refine .inl ⟨rfl, fun name => ⟨fun given => ?_, fun needed => ?_⟩⟩
          · obtain ⟨value, there⟩ := Option.isSome_iff_exists.mp
              (Std.ExtTreeMap.mem_iff_isSome_getElem?.mp given)
            have kept := List.find?_eq_none.mp used _
              (Std.ExtTreeMap.mem_toList_iff_getElem?_eq_some.mpr there)
            simpa using kept
          · have kept := List.find?_eq_none.mp bound _ (Std.ExtTreeSet.mem_toList.mpr needed)
            simpa using kept

end Loaded

section Substituting

/-- The texts of the parameters. -/
def written (params : List (String × ReasonParam)) : List (String × Text) :=
  params.map fun param => (param.1, param.2.diagnosticValue)

theorem substituteAll_eq (params : List (String × ReasonParam)) (template : Text) :
    substituteAll params template = replaceEach placeholder (written params) template := by
  rw [substituteAll, replaceEach, written, List.foldl_map]

/-- After each parameter the text is the template with the parameters so far, and no value is
changed by a later one. -/
def Stepwise (reason : Reason) (template : Text) : Prop :=
  ∀ done rest, reason.params.toList = done ++ rest →
    substituteAll done template = filledIn (fun name => done.lookup name) template

/-- When a parameter's turn comes, its placeholder stands only where the template has it, or the
value is that placeholder. -/
def Undisturbed (reason : Reason) (template : Text) : Prop :=
  ∀ done name value rest, reason.params.toList = done ++ (name, value) :: rest →
    value.diagnosticValue = placeholder name ∨
      OnlyAtSlots placeholder (fun other => (done.lookup other).map ReasonParam.diagnosticValue)
        (pieces template) name

theorem valuesOf_written (params : List (String × ReasonParam)) :
    valuesOf (written params) =
      fun name => (params.lookup name).map ReasonParam.diagnosticValue := by
  funext name
  rw [valuesOf, written]
  induction params with
  | nil => rfl
  | cons param params ih =>
      obtain ⟨other, value⟩ := param
      rw [List.map_cons, List.lookup_cons, List.lookup_cons, ih]
      cases name == other <;> rfl

theorem filledIn_eq (params : List (String × ReasonParam)) (template : Text) :
    filledIn (fun name => params.lookup name) template =
      filled placeholder (valuesOf (written params)) (pieces template) := by
  rw [filledIn, valuesOf_written]

/-- The list of a map says what the map says. -/
theorem lookup_toList (params : ReasonParams) (name : String) :
    params.toList.lookup name = params[name]? := by
  have distinct : Entries.Unique params.toList := by
    rw [Entries.Unique, List.Nodup, List.pairwise_map]
    refine params.distinct_keys_toList.imp fun {param other} apart same => apart ?_
    rw [same]
    exact Std.ReflCmp.compare_self
  cases held : params[name]? with
  | some value =>
      exact Entries.lookup_of_mem distinct
        (Std.ExtTreeMap.mem_toList_iff_getElem?_eq_some.mpr held)
  | none =>
      cases found : params.toList.lookup name with
      | none => rfl
      | some value =>
          have there := Std.ExtTreeMap.mem_toList_iff_getElem?_eq_some.mp
            (Entries.mem_of_lookup found)
          exact absurd (held.symm.trans there) nofun

theorem written_keys (params : ReasonParams) :
    ((written params.toList).map Prod.fst).Nodup := by
  rw [written, List.map_map, List.Nodup, List.pairwise_map]
  refine params.distinct_keys_toList.imp fun {param other} apart same => apart ?_
  have names : param.1 = other.1 := same
  rw [names]
  exact Std.ReflCmp.compare_self

theorem stepwise_iff {reason : Reason} {template : Text} (supplied : Supplied reason template) :
    Stepwise reason template ↔ Undisturbed reason template := by
  have marks : ∀ param ∈ written reason.params.toList,
      placeholder param.1 ≠ [] ∧ Unbordered (placeholder param.1) := by
    intro param member
    obtain ⟨⟨name, value⟩, given, rfl⟩ := List.mem_map.mp member
    refine ⟨List.cons_ne_nil _ _, placeholder_unbordered (@placeholderNames_plain template _ ?_)⟩
    rw [← mem_templatePlaceholders, ← supplied]
    exact Std.ExtTreeMap.mem_iff_isSome_getElem?.mpr (by
      rw [Std.ExtTreeMap.mem_toList_iff_getElem?_eq_some.mp given]
      rfl)
  have unfilled : filled placeholder (fun _ => none) (pieces template) = template :=
    filledIn_none template
  calc Stepwise reason template
      ↔ Staged placeholder (written reason.params.toList) (pieces template) := by
        constructor
        · intro stepwise done rest whole
          obtain ⟨first, later, split, rfl, -⟩ := List.map_eq_append_iff.mp whole
          rw [unfilled, ← written, ← substituteAll_eq, ← filledIn_eq]
          exact stepwise first later split
        · intro staged done rest whole
          have stage := staged (written done) (written rest) (by
            rw [whole]
            exact List.map_append)
          rwa [unfilled, ← substituteAll_eq, ← filledIn_eq] at stage
    _ ↔ Apart placeholder (written reason.params.toList) (pieces template) :=
        staged_iff_apart (written_keys reason.params) marks (pieces template)
    _ ↔ Undisturbed reason template := by
        constructor
        · intro apart done name value rest whole
          rw [← valuesOf_written]
          refine apart (written done) name value.diagnosticValue (written rest) ?_
          rw [whole]
          exact List.map_append
        · intro undisturbed done name value rest whole
          obtain ⟨first, later, split, rfl, there⟩ := List.map_eq_append_iff.mp whole
          obtain ⟨⟨key, param⟩, others, rfl, same, -⟩ := List.map_eq_cons_iff.mp there
          cases same
          rw [← written, valuesOf_written]
          exact undisturbed first key param others split

/-- A reason is rendered when its parameters are those of the template, and then the text is the
template filled in at once, if no placeholder comes about where the template has none. -/
theorem ReasonCatalog.render_iff {fromYaml : Text → Except Text CatalogDocument}
    {yaml wikiId language : Text} {requiredCodes : Std.ExtTreeSet String} {catalog : ReasonCatalog}
    (loaded : ReasonCatalog.load fromYaml yaml wikiId language requiredCodes = .ok catalog)
    (reason : Reason) :
    ((∃ text, catalog.render reason = .ok text) ↔ ∃ entry,
      catalog.entries[reason.code]? = some entry ∧ Supplied reason entry.template) ∧
    ∀ entry, catalog.entries[reason.code]? = some entry → Supplied reason entry.template →
      (Stepwise reason entry.template ∧
        catalog.render reason =
          .ok (filledIn (fun name => reason.params[name]?) entry.template) ↔
        Undisturbed reason entry.template) := by
  constructor
  · constructor
    · rintro ⟨text, rendered⟩
      cases held : catalog.entries[reason.code]? with
      | none =>
          rw [ReasonCatalog.render, held] at rendered
          cases rendered
      | some entry =>
          refine ⟨entry, rfl, ?_⟩
          rcases catalog.render_entry held (ReasonCatalog.load_params loaded held) with
            ⟨-, supplied⟩ | ⟨⟨error, failed⟩, -⟩
          · exact supplied
          · exact absurd (rendered.symm.trans failed) nofun
    · rintro ⟨entry, held, supplied⟩
      rcases catalog.render_entry held (ReasonCatalog.load_params loaded held) with
        ⟨rendered, -⟩ | ⟨-, refused⟩
      · exact ⟨_, rendered⟩
      · exact absurd supplied refused
  · intro entry held supplied
    rw [← stepwise_iff supplied]
    refine ⟨And.left, fun stepwise => ⟨stepwise, ?_⟩⟩
    rcases catalog.render_entry held (ReasonCatalog.load_params loaded held) with
      ⟨rendered, -⟩ | ⟨-, refused⟩
    · rw [rendered, stepwise reason.params.toList [] (List.append_nil _).symm]
      have values : (fun name => reason.params.toList.lookup name) =
          fun name => reason.params[name]? := funext fun name => lookup_toList reason.params name
      rw [values]
    · exact absurd supplied refused

def chainedDocument : CatalogDocument where
  wikiId := "frwiki".toList
  language := "en".toList
  reasons := Std.ExtTreeMap.empty.insert "moved" ⟨"{a} to {b}".toList, ["a", "b"]⟩

def chainedReason : Reason where
  code := "moved"
  params := (Std.ExtTreeMap.empty.insert "a" (.text "{b}".toList)).insert "b"
    (.text "x".toList)

theorem chained_render_iff : ∃ catalog,
    ReasonCatalog.load (fun _ => .ok chainedDocument) [] "frwiki".toList "en".toList ∅ =
      .ok catalog ∧
    ((∃ text, catalog.render chainedReason = .ok text) ↔ ∃ entry,
      catalog.entries[chainedReason.code]? = some entry ∧
        Supplied chainedReason entry.template) := by
  have loads : (ReasonCatalog.load (fun _ => .ok chainedDocument) [] "frwiki".toList
      "en".toList ∅).toOption.isSome = true := by decide +kernel
  cases loaded : ReasonCatalog.load (fun _ => .ok chainedDocument) [] "frwiki".toList
      "en".toList ∅ with
  | error reason =>
      rw [loaded] at loads
      cases loads
  | ok catalog => exact ⟨catalog, rfl, (ReasonCatalog.render_iff loaded chainedReason).1⟩

/-- The value of the first parameter is itself filled in. -/
theorem chained_rendered : (ReasonCatalog.load (fun _ => .ok chainedDocument) [] "frwiki".toList
      "en".toList ∅ >>= fun catalog => catalog.render chainedReason) = .ok "x to x".toList ∧
    filledIn (fun name => chainedReason.params[name]?) "{a} to {b}".toList =
      "{b} to x".toList := by
  decide +kernel

end Substituting

end SP42.Intake
