import SP42.Base.FormEncoding
import SP42.Citation.Panel
import SP42.Lib.Search

/-!
The edit form of a catalogue record: read out of its page, and replayed with one field and
the comment changed. What is not recognized is refused.
-/
namespace SP42.Citation

/-- A raw record read. -/
structure OpenLibraryRecord where
  key : Text
  revision : Nat
  raw : Json

/-- A field change, bound to the revision it was computed against. -/
structure EnrichmentProposal where
  recordKey : Text
  baseRevision : Nat
  field : String
  current : Option Json
  proposed : Json
  source : Text
  comment : Text

/-- The value as one input of a form holds it. -/
def EnrichmentProposal.proposedFormValue (proposal : EnrichmentProposal) : Option Text :=
  match proposal.proposed with
  | .string value => some value
  | .array [value] => value.asStr
  | _ => none

section Entities

def hexDigits (text : Text) : Option Nat :=
  if text = [] then none
  else text.foldlM (fun value c => (FormEncoding.hexValue c).map fun digit => 16 * value + digit) 0

/-- `u32::from_str_radix`, after an optional plus. -/
def parseU32 (digits : Text → Option Nat) (text : Text) : Option Nat :=
  let body := match text with
    | '+' :: rest => rest
    | _ => text
  (digits body).bind fun n => if n ≤ u32Max then some n else none

/-- The number of a character reference, after its `#`. -/
def referenceCode : Text → Option Nat
  | 'x' :: digits => parseU32 hexDigits digits
  | 'X' :: digits => parseU32 hexDigits digits
  | digits => parseU32 Text.parseDigits digits

/-- What replaces the entity of this name; an unknown one is written out again. -/
def entityText (entity : Text) : Text :=
  let asWritten := '&' :: entity ++ [';']
  if entity = "amp".toList then ['&']
  else if entity = "lt".toList then ['<']
  else if entity = "gt".toList then ['>']
  else if entity = "quot".toList then ['"']
  else if entity = "apos".toList then ['\x27']
  else match entity with
    | '#' :: code =>
        match referenceCode code with
        | some n => if n.isValidChar then [Char.ofNat n] else asWritten
        | none => asWritten
    | _ => asWritten

/-- The loop of `decode_html_entities`, with the entity under way. -/
def decodeFrom : Option Text → Text → Text
  | none, [] => []
  | some entity, [] => entityText entity
  | none, c :: rest => if c = '&' then decodeFrom (some []) rest else c :: decodeFrom none rest
  | some entity, c :: rest =>
      if c = ';' then entityText entity ++ decodeFrom none rest
      else decodeFrom (some (entity ++ [c])) rest

def decodeHtmlEntities (s : Text) : Text := decodeFrom none s

end Entities

structure EditForm where
  actionPath : Text
  fields : List (Text × Text)

/-- The compiled patterns of the form reader, by their names in the source: what their
captures hold. -/
structure FormPatterns where
  /-- The action of each form, and the page after its opening tag. -/
  formOpen : Text → List (Text × Text)
  /-- The name and the contents of each block. -/
  selectBlock : Text → List (Text × Text)
  textareaBlock : Text → List (Text × Text)
  selectedOption : Text → Option Text
  optionValue : Text → Option Text
  radioTag : Text → List Text
  /-- The element and the whole tag. -/
  inputTag : Text → List (Text × Text)
  attrName : Text → Option Text
  attrValue : Text → Option Text
  attrType : Text → Option Text

section Reader

variable (patterns : FormPatterns) (toLowercase : Text → Text)

/-- The option that is sent for a selection. -/
def selectField (block : Text × Text) : Option (Text × Text) :=
  ((patterns.selectedOption block.2).or (patterns.optionValue block.2)).map fun value =>
    (block.1, decodeHtmlEntities value)

def tagValue (tag : Text) : Text :=
  ((patterns.attrValue tag).map decodeHtmlEntities).getD []

/-- The loop over the radio buttons: the first that is checked of every group. -/
def radioFields : List Text → List Text → List (Text × Text)
  | _, [] => []
  | seen, tag :: rest =>
      match patterns.attrName tag with
      | none => radioFields seen rest
      | some name =>
          if (Search.find "checked".toList (toLowercase tag)).isSome ∧ name ∉ seen then
            (name, tagValue patterns tag) :: radioFields (name :: seen) rest
          else radioFields seen rest

/-- The loop over the other inputs; a checkbox or a file input is refused. -/
def inputFields : List (Text × Text) → Option (List (Text × Text))
  | [] => some []
  | (element, tag) :: rest =>
      if toLowercase element ≠ "input".toList then inputFields rest
      else
        match patterns.attrName tag with
        | none => inputFields rest
        | some name =>
            let inputType := ((patterns.attrType tag).map toLowercase).getD "text".toList
            if inputType ∈ ["submit", "button", "image", "reset", "radio"].map String.toList then
              inputFields rest
            else if inputType ∈ ["checkbox", "file"].map String.toList then none
            else (inputFields rest).map fun fields => (name, tagValue patterns tag) :: fields

/-- The form that posts back to the record's own edit page, with all its fields. -/
def parseEditForm (html recordKey : Text) : Option EditForm := do
  let expectedAction := recordKey ++ "/edit".toList
  let (_, opened) ← (patterns.formOpen html).find? fun form =>
    form.1.rdropWhile (· == '#') == expectedAction
  let formEnd ← Search.find "</form>".toList opened
  let formHtml := opened.take formEnd
  let selects ← (patterns.selectBlock formHtml).mapM (selectField patterns)
  let textareas := (patterns.textareaBlock formHtml).map fun block =>
    (block.1, decodeHtmlEntities block.2)
  let radios := radioFields patterns toLowercase [] (patterns.radioTag formHtml)
  let inputs ← inputFields patterns toLowercase (patterns.inputTag formHtml)
  let fields := selects ++ textareas ++ radios ++ inputs
  if fields = [] then none else some { actionPath := expectedAction, fields := fields }

theorem parseEditForm_actionPath {html recordKey : Text} {form : EditForm}
    (parsed : parseEditForm patterns toLowercase html recordKey = some form) :
    form.actionPath = recordKey ++ "/edit".toList := by
  simp only [parseEditForm, Option.bind_eq_bind, Option.bind_eq_some_iff] at parsed
  obtain ⟨_, _, _, _, selects, _, inputs, _, made⟩ := parsed
  split at made
  · cases made
  · cases made
    rfl

end Reader

/-- The input name of a raw field: the `--` convention of the site. -/
def formFieldName (field : String) : Text :=
  if field = "isbn_13" ∨ field = "isbn_10" then "edition--identifiers--".toList ++ field.toList
  else "edition--".toList ++ field.toList ++ "--0".toList

/-- One field on its way into the request: the open slot takes the proposed value. -/
def fillField (target proposedValue comment : Text) (field : Text × Text) : Option (Text × Text) :=
  if field.1 = target ∧ Text.trim field.2 ≠ [] then none
  else if field.1 = "_comment".toList then some (field.1, comment)
  else if field.1 = target then some (field.1, proposedValue)
  else some field

/-- The form ready to be sent; both slots must exist. -/
def fillEditForm (form : EditForm) (proposal : EnrichmentProposal) : Option EditForm := do
  let target := formFieldName proposal.field
  let proposedValue ← proposal.proposedFormValue
  let fields ← form.fields.mapM (fillField target proposedValue proposal.comment)
  if form.fields.any (·.1 == target) && form.fields.any (·.1 == "_comment".toList) then
    some { form with fields := fields }
  else none

theorem fillEditForm_actionPath {form filled : EditForm} {proposal : EnrichmentProposal}
    (done : fillEditForm form proposal = some filled) : filled.actionPath = form.actionPath := by
  simp only [fillEditForm, Option.bind_eq_bind, Option.bind_eq_some_iff] at done
  obtain ⟨value, -, fields, -, made⟩ := done
  split at made
  · cases made
    rfl
  · cases made

end SP42.Citation
