import Mathlib
import SP42.Assessment.Appendix
import SP42.Diff.Structure
import SP42.Lib.Words
import SP42.Parsoid.Anchors

/-!
The media of a wikitext as three scanners read it (links, galleries, template parameters), and the
report on the media of two revisions.
-/
namespace SP42.Media

section Names

def underscoresToSpaces (text : Text) : Text := text.map fun c => if c = '_' then ' ' else c

def normalizeMediaTarget (target : Text) : Option Text :=
  let trimmed := Text.trim ((Text.trim target).dropWhile (· = ':'))
  match Words.splitOnce ':' trimmed with
  | none => none
  | some (namespace_, title) =>
      let namespace_ := Text.toAsciiLowercase (Text.trim namespace_)
      if namespace_ ∉ ["file".toList, "image".toList, "fichier".toList] then none
      else
        let title := Text.trimMatches (· = Char.ofNat 0) (Text.trim title)
        if title = [] then none else some ("File:".toList ++ underscoresToSpaces title)

def normalizeUsageSignature (parts : List Text) : Text :=
  Text.join " | ".toList ((parts.map Text.trim).filter fun part => !part.isEmpty)

def displayTitleFromFileName (fileName : Text) : Text :=
  if "File:".toList.isPrefixOf fileName then fileName.drop "File:".length else fileName

def normalizeTemplateName (rawName : Text) : Text :=
  Text.join [' '] (Parsoid.splitWhitespace (underscoresToSpaces (Text.trim rawName)))

def normalizeTemplateParameterName (rawName : Text) : Text :=
  ((Text.trim rawName).filter Char.isAlphanum).map Char.toLower

def mediaParameterNames : List Text :=
  ["image", "imagename", "imagefile", "photo", "logo", "seal", "sealimage", "signature", "map",
    "mapimage", "pushpinmap", "pushpinmapimage", "flag", "flagimage", "coatofarms", "blason",
    "drapeau", "carte", "screenshot", "cover", "patch", "crest", "emblem", "insignia",
    "symbol"].map String.toList

def imageSettingNames : List Text :=
  ["imagesize", "imagecaption", "imagelegend", "imagealt", "imageupright", "imagewidth",
    "imageheight"].map String.toList

def isMediaParameterName (parameterName : Text) : Bool :=
  let normalized := parameterName.rdropWhile Char.isDigit
  if normalized = [] then false
  else if normalized ∈ mediaParameterNames then true
  else Text.contains normalized "image".toList && decide (normalized ∉ imageSettingNames)

def mediaExtensions : List Text :=
  ["jpg", "jpeg", "png", "gif", "svg", "webp", "tif", "tiff", "pdf", "djvu", "ogg", "oga", "ogv",
    "webm"].map String.toList

def looksLikeMediaFileName (candidate : Text) : Bool :=
  let candidate := Text.trim candidate
  if candidate = [] ∨ ∃ c ∈ ['\n', '\x7b', '\x7d', '[', ']', '/'], c ∈ candidate then false
  else
    match Assessment.rsplitOnce '.' candidate with
    | none => false
    | some (baseName, extension) =>
        if Text.trim baseName = [] then false
        else decide (Text.toAsciiLowercase extension ∈ mediaExtensions)

theorem drop_lt {word remaining : Text} {position : Nat} (nonempty : 0 < word.length)
    (found : Search.find word remaining = some position) (more : Nat) :
    (remaining.drop (position + word.length + more)).length < remaining.length := by
  have bound := Search.find_add_le found
  rw [List.length_drop]
  omega

def stripHtmlComments (remaining : Text) : Text :=
  match found : Search.find "<!--".toList remaining with
  | none => remaining
  | some commentStart =>
      let afterStart := remaining.drop (commentStart + 4)
      match Search.find "-->".toList afterStart with
      | none => remaining.take commentStart
      | some commentEnd =>
          have := drop_lt (by decide) found (commentEnd + 3)
          remaining.take commentStart ++
            stripHtmlComments (remaining.drop (commentStart + 4 + (commentEnd + 3)))
termination_by remaining.length
decreasing_by exact this

def normalizeTemplateMediaValue (rawValue : Text) : Option Text :=
  let strippedComments := stripHtmlComments rawValue
  let firstLine := Text.trim
    (((Text.lines strippedComments).find? fun line => Text.trim line ≠ []).getD [])
  if firstLine = [] ∨ Text.contains firstLine "://".toList ∨ Text.contains firstLine ['[', '['] ∨
      Text.contains firstLine ['\x7b', '\x7b'] then none
  else
    let candidate := Text.trim ((Text.trim
      ((firstLine.takeWhile (· ≠ '|')).takeWhile (· ≠ '<'))).dropWhile (· = ':'))
    if candidate = [] then none
    else
      match normalizeMediaTarget candidate with
      | some fileName => some fileName
      | none =>
          if looksLikeMediaFileName candidate then
            some ("File:".toList ++ underscoresToSpaces candidate)
          else none

end Names

section Segments

/-- The loop of the splitter, with the brackets that are open and the segment in hand. -/
def splitTopLevelFrom (delimiter : Char) : Nat → Nat → Text → Text → List Text
  | _, _, segment, [] => [segment]
  | braces, brackets, segment, '\x7b' :: '\x7b' :: rest =>
      splitTopLevelFrom delimiter (braces + 1) brackets (segment ++ ['\x7b', '\x7b']) rest
  | braces, brackets, segment, '\x7d' :: '\x7d' :: rest =>
      splitTopLevelFrom delimiter (braces - 1) brackets (segment ++ ['\x7d', '\x7d']) rest
  | braces, brackets, segment, '[' :: '[' :: rest =>
      splitTopLevelFrom delimiter braces (brackets + 1) (segment ++ ['[', '[']) rest
  | braces, brackets, segment, ']' :: ']' :: rest =>
      splitTopLevelFrom delimiter braces (brackets - 1) (segment ++ [']', ']']) rest
  | braces, brackets, segment, c :: rest =>
      if c = delimiter ∧ braces = 0 ∧ brackets = 0 then
        segment :: splitTopLevelFrom delimiter braces brackets [] rest
      else splitTopLevelFrom delimiter braces brackets (segment ++ [c]) rest

def splitTopLevelSegments (text : Text) (delimiter : Char) : List Text :=
  splitTopLevelFrom delimiter 0 0 [] text

def splitTopLevelOnceFrom (delimiter : Char) : Nat → Nat → Text → Text → Option (Text × Text)
  | _, _, _, [] => none
  | braces, brackets, segment, '\x7b' :: '\x7b' :: rest =>
      splitTopLevelOnceFrom delimiter (braces + 1) brackets (segment ++ ['\x7b', '\x7b']) rest
  | braces, brackets, segment, '\x7d' :: '\x7d' :: rest =>
      splitTopLevelOnceFrom delimiter (braces - 1) brackets (segment ++ ['\x7d', '\x7d']) rest
  | braces, brackets, segment, '[' :: '[' :: rest =>
      splitTopLevelOnceFrom delimiter braces (brackets + 1) (segment ++ ['[', '[']) rest
  | braces, brackets, segment, ']' :: ']' :: rest =>
      splitTopLevelOnceFrom delimiter braces (brackets - 1) (segment ++ [']', ']']) rest
  | braces, brackets, segment, c :: rest =>
      if c = delimiter ∧ braces = 0 ∧ brackets = 0 then some (segment, rest)
      else splitTopLevelOnceFrom delimiter braces brackets (segment ++ [c]) rest

def splitTopLevelOnce (text : Text) (delimiter : Char) : Option (Text × Text) :=
  splitTopLevelOnceFrom delimiter 0 0 [] text

/-- The template bodies outside of other templates: the depth, and the text from where the body in
hand began. -/
def extractTemplateBodiesFrom : Nat → Option Text → Text → List Text
  | _, _, [] => []
  | depth, start, '\x7b' :: '\x7b' :: rest =>
      extractTemplateBodiesFrom (depth + 1) (if depth = 0 then some rest else start) rest
  | 0, start, '\x7d' :: '\x7d' :: rest => extractTemplateBodiesFrom 0 start rest
  | depth + 1, start, '\x7d' :: '\x7d' :: rest =>
      if depth = 0 then
        (start.map fun body => body.take (body.length - (rest.length + 2))).toList ++
          extractTemplateBodiesFrom 0 none rest
      else extractTemplateBodiesFrom depth start rest
  | depth, start, _ :: rest => extractTemplateBodiesFrom depth start rest

def extractTemplateBodies (wikitext : Text) : List Text := extractTemplateBodiesFrom 0 none wikitext

end Segments

section References

structure MediaReference where
  fileName : Text
  displayTitle : Text
  usageSignature : Text
  deriving DecidableEq

/-- The body of a link, and a line of a gallery. -/
def parseWikilinkMediaReference (linkBody : Text) : Option MediaReference :=
  let parts := linkBody.splitOn '|'
  match normalizeMediaTarget (parts.headD []) with
  | none => none
  | some fileName => some
      { displayTitle := displayTitleFromFileName fileName
        fileName
        usageSignature := normalizeUsageSignature parts.tail }

def extractWikilinkMediaReferences (wikitext : Text) : List MediaReference :=
  match opened : Search.find ['[', '['] wikitext with
  | none => []
  | some start =>
      match Search.find [']', ']'] (wikitext.drop (start + 2)) with
      | none => []
      | some stop =>
          have := drop_lt (by decide) opened (stop + 2)
          (parseWikilinkMediaReference ((wikitext.drop (start + 2)).take stop)).toList ++
            extractWikilinkMediaReferences (wikitext.drop (start + 2 + (stop + 2)))
termination_by wikitext.length
decreasing_by exact this

/-- What stands between the tags of the galleries. -/
def galleryContents (wikitext : Text) : List Text :=
  let lowercase := Text.toAsciiLowercase wikitext
  match opened : Search.find "<gallery".toList lowercase with
  | none => []
  | some start =>
      match Search.find ['>'] (lowercase.drop start) with
      | none => []
      | some openEnd =>
          let contentStart := start + openEnd + 1
          match Search.find "</gallery>".toList (lowercase.drop contentStart) with
          | none => []
          | some close =>
              have : (wikitext.drop (contentStart + close + 10)).length < wikitext.length := by
                have bound : start + 8 ≤ (wikitext.map Char.toLower).length :=
                  Search.find_add_le opened
                rw [List.length_map] at bound
                rw [List.length_drop]
                omega
              (wikitext.drop contentStart).take close ::
                galleryContents (wikitext.drop (contentStart + close + 10))
termination_by wikitext.length
decreasing_by exact this

def parseGalleryMediaReference (line : Text) : Option MediaReference :=
  let trimmed := Text.trim line
  if trimmed = [] ∨ trimmed.head? = some '#' then none else parseWikilinkMediaReference trimmed

def extractGalleryMediaReferences (wikitext : Text) : List MediaReference :=
  (galleryContents wikitext).flatMap fun content =>
    (Text.lines content).filterMap parseGalleryMediaReference

/-- A parameter of a template, where it names a file. -/
def parameterMediaReference (templateName parameter : Text) : Option MediaReference :=
  match splitTopLevelOnce parameter '=' with
  | none => none
  | some (rawName, rawValue) =>
      let parameterName := normalizeTemplateParameterName rawName
      if !isMediaParameterName parameterName then none
      else
        (normalizeTemplateMediaValue rawValue).map fun fileName =>
          { displayTitle := displayTitleFromFileName fileName
            fileName
            usageSignature := "template:".toList ++ templateName ++ " | ".toList ++ parameterName }

def templateMediaReferences (body : Text) : List MediaReference :=
  let parts := splitTopLevelSegments body '|'
  let templateName := normalizeTemplateName (parts.headD [])
  if templateName = [] then [] else parts.tail.filterMap (parameterMediaReference templateName)

def extractTemplateMediaReferences (wikitext : Text) : List MediaReference :=
  (extractTemplateBodies wikitext).flatMap templateMediaReferences

def extractMediaReferences (wikitext : Text) : List MediaReference :=
  extractWikilinkMediaReferences wikitext ++ extractGalleryMediaReferences wikitext ++
    extractTemplateMediaReferences wikitext

end References

section Report

inductive MediaDiffKind where
  | added
  | removed
  | changed
  deriving DecidableEq

structure MediaDiffEntry where
  kind : MediaDiffKind
  fileName : Text
  displayTitle : Text
  beforeOccurrences : Nat
  afterOccurrences : Nat
  beforeSignatures : List Text
  afterSignatures : List Text
  previewUrl : Option Text
  pageUrl : Option Text

structure MediaDiffReport where
  entries : List MediaDiffEntry
  notes : List Text

structure MediaAggregate where
  displayTitle : Text
  occurrences : Nat
  signatures : Finset Text

def MediaAggregate.add (entry : MediaAggregate) (reference : MediaReference) : MediaAggregate :=
  { entry with
    occurrences := entry.occurrences + 1
    signatures :=
      if reference.usageSignature = [] then entry.signatures
      else insert reference.usageSignature entry.signatures }

/-- The map by file, as the list of its entries. -/
def aggregateReference (reference : MediaReference) :
    List (Text × MediaAggregate) → List (Text × MediaAggregate)
  | [] => [(reference.fileName, MediaAggregate.add ⟨reference.displayTitle, 0, ∅⟩ reference)]
  | (fileName, entry) :: rest =>
      if fileName = reference.fileName then (fileName, entry.add reference) :: rest
      else (fileName, entry) :: aggregateReference reference rest

def aggregateMediaReferences (references : List MediaReference) : List (Text × MediaAggregate) :=
  references.foldl (fun aggregated reference => aggregateReference reference aggregated) []

def mediaDiffKind (before after : Option MediaAggregate) : Option MediaDiffKind :=
  match before, after with
  | none, some _ => some .added
  | some _, none => some .removed
  | some before, some after =>
      if before.occurrences ≠ after.occurrences ∨ before.signatures ≠ after.signatures then
        some .changed
      else none
  | none, none => none

def mediaDiffKindRank : MediaDiffKind → Nat
  | .added => 0
  | .removed => 1
  | .changed => 2

def sortedSignatures (entry : Option MediaAggregate) : List Text :=
  (entry.map fun entry => entry.signatures.sort (· ≤ ·)).getD []

def mediaDiffEntry (beforeMap afterMap : List (Text × MediaAggregate)) (fileName : Text) :
    Option MediaDiffEntry :=
  let before := beforeMap.lookup fileName
  let after := afterMap.lookup fileName
  (mediaDiffKind before after).map fun kind =>
    { kind
      fileName
      displayTitle := ((after.map (·.displayTitle)).or (before.map (·.displayTitle))).getD fileName
      beforeOccurrences := (before.map (·.occurrences)).getD 0
      afterOccurrences := (after.map (·.occurrences)).getD 0
      beforeSignatures := sortedSignatures before
      afterSignatures := sortedSignatures after
      previewUrl := none
      pageUrl := none }

/-- The order of the report. -/
def MediaDiffEntry.before (left right : MediaDiffEntry) : Bool :=
  mediaDiffKindRank left.kind < mediaDiffKindRank right.kind ||
    (mediaDiffKindRank left.kind = mediaDiffKindRank right.kind &&
      decide (left.displayTitle ≤ right.displayTitle))

def buildMediaDiff (before after : Text) : MediaDiffReport :=
  let beforeMap := aggregateMediaReferences (extractMediaReferences before)
  let afterMap := aggregateMediaReferences (extractMediaReferences after)
  let fileNames := ((beforeMap.map Prod.fst ++ afterMap.map Prod.fst).toFinset).sort (· ≤ ·)
  let entries := (fileNames.filterMap (mediaDiffEntry beforeMap afterMap)).mergeSort
    MediaDiffEntry.before
  { entries
    notes :=
      if entries = [] then ["No media references changed in the selected revision.".toList]
      else [] }

end Report

end SP42.Media
