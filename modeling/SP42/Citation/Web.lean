import SP42.Base.Text

/-!
What the citation code uses of URLs: they are parsed, compared and taken apart by a
library, which is a parameter here.
-/
namespace SP42.Citation

/-- The URL library, over its own type of parsed URLs. -/
structure UrlLibrary (Url : Type) where
  parse : Text → Option Url
  asStr : Url → Text
  hostStr : Url → Option Text
  pathSegments : Url → Option (List Text)

/-- The item id of an `archive.org/details/…` link. -/
def extractOcaid {Url : Type} (urls : UrlLibrary Url) (itemUrl : Text) : Option Text := do
  let url ← urls.parse itemUrl
  if urls.hostStr url ≠ some "archive.org".toList ∧
      urls.hostStr url ≠ some "www.archive.org".toList then none
  else do
    let segments ← urls.pathSegments url
    match segments with
    | details :: ocaid :: _ => if details = "details".toList ∧ ocaid ≠ [] then some ocaid else none
    | _ => none

/-- A reader of `https` URLs without port, query and fragment. -/
def httpsUrls : UrlLibrary (Text × List Text) where
  parse text :=
    if "https://".toList.isPrefixOf text then
      match (text.drop 8).splitOn '/' with
      | host :: segments => some (host, segments)
      | [] => none
    else none
  asStr url := "https://".toList ++ List.intercalate ['/'] (url.1 :: url.2)
  hostStr url := some url.1
  pathSegments url := some url.2

theorem httpsUrls_parse_isSome {text : Text} (secure : "https://".toList <+: text) :
    (httpsUrls.parse text).isSome = true := by
  unfold httpsUrls
  dsimp only
  rw [if_pos (List.isPrefixOf_iff_prefix.mpr secure)]
  cases split : (text.drop 8).splitOn '/' with
  | nil => exact absurd split (List.splitOn_ne_nil '/' _)
  | cons host segments => rfl

end SP42.Citation
