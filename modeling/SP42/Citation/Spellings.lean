import SP42.Citation.PageTarget

/-!
The three spellings of a page: its bare title, its article's URL and the URL of the page script. All
name one title, but a revision is only read from the URL of the script.
-/
namespace SP42.Citation

open FormEncoding Whatwg

section Reading

/-- The name of a host. -/
structure Domain (host : Text) : Prop where
  inhabited : host ≠ []
  plain : ∀ c ∈ host, c.isAlphanum = true ∨ c = '-' ∨ c = '.'

theorem Domain.not_mem {host : Text} (domain : Domain host) {c : Char}
    (other : c.isAlphanum = false) (mark : c ≠ '-' ∧ c ≠ '.') : c ∉ host := by
  intro member
  rcases domain.plain c member with plain | same | same
  · rw [other] at plain
    cases plain
  · exact mark.1 same
  · exact mark.2 same

theorem hostEnd_plain {host : Text} (plain : ∀ c ∈ host, c ≠ ':' ∧ c ≠ '[' ∧ c ≠ ']') :
    hostEnd false host = (host, none) := by
  induction host with
  | nil => rfl
  | cons c host ih =>
      obtain ⟨colon, opens, closes⟩ := plain c List.mem_cons_self
      rw [hostEnd, if_neg fun found => colon found.1, if_neg opens, if_neg closes]
      dsimp only
      rw [ih fun d member => plain d (List.mem_cons_of_mem c member)]

def webSchemes : List Text := ["http".toList, "https".toList]

variable {hosts : Hosts} {scheme host read : Text}

/-- The URL of a host and what follows its slash. -/
def webUrl (scheme host rest : Text) : Text := scheme ++ "://".toList ++ (host ++ '/' :: rest)

theorem Domain.unslashed (domain : Domain host) {c : Char} (member : c ∈ host) :
    isSlash true c = false := by
  rw [isSlash, Bool.or_eq_false_iff, beq_eq_false_iff_ne, Bool.true_and, beq_eq_false_iff_ne]
  constructor <;> rintro rfl
  · exact domain.not_mem (by decide) (by decide) member
  · exact domain.not_mem (by decide) (by decide) member

theorem special_of_web (web : scheme ∈ webSchemes) : isSpecial scheme = true := by
  rcases List.mem_cons.mp web with rfl | there
  · rfl
  · rw [List.mem_singleton.mp there]
    rfl

theorem readAuthority_web (web : scheme ∈ webSchemes) (domain : Domain host)
    (known : hosts true host = some read) :
    readAuthority hosts scheme host = some (read, none) := by
  have credentials : afterCredentials host = host := by
    have marks : ∀ c ∈ host.reverse, (c != '@') = true := fun c member => bne_iff_ne.mpr fun same =>
      domain.not_mem (by decide) (by decide) (same ▸ List.mem_reverse.mp member)
    rw [afterCredentials, List.takeWhile_eq_self_iff.mpr marks, List.reverse_reverse]
  have ends : hostEnd false host = (host, none) := hostEnd_plain fun c member => by
    refine ⟨?_, ?_, ?_⟩ <;> rintro rfl <;>
      exact domain.not_mem (by decide) (by decide) member
  have plain : ¬ (List.contains host '@' ∧ host = []) := fun found => domain.inhabited found.2
  have named : ¬ (host = [] ∧ (isSpecial scheme = true ∨ (none : Option Text).isSome = true)) :=
    fun found => domain.inhabited found.1
  rw [readAuthority]
  dsimp only
  rw [credentials, ends, if_neg plain]
  dsimp only
  rw [if_neg named, special_of_web web, known]
  rfl

/-- A URL of the web is read as its host and its path. -/
theorem readFront_web (web : scheme ∈ webSchemes) (domain : Domain host)
    (known : hosts true host = some read) (rest : Text) :
    readFront hosts none (webUrl scheme host rest) =
      some ⟨scheme, some read, none, readPath scheme [] rest⟩ := by
  have begins : (host ++ '/' :: rest).dropWhile (isSlash true) = host ++ '/' :: rest := by
    cases start : host with
    | nil => exact absurd start domain.inhabited
    | cons c others =>
        have solid : isSlash true c = false := domain.unslashed (start ▸ List.mem_cons_self)
        rw [List.cons_append, List.dropWhile_cons_of_neg (by simp [solid])]
  have front : (host ++ '/' :: rest).takeWhile (fun c => !isSlash true c) = host := by
    rw [List.takeWhile_append_of_pos fun c member => by rw [domain.unslashed member]; rfl]
    exact List.append_nil host
  have back : (host ++ '/' :: rest).dropWhile (fun c => !isSlash true c) = '/' :: rest := by
    rw [List.dropWhile_append_of_pos fun c member => by rw [domain.unslashed member]; rfl]
    rfl
  have authority := readAuthority_web web domain known
  have slashes : afterSlashes hosts scheme ((host ++ '/' :: rest).dropWhile (isSlash true)) =
      some ⟨scheme, some read, none, readPath scheme [] rest⟩ := by
    rw [begins, afterSlashes, special_of_web web]
    dsimp only
    rw [front, back, authority]
    rfl
  rcases List.mem_cons.mp web with rfl | there
  · exact slashes
  · obtain rfl := List.mem_singleton.mp there
    exact slashes

/-- A character that is no blank and begins no fragment. -/
structure Solid (c : Char) : Prop where
  control : isC0OrSpace c = false
  ink : Text.isWhitespace c = false
  unmarked : c ≠ '#'

theorem solid_of_written {c : Char} (written : isWritten c = true) : Solid c := by
  have passes := written_passes written true
  obtain ⟨low, high⟩ := written_range written
  refine ⟨passes.1, ?_, passes.2.2⟩
  simp only [Text.isWhitespace, Bool.or_eq_false_iff, Bool.and_eq_false_iff,
    decide_eq_false_iff_not, beq_eq_false_iff_ne]
  omega

theorem Domain.solid (domain : Domain host) {c : Char} (member : c ∈ host) : Solid c ∧ c ≠ '?' := by
  have plain : isSerializedPlain c = true := by
    rcases domain.plain c member with plain | rfl | rfl
    · rw [isSerializedPlain, plain, Bool.true_or]
    · rfl
    · rfl
  refine ⟨solid_of_written (isWritten_of_plain plain), ?_⟩
  rintro rfl
  exact domain.not_mem (by decide) (by decide) member

theorem solid_of_all {text : Text}
    (all : text.all (fun c => !isC0OrSpace c && !Text.isWhitespace c && c != '#' && c != '?') =
      true) : ∀ c ∈ text, Solid c ∧ c ≠ '?' := by
  intro c member
  have plain := List.all_eq_true.mp all c member
  simp only [Bool.and_eq_true, Bool.not_eq_true', bne_iff_ne] at plain
  exact ⟨⟨plain.1.1.1, plain.1.1.2, plain.1.2⟩, plain.2⟩

theorem webUrl_solid (web : scheme ∈ webSchemes) (domain : Domain host) {rest : Text}
    (solid : ∀ c ∈ rest, Solid c ∧ c ≠ '?') : ∀ c ∈ webUrl scheme host rest, Solid c ∧ c ≠ '?' := by
  intro c member
  have front : ∀ c ∈ scheme ++ "://".toList, Solid c ∧ c ≠ '?' := by
    rcases List.mem_cons.mp web with rfl | there
    · exact solid_of_all rfl
    · rw [List.mem_singleton.mp there]
      exact solid_of_all rfl
  rcases List.mem_append.mp member with here | later
  · exact front c here
  · rcases List.mem_append.mp later with named | path
    · exact domain.solid named
    · rcases List.mem_cons.mp path with rfl | inside
      · exact ⟨⟨rfl, rfl, by decide⟩, by decide⟩
      · exact solid c inside

theorem clean_solid {text : Text} (solid : ∀ c ∈ text, isC0OrSpace c = false) :
    clean text = text := by
  have front : text.dropWhile isC0OrSpace = text := by
    cases text with
    | nil => rfl
    | cons c rest => exact List.dropWhile_cons_of_neg (by simp [solid c List.mem_cons_self])
  have back : text.rdropWhile isC0OrSpace = text := by
    rw [List.rdropWhile_eq_self_iff]
    intro inhabited
    simp [solid _ (List.getLast_mem inhabited)]
  rw [clean, front, back, filter_solid solid]

/-- A text of the web is read up to its query. -/
theorem parse_web (web : scheme ∈ webSchemes) (domain : Domain host)
    (known : hosts true host = some read) {rest : Text} (solid : ∀ c ∈ rest, Solid c ∧ c ≠ '?') :
    parse hosts none (webUrl scheme host rest) =
      some { toFront := ⟨scheme, some read, none, readPath scheme [] rest⟩
             query := none
             fragment := none } := by
  have passes := webUrl_solid web domain solid
  rw [parse_unqueried (clean_solid fun c member => (passes c member).1.control)
    (fun member => (passes '#' member).1.unmarked rfl) (fun member => (passes '?' member).2 rfl),
    Option.map_none, readFront_web web domain known]
  rfl

theorem parse_web_query (web : scheme ∈ webSchemes) (domain : Domain host)
    (known : hosts true host = some read) {rest query : Text}
    (solid : ∀ c ∈ rest, Solid c ∧ c ≠ '?') (queried : ∀ c ∈ query, Solid c) :
    parse hosts none (webUrl scheme host rest ++ '?' :: query) =
      some { toFront := ⟨scheme, some read, none, readPath scheme [] rest⟩
             query := some (percentEncode (querySet true) query)
             fragment := none } := by
  have passes := webUrl_solid web domain solid
  have whole : ∀ c ∈ webUrl scheme host rest ++ '?' :: query, Solid c := by
    intro c member
    rcases List.mem_append.mp member with front | back
    · exact (passes c front).1
    · rcases List.mem_cons.mp back with rfl | inside
      · exact ⟨rfl, rfl, by decide⟩
      · exact queried c inside
  rw [parse_queried (clean_solid fun c member => (whole c member).control)
    (fun member => (whole '#' member).unmarked rfl) (fun member => (passes '?' member).2 rfl),
    Option.map_none, readFront_web web domain known]
  dsimp only [Option.map_some]
  rw [special_of_web web]

end Reading

section Spellings

/-- A title of a page, with nothing in it that is read as an escape. -/
structure LegalTitle (title : Text) : Prop where
  inhabited : title ≠ []
  plain : ∀ c ∈ title, c ∉ ['#', '<', '>', '[', ']', '|', '\x7b', '\x7d']
  noEscape : ¬ HasEscape title
  noDots : ∀ piece ∈ title.splitOnP (· == '/'), piece ≠ ".".toList ∧ piece ≠ "..".toList

/-- What a spelling of a path leaves as it is. -/
structure KeptInPath (kept : Char → Bool) : Prop where
  solid : ∀ c, kept c = true → Solid c
  marks : ∀ c ∈ ['%', '?', '\\'], kept c = false

/-- What a spelling of a query leaves as it is. -/
structure KeptInQuery (kept : Char → Bool) : Prop where
  solid : ∀ c, kept c = true → Solid c
  marks : ∀ c ∈ ['%', '&', '+'], kept c = false

def spelled (kept : Char → Bool) (title : Text) : Text := percentEncode (fun c => !kept c) title

/-- The query that pins a revision. -/
def oldid (revision : Nat) : Text := "oldid=".toList ++ Text.ofNat revision

def wikiUrl (scheme host : Text) (kept : Char → Bool) (title : Text) : Text :=
  webUrl scheme host ("wiki/".toList ++ spelled kept title)

def indexUrl (scheme host : Text) (kept : Char → Bool) (title : Text) : Text :=
  webUrl scheme host "w/index.php".toList ++ '?' :: ("title=".toList ++ spelled kept title)

variable {kept : Char → Bool} {title : Text}

/-- Without dots in the title there are none in the path, however it is spelled. -/
theorem spelled_segments (path : KeptInPath kept) (legal : LegalTitle title) :
    ∀ segment ∈ (spelled kept title).splitOnP (isSlash true),
      isSingleDot segment = false ∧ isDoubleDot segment = false := by
  have escapes : (!kept '%') = true := by rw [path.marks '%' (by decide)]; rfl
  have leaves : ∀ byte, ∀ c ∈ percentByte byte, isSlash true c = false := by
    intro byte c member
    rw [isSlash, Bool.or_eq_false_iff, beq_eq_false_iff_ne, Bool.true_and, beq_eq_false_iff_ne]
    constructor <;> rintro rfl <;> exact mark_notMem_percentByte (by decide) byte member
  intro segment member
  rw [spelled, splitOnP_percentEncode leaves, List.mem_map] at member
  obtain ⟨piece, among, rfl⟩ := member
  have decoded := @percentDecodeStr_encode (fun c => !kept c) escapes piece
  have undotted : piece ≠ ".".toList ∧ piece ≠ "..".toList := by
    cases slash : kept '/' with
    | true =>
        have cuts : (fun c => isSlash true c && !!kept c) = (· == '/') := by
          funext c
          rw [isSlash, Bool.not_not, Bool.true_and]
          by_cases here : c = '/'
          · subst here
            rw [slash]
            rfl
          · by_cases back : c = '\\'
            · subst back
              rw [path.marks '\\' (by decide)]
              rfl
            · rw [beq_false_of_ne here, beq_false_of_ne back]
              rfl
        rw [cuts] at among
        exact legal.noDots piece among
    | false =>
        have cuts : ∀ c ∈ title, (isSlash true c && !!kept c) = false := by
          intro c _
          rw [isSlash, Bool.not_not, Bool.true_and]
          by_cases here : c = '/'
          · rw [here, slash, Bool.and_false]
          · by_cases back : c = '\\'
            · rw [back, path.marks '\\' (by decide), Bool.and_false]
            · rw [beq_false_of_ne here, beq_false_of_ne back]
              rfl
        rw [List.splitOnP_eq_singleton cuts, List.mem_singleton] at among
        subst among
        constructor <;> rintro rfl
        · exact (legal.noDots _ List.mem_cons_self).1 rfl
        · exact (legal.noDots _ List.mem_cons_self).2 rfl
  constructor
  · refine Bool.eq_false_iff.mpr fun dot => undotted.1 ?_
    rw [← decoded, singleDot_decoded dot]
    rfl
  · refine Bool.eq_false_iff.mpr fun dots => undotted.2 ?_
    rw [← decoded, doubleDot_decoded dots]
    rfl

/-- The path of an article's URL is the title, spelled. -/
theorem wiki_path (path : KeptInPath kept) (legal : LegalTitle title) {scheme : Text}
    (web : scheme ∈ webSchemes) :
    readPath scheme [] ("wiki/".toList ++ spelled kept title) =
      .segments ("wiki".toList ::
        ((spelled kept title).splitOnP (isSlash true)).map (percentEncode pathSet)) := by
  have other : scheme ≠ file := by
    rcases List.mem_cons.mp web with rfl | there
    · decide
    · rw [List.mem_singleton.mp there]
      decide
  have uncut : ∀ c ∈ "wiki".toList, isSlash true c = false := by
    intro c member
    have all : "wiki".toList.all (fun c => !isSlash true c) = true := rfl
    simpa using List.all_eq_true.mp all c member
  have segments : ("wiki/".toList ++ spelled kept title).splitOnP (isSlash true) =
      "wiki".toList :: (spelled kept title).splitOnP (isSlash true) :=
    List.splitOnP_append_cons_of_forall_mem uncut '/' rfl _
  rw [readPath, special_of_web web, segments, walk_plain other]
  · rfl
  · intro segment member
    rcases List.mem_cons.mp member with rfl | later
    · decide
    · exact spelled_segments path legal segment later

theorem solid_percentByte {byte : UInt8} {c : Char} (member : c ∈ percentByte byte) :
    Solid c ∧ c ≠ '?' := by
  refine ⟨solid_of_written (written_percentByte member), ?_⟩
  rintro rfl
  exact mark_notMem_percentByte (by decide) byte member

theorem mem_percentEncode {set : Char → Bool} {text : Text} {c : Char}
    (member : c ∈ percentEncode set text) : set c = false ∨ ∃ byte, c ∈ percentByte byte := by
  obtain ⟨d, -, inside⟩ := List.mem_flatMap.mp member
  split at inside
  · obtain ⟨byte, -, there⟩ := List.mem_flatMap.mp inside
    exact .inr ⟨byte, there⟩
  · next unset =>
      rw [List.mem_singleton.mp inside]
      exact .inl (eq_false_of_ne_true unset)

/-- The characters of a spelling are kept ones and those of escapes. -/
theorem mem_spelled {c : Char} (member : c ∈ spelled kept title) :
    kept c = true ∨ ∃ byte, c ∈ percentByte byte :=
  (mem_percentEncode member).imp_left fun unset => by simpa using unset

theorem spelled_ne_nil (inhabited : title ≠ []) : spelled kept title ≠ [] := by
  intro empty
  have shorter := length_le_percentEncode (fun c => !kept c) title
  rw [spelled] at empty
  rw [empty] at shorter
  exact inhabited (List.eq_nil_of_length_eq_zero (Nat.le_zero.mp shorter))

theorem path_solid (path : KeptInPath kept) :
    ∀ c ∈ spelled kept title, Solid c ∧ c ≠ '?' := by
  intro c member
  rcases mem_spelled member with keeps | ⟨byte, escape⟩
  · refine ⟨path.solid c keeps, ?_⟩
    rintro rfl
    rw [path.marks '?' (by decide)] at keeps
    cases keeps
  · exact solid_percentByte escape

theorem path_unslashed (path : KeptInPath kept) :
    ∀ c ∈ spelled kept title, isSlash true c = true → c = '/' := by
  intro c member cut
  rw [isSlash, Bool.or_eq_true, beq_iff_eq, Bool.true_and, beq_iff_eq] at cut
  rcases cut with same | rfl
  · exact same
  · rcases mem_spelled member with keeps | ⟨byte, escape⟩
    · rw [path.marks '\\' (by decide)] at keeps
      cases keeps
    · exact absurd escape (mark_notMem_percentByte (by decide) byte)

/-- The parser of URLs leaves escapes alone. -/
theorem percentByte_unset {byte : UInt8} {c : Char} (escape : c ∈ percentByte byte)
    (special : Bool) : querySet special c = false ∧ pathSet c = false := by
  have query := fun special => (written_passes (written_percentByte escape) special).2.1
  refine ⟨query special, ?_⟩
  rw [pathSet, query, Bool.false_or]
  refine Bool.eq_false_iff.mpr fun found => ?_
  simp only [List.contains_iff_mem, List.mem_cons, List.not_mem_nil, or_false] at found
  rcases found with rfl | rfl | rfl | rfl | rfl <;>
    exact mark_notMem_percentByte (by decide) byte escape

/-- The path that is read is the title again. -/
theorem wiki_title (path : KeptInPath kept) (legal : LegalTitle title) {scheme read : Text}
    (web : scheme ∈ webSchemes) {url : Url}
    (front : url.toFront =
      ⟨scheme, some read, none, readPath scheme [] ("wiki/".toList ++ spelled kept title)⟩) :
    ∃ raw, urlPath url = wikiPrefix ++ raw ∧ raw ≠ [] ∧ percentDecodeStr raw = title := by
  refine ⟨percentEncode pathSet (spelled kept title), ?_, ?_, ?_⟩
  · have read_ : url.path = readPath scheme [] ("wiki/".toList ++ spelled kept title) := by
      rw [front]
    rw [urlPath, read_, wiki_path path legal web]
    dsimp only
    rw [List.flatMap_cons, List.flatMap_map, flatMap_splitOnP rfl (path_unslashed path)]
    rfl
  · intro empty
    have shorter := length_le_percentEncode pathSet (spelled kept title)
    rw [empty] at shorter
    exact spelled_ne_nil legal.inhabited (List.eq_nil_of_length_eq_zero (Nat.le_zero.mp shorter))
  · rw [spelled,
      percentEncode_percentEncode fun byte c escape => (percentByte_unset escape false).2]
    exact percentDecodeStr_encode (by rw [path.marks '%' (by decide)]; rfl) title

theorem isWeb_of_web {scheme : Text} (web : scheme ∈ webSchemes) {url : Url}
    (same : url.scheme = scheme) : isWeb url = true := by
  rw [isWeb, same]
  rcases List.mem_cons.mp web with rfl | there
  · rfl
  · rw [List.mem_singleton.mp there]
    rfl

/-- The articles' URL gives the title, whatever the query asks for. -/
theorem wiki_target {hosts : Hosts} {scheme host read rest : Text} (web : scheme ∈ webSchemes)
    (path : KeptInPath kept) (legal : LegalTitle title) {url : Url}
    (plain : ∀ c ∈ wikiUrl scheme host kept title ++ rest, Text.isWhitespace c = false)
    (parsed : parse hosts none (wikiUrl scheme host kept title ++ rest) = some url)
    (front : url.toFront =
      ⟨scheme, some read, none, readPath scheme [] ("wiki/".toList ++ spelled kept title)⟩) :
    parsePageTarget hosts (wikiUrl scheme host kept title ++ rest) =
      ⟨normalizeTitleSpacing title, 0⟩ := by
  obtain ⟨raw, there, some_, decoded⟩ := wiki_title path legal web front
  have schemed : isWeb url = true := isWeb_of_web web (congrArg Front.scheme front)
  rw [parsePageTarget, Text.trim_of_solid plain, parsed]
  dsimp only
  rw [Option.filter_some, if_pos schemed]
  dsimp only
  rw [there, List.drop_left, if_pos ⟨List.prefix_append _ _, some_⟩, normalizeTitle, decoded]

theorem query_solid (query : KeptInQuery kept) : ∀ c ∈ spelled kept title, Solid c := by
  intro c member
  rcases mem_spelled member with keeps | ⟨byte, escape⟩
  · exact query.solid c keeps
  · exact (solid_percentByte escape).1

theorem oldid_solid (revision : Nat) : ∀ c ∈ oldid revision, Solid c := by
  intro c member
  rcases List.mem_append.mp member with name | digit
  · exact (solid_of_all rfl c name).1
  · refine solid_of_written (isWritten_of_plain ?_)
    rw [isSerializedPlain, Char.isAlphanum, Text.isDigit_of_mem_ofNat digit, Bool.or_true,
      Bool.true_or]

theorem oldid_uncut (revision : Nat) : '&' ∉ oldid revision := by
  intro member
  rcases List.mem_append.mp member with name | digit
  · exact absurd name (by decide)
  · exact absurd (Text.isDigit_of_mem_ofNat digit) (by decide)

/-- The title's spelling as the URL holds it is decoded to the title. -/
theorem query_decoded (query : KeptInQuery kept) :
    '&' ∉ percentEncode (querySet true) (spelled kept title) ∧
      decodeComponent (percentEncode (querySet true) (spelled kept title)) = title := by
  have absent : ∀ c ∈ ['&', '+'], c ∉ percentEncode (querySet true) (spelled kept title) := by
    intro c mark member
    rw [spelled, percentEncode_percentEncode fun byte c escape => (percentByte_unset escape true).1]
      at member
    have other : (!kept c || querySet true c) = true := by
      rw [query.marks c (List.mem_cons_of_mem _ mark)]
      rfl
    rcases mem_percentEncode member with unset | ⟨byte, escape⟩
    · rw [other] at unset
      cases unset
    · simp only [List.mem_cons, List.not_mem_nil, or_false] at mark
      rcases mark with rfl | rfl <;> exact mark_notMem_percentByte (by decide) byte escape
  refine ⟨absent '&' (by decide), ?_⟩
  rw [decodeComponent, percentDecode_eq (absent '+' (by decide)), spelled,
    percentEncode_percentEncode fun byte c escape => (percentByte_unset escape true).1]
  exact percentDecodeStr_encode (by rw [query.marks '%' (by decide)]; rfl) title

theorem oldid_unset (revision : Nat) :
    percentEncode (querySet true) (oldid revision) = oldid revision := by
  refine percentEncode_of_unset fun c member => ?_
  rcases List.mem_append.mp member with name | digit
  · have all : "oldid=".toList.all (fun c => !querySet true c) = true := rfl
    simpa using List.all_eq_true.mp all c name
  · refine (written_passes (isWritten_of_plain ?_) true).2.1
    rw [isSerializedPlain, Char.isAlphanum, Text.isDigit_of_mem_ofNat digit, Bool.or_true,
      Bool.true_or]

/-- The pairs of the page script's query are the title and the revision. -/
theorem index_pairs (query : KeptInQuery kept) (revision : Nat) :
    formPairs (percentEncode (querySet true)
        ("title=".toList ++ (spelled kept title ++ '&' :: oldid revision))) =
      [("title", title), ("oldid", Text.ofNat revision)] := by
  obtain ⟨uncut, decoded⟩ := @query_decoded kept title query
  have written : percentEncode (querySet true)
      ("title=".toList ++ (spelled kept title ++ '&' :: oldid revision)) =
      ("title".toList ++ '=' :: percentEncode (querySet true) (spelled kept title)) ++
        '&' :: ("oldid".toList ++ '=' :: Text.ofNat revision) := by
    have cut : percentEncode (querySet true) ('&' :: oldid revision) = '&' :: oldid revision := by
      have split := percentEncode_append (querySet true) ['&'] (oldid revision)
      rw [oldid_unset] at split
      exact split
    rw [percentEncode_append, percentEncode_append, cut]
    rfl
  have first : '&' ∉ "title".toList ++
      '=' :: percentEncode (querySet true) (spelled kept title) := by
    intro member
    rcases List.mem_append.mp member with name | rest
    · exact absurd name (by decide)
    · rcases List.mem_cons.mp rest with equals | value
      · exact absurd equals (by decide)
      · exact uncut value
  have digits : ∀ {c : Char}, c.isDigit = false → c ∉ Text.ofNat revision := by
    intro c other member
    rw [Text.isDigit_of_mem_ofNat member] at other
    cases other
  have number : decodeComponent (Text.ofNat revision) = Text.ofNat revision := by
    refine decodeComponent_plain (digits rfl) ?_
    rintro ⟨a, b, escape, -⟩
    exact digits rfl (escape.subset List.mem_cons_self)
  have last : '&' ∉ "oldid".toList ++ '=' :: Text.ofNat revision := oldid_uncut revision
  rw [written, formPairs_append, formPairs_uncut first (by simp), readPair_eq (by decide), decoded,
    formPairs_uncut last (by simp), readPair_eq (by decide), number]
  rfl

/-- The page script's URL gives the title and the revision. -/
theorem index_target {hosts : Hosts} {scheme host read : Text} (web : scheme ∈ webSchemes)
    (domain : Domain host) (known : hosts true host = some read) (query : KeptInQuery kept)
    (legal : LegalTitle title) {revision : Nat} (small : revision ≤ u64Max) :
    parsePageTarget hosts (indexUrl scheme host kept title ++ '&' :: oldid revision) =
      ⟨normalizeTitleSpacing title, revision⟩ := by
  have whole : indexUrl scheme host kept title ++ '&' :: oldid revision =
      webUrl scheme host "w/index.php".toList ++
        '?' :: ("title=".toList ++ (spelled kept title ++ '&' :: oldid revision)) := by
    simp only [indexUrl, List.append_assoc, List.cons_append]
  have queried : ∀ c ∈ "title=".toList ++ (spelled kept title ++ '&' :: oldid revision),
      Solid c := by
    intro c member
    rcases List.mem_append.mp member with name | rest
    · exact (solid_of_all rfl c name).1
    · rcases List.mem_append.mp rest with value | cut
      · exact query_solid query c value
      · rcases List.mem_cons.mp cut with rfl | number
        · exact ⟨rfl, rfl, by decide⟩
        · exact oldid_solid revision c number
  have script : ∀ c ∈ "w/index.php".toList, Solid c ∧ c ≠ '?' := solid_of_all rfl
  have path := webUrl_solid web domain script
  have plain : ∀ c ∈ webUrl scheme host "w/index.php".toList ++
      '?' :: ("title=".toList ++ (spelled kept title ++ '&' :: oldid revision)),
      Text.isWhitespace c = false := by
    intro c member
    rcases List.mem_append.mp member with front | back
    · exact (path c front).1.ink
    · rcases List.mem_cons.mp back with rfl | inside
      · rfl
      · exact (queried c inside).ink
  have parsed := parse_web_query web domain known script queried
  rw [whole, parsePageTarget, Text.trim_of_solid plain, parsed]
  dsimp only
  rw [Option.filter_some, if_pos (isWeb_of_web web rfl)]
  dsimp only
  rw [if_neg, Option.getD_some, index_pairs query]
  · cases title with
    | nil => exact absurd rfl legal.inhabited
    | cons c title =>
        have read_ : readQueryPairs [("title", c :: title), ("oldid", Text.ofNat revision)] =
            (some (c :: title), (Text.parseU64 (Text.ofNat revision)).getD 0) := rfl
        rw [read_, Text.parseU64_ofNat small]
        dsimp only
        rw [normalizeTitle, percentDecodeStr_plain legal.noEscape]
        rfl
  · have directory : urlPath
        { toFront := ⟨scheme, some read, none, readPath scheme [] "w/index.php".toList⟩
          query := some (percentEncode (querySet true)
            ("title=".toList ++ (spelled kept title ++ '&' :: oldid revision)))
          fragment := none } = "/w/index.php".toList := by
      rcases List.mem_cons.mp web with rfl | there
      · rfl
      · rw [List.mem_singleton.mp there]
        rfl
    rw [directory]
    decide

/-- A title that is not itself a URL of the web. -/
def Bare (hosts : Hosts) (title : Text) : Prop :=
  ∀ url, parse hosts none (Text.trim title) = some url → isWeb url = false

theorem splitWhitespace_gap (before rest : Text) {space : Char}
    (gap : Text.isWhitespace space = true) : Parsoid.splitWhitespace (before ++ space :: rest) =
      Parsoid.splitWhitespace before ++ Parsoid.splitWhitespace rest := by
  rw [Parsoid.splitWhitespace, Words.words_append before gap, List.filter_append]
  rfl

theorem splitWhitespace_blank_append {blank : Text}
    (blanks : ∀ c ∈ blank, Text.isWhitespace c = true) (rest : Text) :
    Parsoid.splitWhitespace (blank ++ rest) = Parsoid.splitWhitespace rest := by
  induction blank with
  | nil => rfl
  | cons space blank ih =>
      have first := splitWhitespace_gap [] (blank ++ rest) (blanks space List.mem_cons_self)
      exact first.trans (ih fun c member => blanks c (List.mem_cons_of_mem space member))

theorem splitWhitespace_append_blank {blank : Text}
    (blanks : ∀ c ∈ blank, Text.isWhitespace c = true) (text : Text) :
    Parsoid.splitWhitespace (text ++ blank) = Parsoid.splitWhitespace text := by
  cases blank with
  | nil => rw [List.append_nil]
  | cons space blank =>
      have nothing := splitWhitespace_blank_append
        (fun c member => blanks c (List.mem_cons_of_mem space member)) []
      rw [List.append_nil] at nothing
      rw [splitWhitespace_gap text blank (blanks space List.mem_cons_self), nothing]
      exact List.append_nil _

/-- The spacing does not see the blanks around a title. -/
theorem normalizeTitleSpacing_trim (title : Text) :
    normalizeTitleSpacing (Text.trim title) = normalizeTitleSpacing title := by
  let space : Char → Char := fun c => if c = '_' then ' ' else c
  have spaced : ∀ {blank : Text}, (∀ c ∈ blank, Text.isWhitespace c = true) →
      ∀ c ∈ blank.map space, Text.isWhitespace c = true := by
    intro blank blanks c member
    obtain ⟨d, among, rfl⟩ := List.mem_map.mp member
    by_cases under : d = '_'
    · exact (congrArg Text.isWhitespace (if_pos under)).trans rfl
    · exact (congrArg Text.isWhitespace (if_neg under)).trans (blanks d among)
  have whole : title = title.takeWhile Text.isWhitespace ++ (Text.trim title ++
      (title.dropWhile Text.isWhitespace).rtakeWhile Text.isWhitespace) := by
    rw [Text.trim, Text.trimEnd, Text.trimStart, List.rdropWhile_append_rtakeWhile,
      List.takeWhile_append_dropWhile]
  have words : Parsoid.splitWhitespace ((Text.trim title).map space) =
      Parsoid.splitWhitespace (title.map space) := by
    conv_rhs => rw [whole, List.map_append, List.map_append]
    rw [splitWhitespace_blank_append (spaced fun c => List.mem_takeWhile_imp),
      splitWhitespace_append_blank (spaced fun c => List.mem_rtakeWhile_imp)]
  exact congrArg (Text.join [' ']) words

theorem bare_target {hosts : Hosts} (bare : Bare hosts title) :
    parsePageTarget hosts title = ⟨normalizeTitleSpacing title, 0⟩ := by
  have none_ : (parse hosts none (Text.trim title)).filter isWeb = none := by
    rw [Option.filter_eq_none_iff]
    intro url parsed
    rw [bare url parsed]
    exact Bool.false_ne_true
  rw [parsePageTarget]
  dsimp only
  rw [none_, normalizeTitleSpacing_trim]

variable {hosts : Hosts} {scheme host read : Text} {inPath inQuery : Char → Bool}

/-- The bare title and its two URLs, pinned to the revision, name one page and that revision. -/
def SamePage (hosts : Hosts) (bare article script : Text) (revision : Nat) : Prop :=
  (parsePageTarget hosts bare).title = (parsePageTarget hosts article).title ∧
    (parsePageTarget hosts bare).title = (parsePageTarget hosts script).title ∧
    (parsePageTarget hosts article).revId = revision ∧
    (parsePageTarget hosts script).revId = revision

/-- The three spellings name one title, and only the page script's URL pins the revision. -/
theorem parsePageTarget_spellings (web : scheme ∈ webSchemes) (domain : Domain host)
    (known : hosts true host = some read) (path : KeptInPath inPath) (query : KeptInQuery inQuery)
    (legal : LegalTitle title) {revision : Nat} (pinned : 1 ≤ revision)
    (small : revision ≤ u64Max) :
    parsePageTarget hosts (wikiUrl scheme host inPath title ++ '?' :: oldid revision) =
        ⟨normalizeTitleSpacing title, 0⟩ ∧
      parsePageTarget hosts (wikiUrl scheme host inPath title) =
        ⟨normalizeTitleSpacing title, 0⟩ ∧
      parsePageTarget hosts (indexUrl scheme host inQuery title ++ '&' :: oldid revision) =
        ⟨normalizeTitleSpacing title, revision⟩ ∧
      (Bare hosts title → parsePageTarget hosts title = ⟨normalizeTitleSpacing title, 0⟩) ∧
      ¬ SamePage hosts title (wikiUrl scheme host inPath title ++ '?' :: oldid revision)
        (indexUrl scheme host inQuery title ++ '&' :: oldid revision) revision := by
  have solid : ∀ c ∈ "wiki/".toList ++ spelled inPath title, Solid c ∧ c ≠ '?' := by
    intro c member
    rcases List.mem_append.mp member with name | inside
    · exact solid_of_all rfl c name
    · exact path_solid path c inside
  have passes := webUrl_solid web domain solid
  have article : parsePageTarget hosts
      (wikiUrl scheme host inPath title ++ '?' :: oldid revision) =
        ⟨normalizeTitleSpacing title, 0⟩ := by
    refine wiki_target web path legal ?_
      (parse_web_query web domain known solid (oldid_solid revision)) rfl
    intro c member
    rcases List.mem_append.mp member with front | back
    · exact (passes c front).1.ink
    · rcases List.mem_cons.mp back with rfl | inside
      · rfl
      · exact (oldid_solid revision c inside).ink
  have latest : parsePageTarget hosts (wikiUrl scheme host inPath title) =
      ⟨normalizeTitleSpacing title, 0⟩ := by
    have parsed := parse_web web domain known solid
    rw [← List.append_nil (wikiUrl scheme host inPath title)]
    refine wiki_target web path legal ?_ (by rw [List.append_nil]; exact parsed) rfl
    rw [List.append_nil]
    exact fun c member => (passes c member).1.ink
  refine ⟨article, latest, index_target web domain known query legal small, bare_target, ?_⟩
  rintro ⟨-, -, pins, -⟩
  rw [article] at pins
  exact absurd pins (Nat.ne_of_lt pinned)

/-- The letters, digits and hyphens, and the slash and the dot of subpages. -/
def plainKept (c : Char) : Bool := c.isAlphanum || ['-', '.', '/'].contains c

theorem plainKept_solid {c : Char} (keeps : plainKept c = true) : Solid c := by
  rw [plainKept, Bool.or_eq_true, List.contains_iff_mem] at keeps
  rcases keeps with plain | mark
  · exact solid_of_written (isWritten_of_plain (by rw [isSerializedPlain, plain, Bool.true_or]))
  · simp only [List.mem_cons, List.not_mem_nil, or_false] at mark
    rcases mark with rfl | rfl | rfl <;> exact ⟨rfl, rfl, by decide⟩

theorem plainKept_path : KeptInPath plainKept := by
  refine ⟨fun _ => plainKept_solid, fun c mark => ?_⟩
  simp only [List.mem_cons, List.not_mem_nil, or_false] at mark
  rcases mark with rfl | rfl | rfl <;> rfl

theorem plainKept_query : KeptInQuery plainKept := by
  refine ⟨fun _ => plainKept_solid, fun c mark => ?_⟩
  simp only [List.mem_cons, List.not_mem_nil, or_false] at mark
  rcases mark with rfl | rfl | rfl <;> rfl

theorem subpage_legal : LegalTitle "A/B".toList := by
  refine ⟨by decide, fun c member => ?_, ?_, by decide⟩
  · have all : "A/B".toList.all (fun c => decide (c ∉ ['#', '<', '>', '[', ']', '|', '\x7b',
        '\x7d'])) = true := rfl
    exact of_decide_eq_true (List.all_eq_true.mp all c member)
  · rintro ⟨a, b, escape, -⟩
    exact absurd (escape.subset List.mem_cons_self) (by decide)

theorem sample_domain : Domain "e.org".toList := by
  refine ⟨by decide, fun c member => ?_⟩
  have all : "e.org".toList.all (fun c => c.isAlphanum || c == '-' || c == '.') = true := rfl
  simpa [or_assoc] using List.all_eq_true.mp all c member

def anyHost : Hosts := fun _ host => some host

theorem subpage_spellings : ¬ SamePage anyHost "A/B".toList
    (wikiUrl "https".toList "e.org".toList plainKept "A/B".toList ++ '?' :: oldid 5)
    (indexUrl "https".toList "e.org".toList plainKept "A/B".toList ++ '&' :: oldid 5) 5 :=
  (parsePageTarget_spellings (by decide) sample_domain rfl plainKept_path plainKept_query
    subpage_legal (by decide) (by decide)).2.2.2.2

/-- An article's URL with a pinned revision gives the latest one, the page script's the pinned. -/
theorem pinned_article_latest :
    parsePageTarget anyHost "https://e.org/wiki/A/B?oldid=5".toList = ⟨"A/B".toList, 0⟩ ∧
      parsePageTarget anyHost "https://e.org/w/index.php?title=A/B&oldid=5".toList =
        ⟨"A/B".toList, 5⟩ := by
  decide +kernel

end Spellings

end SP42.Citation
