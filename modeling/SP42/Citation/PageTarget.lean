import SP42.Base.FormWriting
import SP42.Base.Number
import SP42.Parsoid.Anchors

/-!
What page a reference of the operator names: a title as it is written, or the URL of an article or
of the page script.
-/
namespace SP42.Citation

open FormEncoding Whatwg

section Target

/-- A page; the revision `0` is the latest one. -/
structure PageTarget where
  title : Text
  revId : Nat
  deriving DecidableEq

/-- Spaces for underscores, and one for every run of them. -/
def normalizeTitleSpacing (raw : Text) : Text :=
  Parsoid.normalizeAnchorText (raw.map fun c => if c = '_' then ' ' else c)

/-- The escapes of a path, in which a plus stands for itself. -/
def percentPieces : Text → List FormEncoding.Piece
  | [] => []
  | '%' :: a :: b :: rest =>
      match escaped a b with
      | some value => .octet value :: percentPieces rest
      | none => .plain '%' :: percentPieces (a :: b :: rest)
  | c :: rest => .plain c :: percentPieces rest

def percentDecodeStr (text : Text) : Text := utf8Lossy none (percentPieces text)

def normalizeTitle (raw : Text) : Text := normalizeTitleSpacing (percentDecodeStr raw)

/-- `Url::path`. -/
def urlPath (url : Url) : Text :=
  match url.path with
  | .bare text => text
  | .segments segments => segments.flatMap ('/' :: ·)

def wikiPrefix : Text := "/wiki/".toList

/-- The loop over the query. -/
def readQueryPairs (pairs : List (String × Text)) : Option Text × Nat :=
  pairs.foldl
    (fun found pair =>
      if pair.1 = "title" then (some pair.2, found.2)
      else if pair.1 = "oldid" then (found.1, (Text.parseU64 pair.2).getD 0)
      else found)
    (none, 0)

def isWeb (url : Url) : Bool := url.scheme == "http".toList || url.scheme == "https".toList

def parsePageTarget (hosts : Hosts) (input : Text) : PageTarget :=
  let trimmed := Text.trim input
  let bare : PageTarget := ⟨normalizeTitleSpacing trimmed, 0⟩
  match (parse hosts none trimmed).filter isWeb with
  | none => bare
  | some url =>
      let path := urlPath url
      if wikiPrefix <+: path ∧ path.drop wikiPrefix.length ≠ [] then
        ⟨normalizeTitle (path.drop wikiPrefix.length), 0⟩
      else
        match readQueryPairs (formPairs (url.query.getD [])) with
        | (some (c :: title), revId) => ⟨normalizeTitle (c :: title), revId⟩
        | _ => bare

end Target

section Decoding

theorem percentPieces_cons {c : Char} (unescaped : c ≠ '%') (rest : Text) :
    percentPieces (c :: rest) = .plain c :: percentPieces rest := by
  rw [percentPieces]
  exact fun a b more escape => absurd escape unescaped

theorem percentPieces_bytes (bytes : List UInt8) (rest : Text) :
    percentPieces (bytes.flatMap percentByte ++ rest) =
      bytes.map (fun byte => .octet byte.toNat) ++ percentPieces rest := by
  induction bytes with
  | nil => rfl
  | cons byte bytes ih =>
      have bound := byte.toNat_lt
      have high := upperHex_value (byte.toNat / 16) (by omega)
      have low := upperHex_value (byte.toNat % 16) (by omega)
      have whole : byte.toNat / 16 * 16 + byte.toNat % 16 = byte.toNat := by omega
      have first : ∀ tail, percentPieces (percentByte byte ++ tail) =
          .octet byte.toNat :: percentPieces tail := by
        intro tail
        simp only [percentByte, List.cons_append, List.nil_append, percentPieces, escaped, high,
          low, whole]
      rw [List.flatMap_cons, List.append_assoc, first, ih]
      rfl

variable {set : Char → Bool}

/-- What is percent-encoded is read back, whatever follows. -/
theorem lossy_percentEncode (escapes : set '%' = true) (text rest : Text) :
    utf8Lossy none (percentPieces (percentEncode set text ++ rest)) =
      text ++ utf8Lossy none (percentPieces rest) := by
  induction text with
  | nil => rfl
  | cons c text ih =>
      have unfolded : percentEncode set (c :: text) ++ rest =
          (if set c then (String.utf8EncodeChar c).flatMap percentByte else [c]) ++
            (percentEncode set text ++ rest) := List.append_assoc _ _ _
      rw [unfolded]
      by_cases encoded : set c = true
      · rw [if_pos encoded, percentPieces_bytes, utf8Lossy_encoded, ih]
        rfl
      · have unescaped : c ≠ '%' := by
          rintro rfl
          exact encoded escapes
        rw [if_neg encoded, List.singleton_append, percentPieces_cons unescaped]
        exact congrArg (c :: ·) ih

theorem percentDecodeStr_encode (escapes : set '%' = true) (text : Text) :
    percentDecodeStr (percentEncode set text) = text := by
  have read := lossy_percentEncode escapes text []
  rw [List.append_nil] at read
  exact read.trans (List.append_nil text)

/-- Without a plus a form is decoded as a path. -/
theorem percentDecode_eq {text : Text} (noPlus : '+' ∉ text) :
    percentDecode text = percentPieces text := by
  fun_induction percentPieces text with
  | case1 => rfl
  | case2 a b rest value hex ih =>
      simp only [List.mem_cons, not_or] at noPlus
      rw [percentDecode, hex]
      exact congrArg _ (ih noPlus.2.2.2)
  | case3 a b rest hex ih =>
      rw [percentDecode, hex]
      exact congrArg _ (ih fun member => noPlus (List.mem_cons_of_mem _ member))
  | case4 c rest other ih =>
      have plain : c ≠ '+' := fun same => noPlus (same ▸ List.mem_cons_self)
      rw [percentDecode]
      · rw [if_neg plain, ih fun member => noPlus (List.mem_cons_of_mem _ member)]
      · exact other

/-- A text without escapes is decoded to itself. -/
theorem percentDecodeStr_plain {text : Text} (plain : ¬ HasEscape text) :
    percentDecodeStr text = text := by
  have pieces : percentPieces text = text.map .plain := by
    fun_induction percentPieces text with
    | case1 => rfl
    | case2 a b rest value hex ih =>
        exact absurd ⟨a, b, (List.prefix_append ['%', a, b] rest).isInfix, by rw [hex]; rfl⟩ plain
    | case3 a b rest hex ih => exact congrArg _ (ih fun escape => plain (escape.cons _))
    | case4 c rest other ih => exact congrArg _ (ih fun escape => plain (escape.cons _))
  rw [percentDecodeStr, pieces, utf8Lossy_plain]

/-- Encoding twice encodes what either would, when the escapes themselves are left alone. -/
theorem percentEncode_percentEncode {first second : Char → Bool}
    (leaves : ∀ byte, ∀ c ∈ percentByte byte, second c = false) (text : Text) :
    percentEncode second (percentEncode first text) =
      percentEncode (fun c => first c || second c) text := by
  induction text with
  | nil => rfl
  | cons c text ih =>
      have head : percentEncode second
          (if first c then (String.utf8EncodeChar c).flatMap percentByte else [c]) =
          if first c || second c then (String.utf8EncodeChar c).flatMap percentByte else [c] := by
        cases encoded : first c with
        | true =>
            refine percentEncode_of_unset fun d member => ?_
            obtain ⟨byte, -, inside⟩ := List.mem_flatMap.mp member
            exact leaves byte d inside
        | false => exact List.append_nil _
      calc percentEncode second (percentEncode first (c :: text))
          = percentEncode second
              (if first c then (String.utf8EncodeChar c).flatMap percentByte else [c]) ++
            percentEncode second (percentEncode first text) := percentEncode_append second _ _
        _ = _ := by
            rw [head, ih]
            rfl

end Decoding

section Segments

theorem eq_of_toLower {c d : Char} (lowered : c.toLower = d) (symbol : d.isAlpha = false) :
    c = d := by
  have plain : c.isAlpha = false := by rw [← Char.isAlpha_toLower_eq_isAlpha, lowered, symbol]
  have notUpper : ¬ c.isUpper = true := fun upper => by
    rw [Char.isAlpha, upper, Bool.true_or] at plain
    cases plain
  rw [← lowered, Char.toLower_eq_of_not_isUpper notUpper]

theorem eq_of_toLower_e {c : Char} (lowered : c.toLower = 'e') : c = 'e' ∨ c = 'E' := by
  by_cases upper : c.isUpper = true
  · rw [Char.toLower_eq_of_isUpper upper] at lowered
    have value := congrArg Char.toNat lowered
    simp only [Char.isUpper, decide_eq_true_eq, UInt32.le_iff_toNat_le] at upper
    have small : c.toNat ≤ 90 := upper.2
    rw [Char.toNat_ofNat, if_pos (by unfold Nat.isValidChar; omega)] at value
    refine .inr ?_
    rw [← Char.ofNat_toNat c, show c.toNat = 69 by change c.toNat + 32 = 101 at value; omega]
  · exact .inl ((Char.toLower_eq_of_not_isUpper upper).symm.trans lowered)

/-- The texts of which a pattern is the lower case. -/
def cased : Text → List Text
  | [] => [[]]
  | c :: rest => (cased rest).flatMap fun text =>
      if c = 'e' then ['e' :: text, 'E' :: text] else [c :: text]

theorem mem_cased {pattern text : Text}
    (small : pattern.all (fun c => c == 'e' || !c.isAlpha) = true)
    (lowered : text.map Char.toLower = pattern) : text ∈ cased pattern := by
  induction pattern generalizing text with
  | nil =>
      rw [List.map_eq_nil_iff.mp lowered]
      exact List.mem_singleton_self _
  | cons d pattern ih =>
      obtain ⟨c, rest, rfl, first, later⟩ := List.map_eq_cons_iff.mp lowered
      rw [List.all_cons, Bool.and_eq_true] at small
      refine List.mem_flatMap.mpr ⟨rest, ih small.2 later, ?_⟩
      by_cases letter : d = 'e'
      · subst letter
        rcases eq_of_toLower_e first with rfl | rfl <;> simp
      · have symbol : d.isAlpha = false := by simpa [letter] using small.1
        rw [if_neg letter, eq_of_toLower first symbol]
        exact List.mem_singleton_self _

/-- A segment that means the directory itself is written as a dot or as its escape. -/
theorem singleDot_decoded {segment : Text} (dot : isSingleDot segment = true) :
    percentDecodeStr segment = ['.'] := by
  rw [isSingleDot, List.contains_iff_mem] at dot
  have decoded : ∀ pattern ∈ [".".toList, "%2e".toList],
      pattern.all (fun c => c == 'e' || !c.isAlpha) = true ∧
        ∀ text ∈ cased pattern, percentDecodeStr text = ['.'] := by decide
  obtain ⟨small, read⟩ := decoded _ dot
  exact read segment (mem_cased small rfl)

theorem doubleDot_decoded {segment : Text} (dots : isDoubleDot segment = true) :
    percentDecodeStr segment = ['.', '.'] := by
  rw [isDoubleDot, List.contains_iff_mem] at dots
  have decoded : ∀ pattern ∈ ["..".toList, ".%2e".toList, "%2e.".toList, "%2e%2e".toList],
      pattern.all (fun c => c == 'e' || !c.isAlpha) = true ∧
        ∀ text ∈ cased pattern, percentDecodeStr text = ['.', '.'] := by decide
  obtain ⟨small, read⟩ := decoded _ dots
  exact read segment (mem_cased small rfl)

variable {set cuts : Char → Bool}

theorem splitOnP_append {piece : Text} (uncut : ∀ c ∈ piece, cuts c = false) (rest : Text) :
    (piece ++ rest).splitOnP cuts = (rest.splitOnP cuts).modifyHead (piece ++ ·) := by
  induction piece with
  | nil => exact (congrFun List.modifyHead_id _).symm
  | cons c piece ih =>
      rw [List.cons_append, List.splitOnP_cons_eq_if_modifyHead,
        if_neg (by simp [uncut c List.mem_cons_self]),
        ih fun d member => uncut d (List.mem_cons_of_mem c member),
        List.modifyHead_modifyHead]
      rfl

/-- An encoded text is cut where a character that cuts was left as it was. -/
theorem splitOnP_percentEncode (leaves : ∀ byte, ∀ c ∈ percentByte byte, cuts c = false)
    (text : Text) : (percentEncode set text).splitOnP cuts =
      (text.splitOnP fun c => cuts c && !set c).map (percentEncode set) := by
  induction text with
  | nil => rfl
  | cons c text ih =>
      have unfolded : percentEncode set (c :: text) =
          (if set c then (String.utf8EncodeChar c).flatMap percentByte else [c]) ++
            percentEncode set text := rfl
      have headed : ∀ pieces : List Text, (pieces.map (percentEncode set)).modifyHead
          ((if set c then (String.utf8EncodeChar c).flatMap percentByte else [c]) ++ ·) =
          (pieces.modifyHead (c :: ·)).map (percentEncode set) := by
        intro pieces
        cases pieces <;> rfl
      rw [unfolded, List.splitOnP_cons_eq_if_modifyHead]
      by_cases cut : cuts c = true ∧ set c = false
      · rw [cut.2, cut.1]
        simp only [Bool.not_false, Bool.and_true, if_true, Bool.false_eq_true, if_false]
        rw [List.singleton_append, List.splitOnP_cons_eq_if_modifyHead, if_pos cut.1, ih]
        rfl
      · have kept : (cuts c && !set c) = false := by
          cases here : cuts c <;> cases there : set c <;> simp_all
        rw [kept, splitOnP_append, ih, headed]
        · rfl
        · intro d member
          cases encoded : set c with
          | true =>
              rw [encoded, if_pos rfl] at member
              obtain ⟨byte, -, inside⟩ := List.mem_flatMap.mp member
              exact leaves byte d inside
          | false =>
              rw [encoded, if_neg Bool.false_ne_true, List.mem_singleton] at member
              rw [member]
              exact Bool.eq_false_iff.mpr fun here => cut ⟨here, encoded⟩

/-- The segments of a path, each behind its slash. -/
theorem flatMap_splitOnP {text : Text} (whole : set '/' = false)
    (slashes : ∀ c ∈ text, cuts c = true → c = '/') :
    (text.splitOnP cuts).flatMap (fun segment => '/' :: percentEncode set segment) =
      '/' :: percentEncode set text := by
  induction text with
  | nil => rfl
  | cons c text ih =>
      have later := ih fun d member => slashes d (List.mem_cons_of_mem c member)
      have unfolded : percentEncode set (c :: text) =
          (if set c then (String.utf8EncodeChar c).flatMap percentByte else [c]) ++
            percentEncode set text := rfl
      rw [List.splitOnP_cons_eq_if_modifyHead, unfolded]
      by_cases cut : cuts c = true
      · rw [if_pos cut, List.flatMap_cons, later, slashes c List.mem_cons_self cut, whole]
        rfl
      · rw [if_neg cut]
        cases split : text.splitOnP cuts with
        | nil => exact absurd split (List.splitOnP_ne_nil cuts text)
        | cons segment segments =>
            rw [split, List.flatMap_cons, List.cons_append] at later
            have first : percentEncode set (c :: segment) =
                (if set c then (String.utf8EncodeChar c).flatMap percentByte else [c]) ++
                  percentEncode set segment := rfl
            rw [List.modifyHead_cons, List.flatMap_cons, first, ← (List.cons.inj later).2]
            simp only [List.cons_append, List.append_assoc]

/-- Segments that are no dots are written one behind the other. -/
theorem walk_plain {scheme : Text} (web : scheme ≠ file) (path segments : List Text)
    (plain : ∀ segment ∈ segments, isSingleDot segment = false ∧ isDoubleDot segment = false) :
    walk scheme path segments = path ++ segments.map (percentEncode pathSet) := by
  have step : ∀ path segment last, isSingleDot segment = false → isDoubleDot segment = false →
      pathStep scheme path segment last = path ++ [percentEncode pathSet segment] := by
    intro path segment last single double
    have written : writtenSegment scheme path segment = percentEncode pathSet segment :=
      if_neg fun drive => web drive.1
    rw [pathStep, double, single, written]
    rfl
  induction segments generalizing path with
  | nil => exact (List.append_nil path).symm
  | cons segment segments ih =>
      obtain ⟨single, double⟩ := plain segment List.mem_cons_self
      cases segments with
      | nil => exact step path segment true single double
      | cons next segments =>
          rw [walk, step path segment false single double,
            ih _ fun other member => plain other (List.mem_cons_of_mem _ member)]
          · rw [List.map_cons, List.append_assoc]
            rfl
          · exact List.cons_ne_nil _ _

end Segments

end SP42.Citation
