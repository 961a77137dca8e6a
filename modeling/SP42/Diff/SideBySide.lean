import Mathlib.Data.List.Basic
import SP42.Base.Number
import SP42.Diff.Structure

/-!
The two columns of a diff view. A segment becomes cells, one for each line of its text, that carry
the line's label and its highlights; the cells of both sides are put beside each other in rows.
-/
namespace SP42.Diff

section Cells

/-- A segment as the view holds it. -/
abbrev SegmentData := DiffSegment

structure SideBySideCell where
  kind : DiffSegmentKind
  text : Text
  lineLabel : Text
  inlineHighlights : List InlineSpan
  deriving DecidableEq

structure SideBySideRow where
  left : Option SideBySideCell
  right : Option SideBySideCell
  deriving DecidableEq

/-- `str::split_inclusive` at line feeds. -/
def splitInclusive : Text → List Text
  | [] => []
  | c :: rest =>
      if c = '\n' then [c] :: splitInclusive rest
      else
        match splitInclusive rest with
        | [] => [[c]]
        | line :: lines => (c :: line) :: lines

def splitTextLines (text : Text) : List Text := if text = [] then [[]] else splitInclusive text

/-- A piece of a span goes to the last line; every piece but the first opens a new one. -/
def pushPiece (kind : DiffSegmentKind) (lines : List (List InlineSpan)) (piece : Text × Nat) :
    List (List InlineSpan) :=
  let opened := if 0 < piece.2 then lines ++ [[]] else lines
  if piece.1 = [] then opened
  else opened.dropLast ++ [opened.getLastD [] ++ [⟨kind, piece.1⟩]]

def pushSpan (lines : List (List InlineSpan)) (span : InlineSpan) : List (List InlineSpan) :=
  (splitTextLines span.text).zipIdx.foldl (pushPiece span.kind) lines

/-- The lines without the empty ones at the end, as a stack. -/
def popEmpty : List (List InlineSpan) → List (List InlineSpan)
  | [] :: next :: lines => popEmpty (next :: lines)
  | lines => lines

def splitInlineHighlightsByLine (spans : List InlineSpan) : List (List InlineSpan) :=
  if spans = [] then [] else (popEmpty (spans.foldl pushSpan [[]]).reverse).reverse

def buildLineLabels (span : Option DiffLineSpan) : DiffMode → List Text
  | .chars => []
  | .lines =>
      match span with
      | some span => (List.range span.lineCount).map fun offset =>
          Text.ofNat (span.startLine + offset)
      | none => []

def expandSegmentCells (segment : SegmentData) (useAfterSpan : Bool) (diffMode : DiffMode) :
    List SideBySideCell :=
  let span := if useAfterSpan then segment.after else segment.before
  let lineLabels := buildLineLabels span diffMode
  let textLines := splitTextLines segment.text
  let highlightLines := splitInlineHighlightsByLine segment.inlineHighlights
  let cellCount := max (max lineLabels.length textLines.length) highlightLines.length
  (List.range (max cellCount 1)).map fun index =>
    { kind := segment.kind
      text := textLines[index]?.getD []
      lineLabel := lineLabels[index]?.getD []
      inlineHighlights := highlightLines[index]?.getD [] }

/-- The rows of two columns of cells. -/
def zipCells (left right : List SideBySideCell) : List SideBySideRow :=
  (List.range (max left.length right.length)).map fun index => ⟨left[index]?, right[index]?⟩

/-- The cells of the segments of a kind. -/
def cellsOf (kind : DiffSegmentKind) (useAfterSpan : Bool) (diffMode : DiffMode)
    (run : List SegmentData) : List SideBySideCell :=
  (run.filter fun segment => segment.kind = kind).flatMap fun segment =>
    expandSegmentCells segment useAfterSpan diffMode

def isChange (segment : SegmentData) : Bool := segment.kind ≠ .equal

/-- The rows: an unchanged segment beside itself, and what was deleted in a run of changes beside
what was inserted in it. -/
def buildSideBySideRows (diffMode : DiffMode) : List SegmentData → List SideBySideRow
  | [] => []
  | segment :: rest =>
      if segment.kind = .equal then
        zipCells (expandSegmentCells segment false diffMode)
          (expandSegmentCells segment true diffMode) ++ buildSideBySideRows diffMode rest
      else
        let changeRun := segment :: rest.takeWhile isChange
        have : (rest.dropWhile isChange).length < rest.length + 1 :=
          Nat.lt_succ_of_le (List.length_dropWhile_le isChange rest)
        zipCells (cellsOf .delete false diffMode changeRun)
            (cellsOf .insert true diffMode changeRun) ++
          buildSideBySideRows diffMode (rest.dropWhile isChange)
termination_by segments => segments.length

end Cells

section Lines

theorem splitTextLines_cons (c : Char) (rest : Text) : splitTextLines (c :: rest) =
    if c = '\n' then if rest = [] then [[c]] else [c] :: splitTextLines rest
    else (splitTextLines rest).modifyHead (c :: ·) := by
  rw [splitTextLines, if_neg (List.cons_ne_nil c rest), splitInclusive, splitTextLines]
  by_cases line : c = '\n'
  · rw [if_pos line, if_pos line]
    by_cases empty : rest = []
    · subst empty
      rfl
    · rw [if_neg empty, if_neg empty]
  · rw [if_neg line, if_neg line]
    by_cases empty : rest = []
    · subst empty
      rfl
    · rw [if_neg empty]
      cases rest with
      | nil => exact absurd rfl empty
      | cons d rest =>
          cases pieces : splitInclusive (d :: rest) with
          | nil =>
              rw [splitInclusive] at pieces
              split at pieces
              · cases pieces
              · split at pieces
                · cases pieces
                · cases pieces
          | cons first lines => rfl

theorem splitTextLines_ne_nil (text : Text) : splitTextLines text ≠ [] := by
  induction text with
  | nil => exact List.cons_ne_nil _ _
  | cons c rest ih =>
      rw [splitTextLines_cons]
      split
      · split
        · exact List.cons_ne_nil _ _
        · exact List.cons_ne_nil _ _
      · rwa [ne_eq, List.modifyHead_eq_nil_iff]

@[simp] theorem flatten_splitTextLines (text : Text) : (splitTextLines text).flatten = text := by
  induction text with
  | nil => rfl
  | cons c rest ih =>
      rw [splitTextLines_cons]
      split
      · split
        · next empty => rw [empty]; rfl
        · rw [List.flatten_cons, ih]
          rfl
      · cases lines : splitTextLines rest with
        | nil => exact absurd lines (splitTextLines_ne_nil rest)
        | cons first others =>
            rw [lines, List.flatten_cons] at ih
            rw [List.modifyHead_cons, List.flatten_cons, List.cons_append, ih]

/-- A line feed with something behind it. -/
def InnerBreak (text : Text) : Prop := ∃ before after, text = before ++ '\n' :: after ∧ after ≠ []

theorem InnerBreak.append {text : Text} (breaks : InnerBreak text) (more : Text) :
    InnerBreak (text ++ more) := by
  obtain ⟨before, after, rfl, behind⟩ := breaks
  refine ⟨before, after ++ more, by rw [List.append_assoc, List.cons_append], fun empty => ?_⟩
  exact behind (List.append_eq_nil_iff.mp empty).1

theorem InnerBreak.of_ends {text more : Text} (ends : text.getLast? = some '\n')
    (behind : more ≠ []) : InnerBreak (text ++ more) := by
  obtain ⟨before, rfl⟩ := List.getLast?_eq_some_iff.mp ends
  exact ⟨before, more, by rw [List.append_assoc, List.singleton_append], behind⟩

theorem innerBreak_cons {c : Char} {text : Text} (other : c ≠ '\n') :
    InnerBreak (c :: text) ↔ InnerBreak text := by
  constructor
  · rintro ⟨before, after, split, behind⟩
    cases before with
    | nil => exact absurd (List.cons.inj split).1 other
    | cons d before => exact ⟨before, after, (List.cons.inj split).2, behind⟩
  · rintro ⟨before, after, rfl, behind⟩
    exact ⟨c :: before, after, rfl, behind⟩

/-- A line breaks only at its end. -/
theorem not_innerBreak_of_mem {text line : Text} (member : line ∈ splitTextLines text) :
    ¬ InnerBreak line := by
  have short : ¬ InnerBreak ['\n'] := by
    rintro ⟨before, after, split, behind⟩
    cases before with
    | nil => exact behind (List.cons.inj split).2.symm
    | cons d before => simp at split
  have none : ¬ InnerBreak [] := by
    rintro ⟨before, after, split, -⟩
    simp at split
  induction text generalizing line with
  | nil => exact List.mem_singleton.mp member ▸ none
  | cons c rest ih =>
      rw [splitTextLines_cons] at member
      split at member
      · next feed =>
          subst feed
          split at member
          · exact List.mem_singleton.mp member ▸ short
          · rcases List.mem_cons.mp member with rfl | later
            · exact short
            · exact ih later
      · next other =>
          cases lines : splitTextLines rest with
          | nil => exact absurd lines (splitTextLines_ne_nil rest)
          | cons first others =>
              rw [lines] at ih member
              rcases List.mem_cons.mp member with rfl | later
              · rw [innerBreak_cons other]
                exact ih List.mem_cons_self
              · exact ih (List.mem_cons_of_mem _ later)

/-- What follows an unfinished line goes on in it. -/
theorem splitTextLines_append {text : Text} (unfinished : text.getLast? ≠ some '\n')
    {front : List Text} {last : Text} (lines : splitTextLines text = front ++ [last])
    {more first : Text} {rest : List Text} (others : splitTextLines more = first :: rest) :
    splitTextLines (text ++ more) = front ++ (last ++ first) :: rest := by
  induction text generalizing front last with
  | nil =>
      obtain ⟨rfl, same⟩ := List.append_inj' (lines.symm.trans (List.nil_append [[]]).symm) rfl
      rw [List.cons.inj same |>.1]
      exact others
  | cons c text ih =>
      rw [splitTextLines_cons] at lines
      rw [List.cons_append, splitTextLines_cons]
      by_cases feed : c = '\n'
      · have inhabited : text ≠ [] := by
          rintro rfl
          exact unfinished (by rw [feed]; rfl)
        have later : text.getLast? ≠ some '\n' := by
          rwa [List.getLast?_cons_of_ne_nil inhabited] at unfinished
        have apart : text ++ more ≠ [] := fun empty => inhabited (List.append_eq_nil_iff.mp empty).1
        rw [if_pos feed, if_neg inhabited] at lines
        rw [if_pos feed, if_neg apart]
        cases front with
        | nil => exact absurd (List.cons.inj lines).2 (splitTextLines_ne_nil text)
        | cons head front =>
            obtain ⟨rfl, tail⟩ := List.cons.inj lines
            rw [ih later tail]
            rfl
      · rw [if_neg feed] at lines ⊢
        have later : text.getLast? ≠ some '\n' := by
          by_cases empty : text = []
          · rw [empty]
            nofun
          · rwa [List.getLast?_cons_of_ne_nil empty] at unfinished
        rcases List.eq_nil_or_concat (splitTextLines text) with none | ⟨front', last', split⟩
        · exact absurd none (splitTextLines_ne_nil text)
        · rw [List.concat_eq_append] at split
          rw [ih later split]
          rw [split] at lines
          cases front' with
          | nil =>
              rw [List.nil_append, List.modifyHead_cons] at lines
              obtain ⟨rfl, same⟩ := List.append_inj' (lines.symm.trans (List.nil_append _).symm) rfl
              rw [List.cons.inj same |>.1]
              rfl
          | cons head front' =>
              rw [List.cons_append, List.modifyHead_cons, ← List.cons_append] at lines
              obtain ⟨rfl, same⟩ := List.append_inj' lines.symm rfl
              rw [List.cons.inj same |>.1]
              rfl

theorem ne_nil_of_mem_splitTextLines {text line : Text} (inhabited : text ≠ [])
    (member : line ∈ splitTextLines text) : line ≠ [] := by
  induction text generalizing line with
  | nil => exact absurd rfl inhabited
  | cons c rest ih =>
      rw [splitTextLines_cons] at member
      split at member
      · split at member
        · exact List.mem_singleton.mp member ▸ List.cons_ne_nil c []
        · next more =>
            rcases List.mem_cons.mp member with rfl | later
            · exact List.cons_ne_nil c []
            · exact ih more later
      · cases lines : splitTextLines rest with
        | nil => exact absurd lines (splitTextLines_ne_nil rest)
        | cons first others =>
            rw [lines] at ih member
            rcases List.mem_cons.mp member with rfl | later
            · exact List.cons_ne_nil c first
            · refine ih ?_ (List.mem_cons_of_mem _ later)
              rintro rfl
              cases lines
              cases later

theorem getLast_splitTextLines {text : Text} {front : List Text} {last : Text}
    (lines : splitTextLines text = front ++ [last]) : last.getLast? = text.getLast? := by
  have whole := flatten_splitTextLines text
  rw [lines, List.flatten_append, List.flatten_singleton] at whole
  by_cases empty : text = []
  · subst empty
    rw [(List.append_eq_nil_iff.mp whole).2]
  · have solid : last ≠ [] := ne_nil_of_mem_splitTextLines empty (lines ▸ List.mem_append_right _
      List.mem_cons_self)
    rw [← whole, List.getLast?_append_of_ne_nil _ solid]

end Lines

section Highlights

def spansText (spans : List InlineSpan) : Text := spans.flatMap (·.text)

/-- No span that ends a line has text behind it. -/
def Unbroken (spans : List InlineSpan) : Prop :=
  spans.Pairwise fun one later => one.text.getLast? = some '\n' → later.text = []

instance (spans : List InlineSpan) : Decidable (Unbroken spans) :=
  inferInstanceAs (Decidable (List.Pairwise _ spans))

theorem pushPiece_text (kind : DiffSegmentKind) (done : List (List InlineSpan))
    (bucket : List InlineSpan) (piece : Text) :
    (pushPiece kind (done ++ [bucket]) (piece, 0)).map spansText =
      done.map spansText ++ [spansText bucket ++ piece] := by
  rw [pushPiece]
  dsimp only
  rw [if_neg (Nat.lt_irrefl 0)]
  split
  · next empty => simp [empty, spansText]
  · simp [spansText]

theorem pushPiece_next (kind : DiffSegmentKind) (lines : List (List InlineSpan)) (piece : Text)
    (index : Nat) : (pushPiece kind lines (piece, index + 1)).map spansText =
      lines.map spansText ++ [piece] := by
  rw [pushPiece]
  dsimp only
  rw [if_pos (Nat.succ_pos index)]
  split
  · next empty => simp [empty, spansText]
  · simp [spansText]

theorem pushPieces_next (kind : DiffSegmentKind) (lines : List (List InlineSpan))
    (pieces : List Text) (index : Nat) :
    ((pieces.zipIdx (index + 1)).foldl (pushPiece kind) lines).map spansText =
      lines.map spansText ++ pieces := by
  induction pieces generalizing lines index with
  | nil => simp
  | cons piece pieces ih =>
      rw [List.zipIdx_cons, List.foldl_cons, ih, pushPiece_next, List.append_assoc,
        List.singleton_append]

/-- A span goes on in the last line and opens one for each of its other pieces. -/
theorem pushSpan_text (done : List (List InlineSpan)) (bucket : List InlineSpan)
    (span : InlineSpan) {first : Text} {rest : List Text}
    (pieces : splitTextLines span.text = first :: rest) :
    (pushSpan (done ++ [bucket]) span).map spansText =
      done.map spansText ++ (spansText bucket ++ first) :: rest := by
  rw [pushSpan, pieces, List.zipIdx_cons, List.foldl_cons, pushPieces_next, pushPiece_text,
    List.append_assoc, List.singleton_append]

/-- The last line of the highlights. -/
theorem exists_last {lines : List (List InlineSpan)} {texts : List Text}
    (same : lines.map spansText = texts) (inhabited : texts ≠ []) :
    ∃ done bucket, lines = done ++ [bucket] ∧ texts = done.map spansText ++ [spansText bucket] := by
  rcases List.eq_nil_or_concat lines with rfl | ⟨done, bucket, rfl⟩
  · exact absurd same.symm inhabited
  · refine ⟨done, bucket, List.concat_eq_append, ?_⟩
    rw [← same, List.concat_eq_append, List.map_append, List.map_singleton]

theorem getLast_spansText {spans : List InlineSpan} {c : Char}
    (ends : (spansText spans).getLast? = some c) : ∃ span ∈ spans, span.text.getLast? = some c := by
  induction spans using List.reverseRecOn with
  | nil => cases ends
  | append_singleton spans span ih =>
      rw [spansText, List.flatMap_append, List.flatMap_singleton] at ends
      by_cases empty : span.text = []
      · rw [empty, List.append_nil] at ends
        obtain ⟨earlier, member, there⟩ := ih ends
        exact ⟨earlier, List.mem_append_left _ member, there⟩
      · rw [List.getLast?_append_of_ne_nil _ empty] at ends
        exact ⟨span, List.mem_append_right _ List.mem_cons_self, ends⟩

theorem Unbroken.concat {spans : List InlineSpan} {span : InlineSpan} :
    Unbroken (spans ++ [span]) ↔ Unbroken spans ∧
      ∀ one ∈ spans, one.text.getLast? = some '\n' → span.text = [] := by
  rw [Unbroken, List.pairwise_append]
  simp [Unbroken]

/-- Highlights of unbroken spans have the lines of their text. -/
theorem Unbroken.lines {spans : List InlineSpan} (unbroken : Unbroken spans) :
    (spans.foldl pushSpan [[]]).map spansText = splitTextLines (spansText spans) := by
  induction spans using List.reverseRecOn with
  | nil => rfl
  | append_singleton spans span ih =>
      obtain ⟨earlier, last⟩ := Unbroken.concat.mp unbroken
      obtain ⟨done, bucket, held, texts⟩ := exists_last (ih earlier) (splitTextLines_ne_nil _)
      rw [List.foldl_append, List.foldl_cons, List.foldl_nil, held, spansText,
        List.flatMap_append, List.flatMap_singleton]
      by_cases ended : (spansText spans).getLast? = some '\n'
      · obtain ⟨one, member, feed⟩ := getLast_spansText ended
        have empty := last one member feed
        have pieces : splitTextLines span.text = [[]] := by
          rw [empty]
          rfl
        rw [pushSpan_text done bucket span pieces, List.append_nil, empty, List.append_nil]
        exact texts.symm
      · cases pieces : splitTextLines span.text with
        | nil => exact absurd pieces (splitTextLines_ne_nil _)
        | cons first rest =>
            rw [pushSpan_text done bucket span pieces]
            exact (splitTextLines_append ended texts pieces).symm

/-- A line with a break inside keeps it. -/
theorem innerBreak_pushSpan {lines : List (List InlineSpan)} (inhabited : lines ≠ [])
    (span : InlineSpan) (breaks : ∃ text ∈ lines.map spansText, InnerBreak text) :
    ∃ text ∈ (pushSpan lines span).map spansText, InnerBreak text := by
  obtain ⟨text, member, broken⟩ := breaks
  obtain ⟨done, bucket, rfl, texts⟩ := @exists_last lines _ rfl (by simpa using inhabited)
  cases pieces : splitTextLines span.text with
  | nil => exact absurd pieces (splitTextLines_ne_nil _)
  | cons first rest =>
      rw [pushSpan_text done bucket span pieces]
      rw [texts] at member
      rcases List.mem_append.mp member with earlier | last
      · exact ⟨text, List.mem_append_left _ earlier, broken⟩
      · rw [List.mem_singleton.mp last] at broken
        exact ⟨_, List.mem_append_right _ List.mem_cons_self, broken.append first⟩

theorem foldl_pushSpan_ne_nil (spans : List InlineSpan) : spans.foldl pushSpan [[]] ≠ [] := by
  induction spans using List.reverseRecOn with
  | nil => exact List.cons_ne_nil _ _
  | append_singleton spans span ih =>
      obtain ⟨done, bucket, held, -⟩ := @exists_last (spans.foldl pushSpan [[]]) _ rfl
        (by simpa using ih)
      rw [List.foldl_append, List.foldl_cons, List.foldl_nil, held]
      cases pieces : splitTextLines span.text with
      | nil => exact absurd pieces (splitTextLines_ne_nil _)
      | cons first rest =>
          intro empty
          have texts := pushSpan_text done bucket span pieces
          rw [empty] at texts
          simp at texts

/-- Text behind a span that ends a line stays in that line. -/
theorem innerBreak_of_broken {spans : List InlineSpan} (broken : ¬ Unbroken spans) :
    ∃ text ∈ (spans.foldl pushSpan [[]]).map spansText, InnerBreak text := by
  induction spans using List.reverseRecOn with
  | nil => exact absurd List.Pairwise.nil broken
  | append_singleton spans span ih =>
      rw [List.foldl_append, List.foldl_cons, List.foldl_nil]
      by_cases earlier : Unbroken spans
      · rw [Unbroken.concat, not_and] at broken
        have broken := broken earlier
        push Not at broken
        obtain ⟨one, member, feed, behind⟩ := broken
        have ends : (spansText spans).getLast? = some '\n' := by
          obtain ⟨front, back, rfl⟩ := List.append_of_mem member
          have silent : spansText back = [] := by
            refine List.flatMap_eq_nil_iff.mpr fun later held => ?_
            exact (List.pairwise_cons.mp (List.pairwise_append.mp earlier).2.1).1 later held feed
          have solid : one.text ≠ [] := by
            intro empty
            rw [empty] at feed
            cases feed
          rw [spansText, List.flatMap_append, List.flatMap_cons]
          rw [spansText] at silent
          rw [silent, List.append_nil, List.getLast?_append_of_ne_nil _ solid, feed]
        obtain ⟨done, bucket, held, texts⟩ := exists_last earlier.lines (splitTextLines_ne_nil _)
        cases pieces : splitTextLines span.text with
        | nil => exact absurd pieces (splitTextLines_ne_nil _)
        | cons first rest =>
            rw [held, pushSpan_text done bucket span pieces]
            refine ⟨_, List.mem_append_right _ List.mem_cons_self, InnerBreak.of_ends ?_ ?_⟩
            · rw [getLast_splitTextLines texts, ends]
            · exact ne_nil_of_mem_splitTextLines behind (pieces ▸ List.mem_cons_self)
      · exact innerBreak_pushSpan (foldl_pushSpan_ne_nil spans) span (ih earlier)

theorem popEmpty_split (stack : List (List InlineSpan)) :
    ∃ count, stack = List.replicate count [] ++ popEmpty stack := by
  fun_induction popEmpty stack with
  | case1 next lines ih =>
      obtain ⟨count, split⟩ := ih
      exact ⟨count + 1, by rw [List.replicate_succ, List.cons_append, ← split]⟩
  | case2 lines other => exact ⟨0, rfl⟩

/-- The highlights of a line are what was collected for it, also where empty lines were dropped. -/
theorem highlights_at {spans : List InlineSpan} (given : spans ≠ []) (index : Nat) :
    (splitInlineHighlightsByLine spans)[index]?.getD [] =
      (spans.foldl pushSpan [[]])[index]?.getD [] := by
  obtain ⟨count, split⟩ := popEmpty_split (spans.foldl pushSpan [[]]).reverse
  have whole := congrArg List.reverse split
  rw [List.reverse_reverse, List.reverse_append, List.reverse_replicate] at whole
  rw [splitInlineHighlightsByLine, if_neg given]
  conv_rhs => rw [whole]
  by_cases kept : index < (popEmpty (spans.foldl pushSpan [[]]).reverse).reverse.length
  · rw [List.getElem?_append_left kept]
  · rw [List.getElem?_eq_none (Nat.not_lt.mp kept), List.getElem?_append_right (Nat.not_lt.mp kept),
      List.getElem?_replicate]
    split
    · rfl
    · rfl

end Highlights

section Segments

variable {segment : SegmentData} {useAfterSpan : Bool} {diffMode : DiffMode}

theorem text_getD (pieces : List Text) (index : Nat) :
    pieces[index]?.getD [] = [] ∨ pieces[index]?.getD [] ∈ pieces := by
  cases there : pieces[index]? with
  | none => exact .inl rfl
  | some piece => exact .inr (List.mem_of_getElem? there)

theorem range_getD (pieces : List Text) {count : Nat} (enough : pieces.length ≤ count) :
    ((List.range count).map fun index => pieces[index]?.getD []).flatten = pieces.flatten := by
  obtain ⟨more, rfl⟩ := Nat.exists_eq_add_of_le enough
  have first : (List.range pieces.length).map (fun index => pieces[index]?.getD []) = pieces := by
    refine List.ext_getElem (by simp) fun index low high => ?_
    simp [List.getElem?_eq_getElem high]
  have beyond : ((List.range more).map fun index => pieces[pieces.length + index]?.getD []).flatten
      = [] := by
    refine List.flatten_eq_nil_iff.mpr fun piece member => ?_
    obtain ⟨index, -, rfl⟩ := List.mem_map.mp member
    rw [List.getElem?_eq_none (Nat.le_add_right _ _)]
    rfl
  rw [List.range_add, List.map_append, List.flatten_append, first, List.map_map]
  exact (congrArg (pieces.flatten ++ ·) beyond).trans (List.append_nil _)

/-- The cells of a segment hold its text. -/
theorem cells_text : (expandSegmentCells segment useAfterSpan diffMode).flatMap (·.text) =
    segment.text := by
  rw [expandSegmentCells, List.flatMap_def, List.map_map]
  refine (range_getD (splitTextLines segment.text) ?_).trans (flatten_splitTextLines _)
  omega

theorem mem_cells {cell : SideBySideCell}
    (member : cell ∈ expandSegmentCells segment useAfterSpan diffMode) : ∃ index : Nat,
      cell.text = (splitTextLines segment.text)[index]?.getD [] ∧ cell.inlineHighlights =
        (splitInlineHighlightsByLine segment.inlineHighlights)[index]?.getD [] := by
  obtain ⟨index, -, rfl⟩ := List.mem_map.mp member
  exact ⟨index, rfl, rfl⟩

/-- A line of highlights has its cell. -/
theorem exists_cell {index : Nat}
    (inside : index < (splitInlineHighlightsByLine segment.inlineHighlights).length) :
    ∃ cell ∈ expandSegmentCells segment useAfterSpan diffMode,
      cell.text = (splitTextLines segment.text)[index]?.getD [] ∧ cell.inlineHighlights =
        (splitInlineHighlightsByLine segment.inlineHighlights)[index]?.getD [] := by
  refine ⟨_, List.mem_map.mpr ⟨index, List.mem_range.mpr ?_, rfl⟩, rfl, rfl⟩
  omega

/-- What is drawn in a cell is its text. -/
def Drawn (cell : SideBySideCell) : Prop :=
  cell.inlineHighlights ≠ [] → spansText cell.inlineHighlights = cell.text

/-- A segment is drawn as it is just when its highlights are unbroken. -/
theorem cells_drawn_iff
    (marked : segment.inlineHighlights ≠ [] → spansText segment.inlineHighlights = segment.text) :
    (∀ cell ∈ expandSegmentCells segment useAfterSpan diffMode, Drawn cell) ↔
      Unbroken segment.inlineHighlights := by
  constructor
  · intro drawn
    by_contra broken
    have given : segment.inlineHighlights ≠ [] := by
      intro empty
      rw [empty] at broken
      exact broken List.Pairwise.nil
    obtain ⟨_, member, inner⟩ := innerBreak_of_broken broken
    obtain ⟨bucket, held, rfl⟩ := List.mem_map.mp member
    obtain ⟨index, there⟩ := List.mem_iff_getElem?.mp held
    have shown := highlights_at given index
    rw [there, Option.getD_some] at shown
    have solid : bucket ≠ [] := by
      rintro rfl
      obtain ⟨before, after, split, -⟩ := inner
      simp [spansText] at split
    have inside : index < (splitInlineHighlightsByLine segment.inlineHighlights).length := by
      by_contra beyond
      rw [List.getElem?_eq_none (Nat.not_lt.mp beyond)] at shown
      exact solid shown.symm
    obtain ⟨cell, among, text, highlights⟩ :=
      @exists_cell segment useAfterSpan diffMode index inside
    have same := drawn cell among (by rw [highlights, shown]; exact solid)
    rw [highlights, shown, text] at same
    rcases text_getD (splitTextLines segment.text) index with empty | line
    · obtain ⟨before, after, split, -⟩ := inner
      rw [same, empty] at split
      simp at split
    · exact not_innerBreak_of_mem line (same ▸ inner)
  · intro unbroken cell member given
    obtain ⟨index, text, highlights⟩ := mem_cells member
    have spans : segment.inlineHighlights ≠ [] := by
      intro empty
      rw [highlights, empty] at given
      simp [splitInlineHighlightsByLine] at given
    have lines := unbroken.lines
    rw [marked spans] at lines
    rw [highlights, highlights_at spans, text, ← lines, List.getElem?_map]
    cases (segment.inlineHighlights.foldl pushSpan [[]])[index]? with
    | none => rfl
    | some bucket => rfl

end Segments

section Rows

variable {diffMode : DiffMode}

theorem column_cells {column : List SideBySideCell} {count : Nat}
    (enough : column.length ≤ count) :
    (List.range count).filterMap (fun index => column[index]?) = column := by
  induction column generalizing count with
  | nil =>
      refine List.filterMap_eq_nil_iff.mpr fun index _ => ?_
      exact List.getElem?_nil
  | cons cell column ih =>
      cases count with
      | zero => exact absurd enough (Nat.not_succ_le_zero _)
      | succ count =>
          have here : (cell :: column)[0]? = some cell := rfl
          rw [List.range_succ_eq_map, List.filterMap_cons_some here, List.filterMap_map]
          exact congrArg (cell :: ·) (ih (Nat.le_of_succ_le_succ enough))

theorem zipCells_left (left right : List SideBySideCell) :
    (zipCells left right).filterMap (·.left) = left := by
  rw [zipCells, List.filterMap_map]
  exact column_cells (Nat.le_max_left _ _)

theorem zipCells_right (left right : List SideBySideCell) :
    (zipCells left right).filterMap (·.right) = right := by
  rw [zipCells, List.filterMap_map]
  exact column_cells (Nat.le_max_right _ _)

/-- The cells of a segment on a side; a segment of the other side has none. -/
def sideCells (other : DiffSegmentKind) (useAfterSpan : Bool) (diffMode : DiffMode)
    (segment : SegmentData) : List SideBySideCell :=
  if segment.kind = other then [] else expandSegmentCells segment useAfterSpan diffMode

theorem cellsOf_run {kind other : DiffSegmentKind} {useAfterSpan : Bool}
    {run : List SegmentData} (apart : kind ≠ other)
    (changes : ∀ segment ∈ run, segment.kind = kind ∨ segment.kind = other) :
    cellsOf kind useAfterSpan diffMode run =
      run.flatMap (sideCells other useAfterSpan diffMode) := by
  induction run with
  | nil => rfl
  | cons segment run ih =>
      have later := ih fun next member => changes next (List.mem_cons_of_mem _ member)
      rw [List.flatMap_cons, ← later, cellsOf, cellsOf, sideCells]
      rcases changes segment List.mem_cons_self with same | same
      · rw [List.filter_cons_of_pos (by simp [same]), List.flatMap_cons,
          if_neg (by rw [same]; exact apart)]
      · rw [List.filter_cons_of_neg (by simp [same, apart.symm]), if_pos same, List.nil_append]

/-- The kinds of a run of changes. -/
theorem run_kinds {segment : SegmentData} {rest : List SegmentData}
    (change : segment.kind ≠ .equal) : ∀ next ∈ segment :: rest.takeWhile isChange,
      next.kind = .delete ∨ next.kind = .insert := by
  intro next member
  have changed : next.kind ≠ .equal := by
    rcases List.mem_cons.mp member with rfl | later
    · exact change
    · have marked := List.mem_takeWhile_imp later
      rwa [isChange, decide_eq_true_eq] at marked
  cases kind : next.kind with
  | equal => exact absurd kind changed
  | delete => exact .inl rfl
  | insert => exact .inr rfl

/-- The cells of a column, row by row, are those of the segments of its side. -/
theorem rows_columns (segments : List SegmentData) :
    (buildSideBySideRows diffMode segments).filterMap (·.left) =
      segments.flatMap (sideCells .insert false diffMode) ∧
    (buildSideBySideRows diffMode segments).filterMap (·.right) =
      segments.flatMap (sideCells .delete true diffMode) := by
  fun_induction buildSideBySideRows diffMode segments with
  | case1 => exact ⟨rfl, rfl⟩
  | case2 segment rest unchanged ih =>
      rw [List.filterMap_append, List.filterMap_append, zipCells_left, zipCells_right, ih.1, ih.2,
        List.flatMap_cons, List.flatMap_cons, sideCells, sideCells,
        if_neg (by rw [unchanged]; nofun), if_neg (by rw [unchanged]; nofun)]
      exact ⟨rfl, rfl⟩
  | case3 segment rest change changeRun shorter ih =>
      have kinds := @run_kinds segment rest change
      have whole : segment :: rest = changeRun ++ rest.dropWhile isChange := by
        rw [List.cons_append, List.takeWhile_append_dropWhile]
      have left := @cellsOf_run diffMode .delete .insert false _ (by nofun) kinds
      have right := @cellsOf_run diffMode .insert .delete true _ (by nofun)
        fun next member => (kinds next member).symm
      rw [List.filterMap_append, List.filterMap_append, zipCells_left, zipCells_right, ih.1, ih.2,
        whole, List.flatMap_append, List.flatMap_append]
      exact ⟨congrArg (· ++ _) left, congrArg (· ++ _) right⟩

/-- Every line is shown once on its side, and drawn as it is. -/
structure ShowsEveryLine (segments : List SegmentData) (rows : List SideBySideRow) : Prop where
  left : (rows.filterMap (·.left)).flatMap (·.text) =
    (segments.filter fun segment => segment.kind ≠ .insert).flatMap (·.text)
  right : (rows.filterMap (·.right)).flatMap (·.text) =
    (segments.filter fun segment => segment.kind ≠ .delete).flatMap (·.text)
  drawn : ∀ row ∈ rows, ∀ cell, row.left = some cell ∨ row.right = some cell → Drawn cell

theorem sideCells_text (other : DiffSegmentKind) (useAfterSpan : Bool)
    (segments : List SegmentData) :
    (segments.flatMap (sideCells other useAfterSpan diffMode)).flatMap (·.text) =
      (segments.filter fun segment => segment.kind ≠ other).flatMap (·.text) := by
  induction segments with
  | nil => rfl
  | cons segment segments ih =>
      rw [List.flatMap_cons, List.flatMap_append, ih, sideCells]
      by_cases same : segment.kind = other
      · rw [if_pos same, List.filter_cons_of_neg (by simp [same])]
        rfl
      · rw [if_neg same, cells_text, List.filter_cons_of_pos (by simp [same]), List.flatMap_cons]

/-- The view shows every line once and draws it as it is just when no highlight of a segment that
ends a line has text behind it. -/
theorem shows_every_line_iff {segments : List SegmentData}
    (marked : ∀ segment ∈ segments, segment.inlineHighlights ≠ [] →
      spansText segment.inlineHighlights = segment.text) (diffMode : DiffMode) :
    ShowsEveryLine segments (buildSideBySideRows diffMode segments) ↔
      ∀ segment ∈ segments, Unbroken segment.inlineHighlights := by
  obtain ⟨left, right⟩ := @rows_columns diffMode segments
  constructor
  · intro shows segment member
    by_cases inserted : segment.kind = .insert
    · refine (@cells_drawn_iff segment true diffMode
        (marked segment member)).mp fun cell held => ?_
      have placed : cell ∈ segments.flatMap (sideCells .delete true diffMode) := by
        refine List.mem_flatMap.mpr ⟨segment, member, ?_⟩
        rwa [sideCells, if_neg (by rw [inserted]; nofun)]
      rw [← right] at placed
      obtain ⟨row, among, there⟩ := List.mem_filterMap.mp placed
      exact shows.drawn row among cell (.inr there)
    · refine (@cells_drawn_iff segment false diffMode
        (marked segment member)).mp fun cell held => ?_
      have placed : cell ∈ segments.flatMap (sideCells .insert false diffMode) := by
        refine List.mem_flatMap.mpr ⟨segment, member, ?_⟩
        rwa [sideCells, if_neg inserted]
      rw [← left] at placed
      obtain ⟨row, among, there⟩ := List.mem_filterMap.mp placed
      exact shows.drawn row among cell (.inl there)
  · intro unbroken
    have drawn : ∀ other useAfterSpan, ∀ cell ∈ segments.flatMap
        (sideCells other useAfterSpan diffMode), Drawn cell := by
      intro other useAfterSpan cell placed
      obtain ⟨segment, member, held⟩ := List.mem_flatMap.mp placed
      rw [sideCells] at held
      split at held
      · cases held
      · exact (cells_drawn_iff (marked segment member)).mpr (unbroken segment member) cell held
    refine ⟨?_, ?_, ?_⟩
    · rw [left, sideCells_text]
    · rw [right, sideCells_text]
    · intro row among cell there
      rcases there with there | there
      · exact drawn .insert false cell (left ▸ List.mem_filterMap.mpr ⟨row, among, there⟩)
      · exact drawn .delete true cell (right ▸ List.mem_filterMap.mpr ⟨row, among, there⟩)

def markedSegment (kind : DiffSegmentKind) (spans : List InlineSpan) : SegmentData where
  kind
  text := spansText spans
  before := none
  after := none
  inlineHighlights := spans

def boldSpans : List InlineSpan := [⟨.equal, "old a\nold ".toList⟩, ⟨.delete, "b\n".toList⟩]

theorem spans_shown : ShowsEveryLine [markedSegment .delete boldSpans]
    (buildSideBySideRows .lines [markedSegment .delete boldSpans]) := by
  refine (shows_every_line_iff ?_ .lines).mpr ?_
  · intro segment member _
    rw [List.mem_singleton.mp member]
    rfl
  · intro segment member
    rw [List.mem_singleton.mp member]
    decide

def feedSpans : List InlineSpan := [⟨.equal, "a\n".toList⟩, ⟨.delete, "b".toList⟩]

/-- The text behind a span that ends a line is drawn in that line, and its own line is drawn
without it. -/
theorem shifted_line :
    (buildSideBySideRows .lines [markedSegment .delete feedSpans]).map (fun row =>
        row.left.map fun cell => (cell.text, spansText cell.inlineHighlights)) =
      [some ("a\n".toList, "a\nb".toList), some ("b".toList, [])] ∧
    ¬ ShowsEveryLine [markedSegment .delete feedSpans]
      (buildSideBySideRows .lines [markedSegment .delete feedSpans]) := by
  have rows : buildSideBySideRows .lines [markedSegment .delete feedSpans] =
      [⟨some ⟨.delete, "a\n".toList, [], feedSpans⟩, none⟩,
        ⟨some ⟨.delete, "b".toList, [], []⟩, none⟩] := by
    decide +kernel
  rw [rows]
  refine ⟨rfl, fun shows => ?_⟩
  have same := shows.drawn _ List.mem_cons_self _ (.inl rfl) (by decide)
  revert same
  decide

end Rows

end SP42.Diff
