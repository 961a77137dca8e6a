import SP42.Diff.Structure

/-!
The phrases of a diff found again in a rendered page. One phrase is searched for from a position
on, past its occurrences inside of words; the ranges are what is found first, again and again.
Slices are in bytes, and `none` is a panic or a loop that has not ended.
-/
namespace SP42.Diff

section Search

variable (isAlphanumeric : Char → Bool)

structure RenderedHighlightPhrase where
  text : Text
  wholeWordOnly : Bool

/-- No letter and no digit stands on either side. -/
def wordEnds (before after : Text) : Bool :=
  (before.getLast?.all fun c => !isAlphanumeric c) && after.head?.all fun c => !isAlphanumeric c

def isWholeWordMatch (text : Text) (start stop : Nat) : Option Bool :=
  (Bytes.slice text 0 start).bind fun before =>
    (Bytes.sliceFrom text stop).map fun after => wordEnds isAlphanumeric before after

/-- The search for a phrase, in at most so many turns. -/
def findRenderedPhraseMatch (text : Text) (phrase : RenderedHighlightPhrase) :
    Nat → Nat → Option (Option (Nat × Nat))
  | 0, _ => none
  | turns + 1, searchFrom =>
      if searchFrom < Bytes.size text then
        (Bytes.sliceFrom text searchFrom).bind fun rest =>
          match Text.findBytes rest phrase.text with
          | none => some none
          | some offset =>
              let start := searchFrom + offset
              let stop := start + Bytes.size phrase.text
              if !phrase.wholeWordOnly then some (some (start, Bytes.size phrase.text))
              else
                (isWholeWordMatch isAlphanumeric text start stop).bind fun whole =>
                  if whole then some (some (start, Bytes.size phrase.text))
                  else findRenderedPhraseMatch text phrase turns stop
      else some none

/-- `min_by`: an earlier start first, then a greater length. -/
def leader : Option (Nat × Nat) → Nat × Nat → Option (Nat × Nat)
  | none, candidate => some candidate
  | some best, candidate =>
      if candidate.1 < best.1 ∨ (candidate.1 = best.1 ∧ best.2 < candidate.2) then some candidate
      else some best

def highlightMatchesFrom (turns : Nat) (text : Text) (phrases : List RenderedHighlightPhrase) :
    Nat → Nat → Option (List (Nat × Nat))
  | 0, _ => none
  | more + 1, cursor =>
      if cursor < Bytes.size text then
        (phrases.mapM fun phrase =>
            findRenderedPhraseMatch isAlphanumeric text phrase turns cursor).bind fun found =>
          match (found.filterMap id).foldl leader none with
          | none => some []
          | some (start, len) =>
              (highlightMatchesFrom turns text phrases more (start + len)).map
                ((start, start + len) :: ·)
      else some []

def findRenderedHighlightMatches (turns : Nat) (text : Text)
    (phrases : List RenderedHighlightPhrase) : Option (List (Nat × Nat)) :=
  highlightMatchesFrom isAlphanumeric turns text phrases turns 0

end Search

section Occurrences

variable (isAlphanumeric : Char → Bool)

/-- An occurrence of a phrase, by what stands before and behind it. -/
def Stands (text : Text) (phrase : RenderedHighlightPhrase) (before after : Text) : Prop :=
  text = before ++ (phrase.text ++ after)

/-- The occurrence respects the flag of its phrase. -/
def Respects (phrase : RenderedHighlightPhrase) (before after : Text) : Prop :=
  phrase.wholeWordOnly = true → wordEnds isAlphanumeric before after = true

instance (phrase : RenderedHighlightPhrase) (before after : Text) :
    Decidable (Respects isAlphanumeric phrase before after) :=
  inferInstanceAs (Decidable (_ → _))

structure Admissible (text : Text) (phrase : RenderedHighlightPhrase) (before after : Text) :
    Prop where
  stands : Stands text phrase before after
  respects : Respects isAlphanumeric phrase before after

/-- An occurrence that begins inside of another one of its phrase, which does not respect the
flag. -/
def Shadowed (text : Text) (phrase : RenderedHighlightPhrase) (before : Text) : Prop :=
  ∃ front back, Stands text phrase front back ∧ ¬ Respects isAlphanumeric phrase front back ∧
    Bytes.size front < Bytes.size before ∧
    Bytes.size before < Bytes.size front + Bytes.size phrase.text

end Occurrences

section First

variable {isAlphanumeric : Char → Bool} {text : Text} {phrase : RenderedHighlightPhrase}

/-- What stands behind a position stands in the rest of the text. -/
theorem behind {done rest before : Text} {tail : Text} (split : done ++ rest = before ++ tail)
    (later : Bytes.size done ≤ Bytes.size before) :
    ∃ middle, before = done ++ middle ∧ rest = middle ++ tail := by
  rcases List.append_eq_append_iff.mp split with ⟨middle, there, back⟩ | ⟨gap, there, back⟩
  · exact ⟨middle, there, back⟩
  · have empty : gap = [] := by
      by_contra inhabited
      have := Bytes.size_pos inhabited
      rw [there, Bytes.size_append] at later
      omega
    subst empty
    exact ⟨[], by simpa using there.symm, by simpa using back.symm⟩

/-- Nothing of a word stands before the place where it is found. -/
theorem found_first {word rest middle tail : Text} {position : Nat}
    (found : Search.find word rest = some position) (stands : rest = middle ++ (word ++ tail)) :
    Bytes.size (rest.take position) ≤ Bytes.size middle := by
  obtain ⟨-, -, first⟩ := Search.find_eq_some_iff.mp found
  have behind : position ≤ middle.length := by
    by_contra early
    refine first middle.length (Nat.lt_of_not_le early) ?_
    rw [stands, List.drop_left]
    exact List.prefix_append word tail
  have part : rest.take position = middle.take position := by
    rw [stands, List.take_append_of_le_length behind]
  have whole := congrArg Bytes.size (List.take_append_drop position middle)
  rw [Bytes.size_append] at whole
  rw [part]
  omega

theorem wholeWord_reads {before after : Text} (stands : Stands text phrase before after) :
    isWholeWordMatch isAlphanumeric text (Bytes.size before)
        (Bytes.size before + Bytes.size phrase.text) =
      some (wordEnds isAlphanumeric before after) := by
  have front : Bytes.slice text 0 (Bytes.size before) = some before :=
    Bytes.slice_eq.mpr ⟨[], phrase.text ++ after, stands, rfl, Nat.zero_add _⟩
  have back : Bytes.sliceFrom text (Bytes.size before + Bytes.size phrase.text) = some after := by
    refine Bytes.sliceFrom_eq.mpr ⟨before ++ phrase.text, ?_, Bytes.size_append _ _⟩
    rw [List.append_assoc]
    exact stands
  rw [isWholeWordMatch, front, Option.bind_some, back, Option.map_some]

/-- What a search from a position on answers. -/
def FirstFrom (isAlphanumeric : Char → Bool) (text : Text) (phrase : RenderedHighlightPhrase)
    (searchFrom : Nat) : Option (Nat × Nat) → Prop
  | none => ∀ before after, Admissible isAlphanumeric text phrase before after →
      searchFrom ≤ Bytes.size before → Shadowed isAlphanumeric text phrase before
  | some (start, len) => (∃ before after, Admissible isAlphanumeric text phrase before after ∧
        Bytes.size before = start) ∧ len = Bytes.size phrase.text ∧ searchFrom ≤ start ∧
      ∀ before after, Admissible isAlphanumeric text phrase before after →
        searchFrom ≤ Bytes.size before → Bytes.size before < start →
        Shadowed isAlphanumeric text phrase before

/-- A search that goes on behind a refused occurrence steps only over what begins inside of it. -/
theorem FirstFrom.past {front back : Text} {searchFrom : Nat} {answer : Option (Nat × Nat)}
    (refused : Stands text phrase front back) (inWord : ¬ Respects isAlphanumeric phrase front back)
    (low : searchFrom ≤ Bytes.size front)
    (first : ∀ before after, Admissible isAlphanumeric text phrase before after →
      searchFrom ≤ Bytes.size before → Bytes.size front ≤ Bytes.size before)
    (later : FirstFrom isAlphanumeric text phrase (Bytes.size front + Bytes.size phrase.text)
      answer) : FirstFrom isAlphanumeric text phrase searchFrom answer := by
  have inside : ∀ before after, Admissible isAlphanumeric text phrase before after →
      searchFrom ≤ Bytes.size before →
      Bytes.size before < Bytes.size front + Bytes.size phrase.text →
      Shadowed isAlphanumeric text phrase before := by
    intro before after admissible from_ below
    refine ⟨front, back, refused, inWord, ?_, below⟩
    refine Nat.lt_of_le_of_ne (first before after admissible from_) fun same => ?_
    obtain ⟨rfl, rest⟩ := Bytes.cut_unique (refused.symm.trans admissible.stands) same
    exact inWord (List.append_cancel_left rest ▸ admissible.respects)
  cases answer with
  | none =>
      intro before after admissible from_
      by_cases below : Bytes.size before < Bytes.size front + Bytes.size phrase.text
      · exact inside before after admissible from_ below
      · exact later before after admissible (Nat.not_lt.mp below)
  | some range =>
      obtain ⟨stands, length, above, earlier⟩ := later
      refine ⟨stands, length, by omega, fun before after admissible from_ sooner => ?_⟩
      by_cases below : Bytes.size before < Bytes.size front + Bytes.size phrase.text
      · exact inside before after admissible from_ below
      · exact earlier before after admissible (Nat.not_lt.mp below) sooner

/-- The search ends, and what it steps over begins inside of a refused occurrence. -/
theorem findRenderedPhraseMatch_first (nonempty : phrase.text ≠ []) {done rest : Text}
    (split : text = done ++ rest) {turns : Nat} (enough : rest.length < turns) :
    ∃ answer, findRenderedPhraseMatch isAlphanumeric text phrase turns (Bytes.size done) =
      some answer ∧ FirstFrom isAlphanumeric text phrase (Bytes.size done) answer := by
  induction turns generalizing done rest with
  | zero => exact absurd enough (Nat.not_lt_zero _)
  | succ turns ih =>
      have size : Bytes.size text = Bytes.size done + Bytes.size rest := by
        rw [split, Bytes.size_append]
      rw [findRenderedPhraseMatch]
      by_cases more : Bytes.size done < Bytes.size text
      · rw [if_pos more, Bytes.sliceFrom_eq.mpr ⟨done, split, rfl⟩, Option.bind_some,
          Text.findBytes]
        cases found : Search.find phrase.text rest with
        | none =>
            refine ⟨none, rfl, fun before after admissible from_ => ?_⟩
            obtain ⟨middle, -, there⟩ := behind (split.symm.trans admissible.stands) from_
            exact absurd ⟨middle, after, by rw [there, List.append_assoc]⟩
              (Search.find_eq_none.mp found)
        | some position =>
            obtain ⟨after, cut⟩ := Search.append_of_find found
            have stands : Stands text phrase (done ++ rest.take position) after := by
              rw [Stands, List.append_assoc, ← cut]
              exact split
            have start : Bytes.size done + Bytes.size (rest.take position) =
                Bytes.size (done ++ rest.take position) := (Bytes.size_append _ _).symm
            have first : ∀ before after, Admissible isAlphanumeric text phrase before after →
                Bytes.size done ≤ Bytes.size before →
                Bytes.size (done ++ rest.take position) ≤ Bytes.size before := by
              intro before tail admissible from_
              obtain ⟨middle, rfl, there⟩ := behind (split.symm.trans admissible.stands) from_
              have := found_first found there
              rw [Bytes.size_append, Bytes.size_append]
              omega
            simp only [Option.map_some, start]
            by_cases good : Respects isAlphanumeric phrase (done ++ rest.take position) after
            · refine ⟨some (Bytes.size (done ++ rest.take position), Bytes.size phrase.text), ?_,
                ⟨_, after, ⟨stands, good⟩, rfl⟩, rfl, by omega, ?_⟩
              · cases flag : phrase.wholeWordOnly with
                | false => rfl
                | true =>
                    rw [wholeWord_reads stands, Option.bind_some, good flag]
                    rfl
              · intro before tail admissible from_ sooner
                exact absurd (first before tail admissible from_) (by omega)
            · obtain ⟨flag, inWord⟩ := Classical.not_imp.mp good
              have shorter : after.length < turns := by
                have lengths := congrArg List.length cut
                have := List.length_pos_of_ne_nil nonempty
                rw [List.length_append, List.length_append] at lengths
                omega
              have onward : text = (done ++ rest.take position ++ phrase.text) ++ after := by
                rw [List.append_assoc]
                exact stands
              obtain ⟨answer, ends, later⟩ := ih onward shorter
              rw [Bytes.size_append _ phrase.text] at ends later
              refine ⟨answer, ?_, later.past stands good (by omega) first⟩
              rw [flag, wholeWord_reads stands, Option.bind_some, eq_false_of_ne_true inWord]
              exact ends
      · refine ⟨none, if_neg more, fun before after admissible from_ => ?_⟩
        have ends := congrArg Bytes.size admissible.stands
        have := Bytes.size_pos nonempty
        rw [Bytes.size_append, Bytes.size_append] at ends
        omega

end First

section Matches

variable {isAlphanumeric : Char → Bool} {text : Text} {phrases : List RenderedHighlightPhrase}

theorem leader_eq {candidates : List (Nat × Nat)} :
    (candidates.foldl leader none = none → candidates = []) ∧
      ∀ best, candidates.foldl leader none = some best → best ∈ candidates ∧
        ∀ other ∈ candidates, best.1 < other.1 ∨ (best.1 = other.1 ∧ other.2 ≤ best.2) := by
  induction candidates using List.reverseRecOn with
  | nil => exact ⟨fun _ => rfl, nofun⟩
  | append_singleton candidates last ih =>
      rw [List.foldl_append, List.foldl_cons, List.foldl_nil]
      cases held : candidates.foldl leader none with
      | none =>
          rw [ih.1 held]
          refine ⟨nofun, ?_⟩
          rintro best ⟨⟩
          refine ⟨List.mem_cons_self, fun other member => .inr ?_⟩
          rw [List.mem_singleton.mp member]
          exact ⟨rfl, Nat.le_refl _⟩
      | some current =>
          obtain ⟨member, beats⟩ := ih.2 current held
          rw [leader]
          by_cases better : last.1 < current.1 ∨ (last.1 = current.1 ∧ current.2 < last.2)
          · rw [if_pos better]
            refine ⟨nofun, ?_⟩
            rintro best ⟨⟩
            refine ⟨List.mem_append_right _ List.mem_cons_self, fun other among => ?_⟩
            rcases List.mem_append.mp among with earlier | here
            · have := beats other earlier
              omega
            · rw [List.mem_singleton.mp here]
              exact .inr ⟨rfl, Nat.le_refl _⟩
          · rw [if_neg better]
            refine ⟨nofun, ?_⟩
            rintro best ⟨⟩
            refine ⟨List.mem_append_left _ member, fun other among => ?_⟩
            rcases List.mem_append.mp among with earlier | here
            · exact beats other earlier
            · rw [List.mem_singleton.mp here]
              omega

/-- What the ranges found from a position on are. An occurrence may be missed, or a longer one
passed over, where it is in the shadow of a refused one. -/
structure MatchedFrom (isAlphanumeric : Char → Bool) (text : Text)
    (phrases : List RenderedHighlightPhrase) (cursor : Nat) (ranges : List (Nat × Nat)) : Prop where
  ordered : ranges.Pairwise fun one other => one.2 ≤ other.1
  behind : ∀ range ∈ ranges, cursor ≤ range.1
  each : ∀ range ∈ ranges, ∃ phrase ∈ phrases, ∃ before after,
    Admissible isAlphanumeric text phrase before after ∧
      range = (Bytes.size before, Bytes.size before + Bytes.size phrase.text)
  complete : ∀ phrase ∈ phrases, ∀ before after,
    Admissible isAlphanumeric text phrase before after → cursor ≤ Bytes.size before →
      (∃ range ∈ ranges, Bytes.size before < range.2 ∧
        range.1 < Bytes.size before + Bytes.size phrase.text) ∨
      Shadowed isAlphanumeric text phrase before
  longest : ∀ range ∈ ranges, ∀ phrase ∈ phrases, ∀ before after,
    Admissible isAlphanumeric text phrase before after → Bytes.size before = range.1 →
      Bytes.size before + Bytes.size phrase.text ≤ range.2 ∨
      Shadowed isAlphanumeric text phrase before

/-- One range more, the first among what the phrases answer. -/
theorem MatchedFrom.cons (nonempty : ∀ phrase ∈ phrases, phrase.text ≠ []) {cursor : Nat}
    {answers : List (Option (Nat × Nat))} {start len : Nat} {ranges : List (Nat × Nat)}
    (answered : ∀ phrase ∈ phrases, ∃ answer ∈ answers,
      FirstFrom isAlphanumeric text phrase cursor answer)
    (first : (answers.filterMap id).foldl leader none = some (start, len))
    {phrase : RenderedHighlightPhrase} (among : phrase ∈ phrases) {before after : Text}
    (stands : Admissible isAlphanumeric text phrase before after)
    (place : Bytes.size before = start) (length : len = Bytes.size phrase.text)
    (low : cursor ≤ start) (rest : MatchedFrom isAlphanumeric text phrases (start + len) ranges) :
    MatchedFrom isAlphanumeric text phrases cursor ((start, start + len) :: ranges) := by
  obtain ⟨-, beats⟩ := leader_eq.2 _ first
  have leads : ∀ other ∈ phrases, ∀ front back,
      Admissible isAlphanumeric text other front back → cursor ≤ Bytes.size front →
        Shadowed isAlphanumeric text other front ∨ start < Bytes.size front ∨
          (start = Bytes.size front ∧ Bytes.size other.text ≤ len) := by
    intro other member front back admissible from_
    obtain ⟨answer, held, answer_first⟩ := answered other member
    cases answer with
    | none => exact .inl (answer_first front back admissible from_)
    | some range =>
        obtain ⟨-, size, -, earlier⟩ := answer_first
        by_cases sooner : Bytes.size front < range.1
        · exact .inl (earlier front back admissible from_ sooner)
        · have best := beats range (List.mem_filterMap.mpr ⟨some range, held, rfl⟩)
          dsimp only at best
          omega
  refine ⟨List.pairwise_cons.mpr ⟨rest.behind, rest.ordered⟩, ?_, ?_, ?_, ?_⟩
  · intro range member
    rcases List.mem_cons.mp member with rfl | later
    · exact low
    · have := rest.behind range later
      omega
  · intro range member
    rcases List.mem_cons.mp member with rfl | later
    · exact ⟨phrase, among, before, after, stands, by rw [place, length]⟩
    · exact rest.each range later
  · intro other member front back admissible from_
    by_cases beyond : start + len ≤ Bytes.size front
    · refine (rest.complete other member front back admissible beyond).imp_left ?_
      rintro ⟨range, held, overlaps⟩
      exact ⟨range, List.mem_cons_of_mem _ held, overlaps⟩
    · have := Bytes.size_pos (nonempty other member)
      rcases leads other member front back admissible from_ with shadow | later | here
      · exact .inr shadow
      · exact .inl ⟨_, List.mem_cons_self, by dsimp only; omega⟩
      · exact .inl ⟨_, List.mem_cons_self, by dsimp only; omega⟩
  · intro range member other known front back admissible same
    rcases List.mem_cons.mp member with rfl | later
    · dsimp only at same ⊢
      rcases leads other known front back admissible (by omega) with shadow | beyond | here
      · exact .inr shadow
      · omega
      · exact .inl (by omega)
    · exact rest.longest range later other known front back admissible same

/-- The loop ends with ranges that cover the rest of the text. -/
theorem highlightMatchesFrom_matched (nonempty : ∀ phrase ∈ phrases, phrase.text ≠ []) {turns : Nat}
    (enough : text.length < turns) {more : Nat} {done rest : Text} (split : text = done ++ rest)
    (left : rest.length < more) :
    ∃ ranges, highlightMatchesFrom isAlphanumeric turns text phrases more (Bytes.size done) =
      some ranges ∧ MatchedFrom isAlphanumeric text phrases (Bytes.size done) ranges := by
  induction more generalizing done rest with
  | zero => exact absurd left (Nat.not_lt_zero _)
  | succ more ih =>
      rw [highlightMatchesFrom]
      by_cases inside : Bytes.size done < Bytes.size text
      · have shorter : rest.length < turns := by
          rw [split, List.length_append] at enough
          omega
        have each : ∀ phrase ∈ phrases, ∃ answer,
            findRenderedPhraseMatch isAlphanumeric text phrase turns (Bytes.size done) =
              some answer ∧ FirstFrom isAlphanumeric text phrase (Bytes.size done) answer :=
          fun phrase member => findRenderedPhraseMatch_first (nonempty phrase member) split shorter
        have ends : (phrases.mapM fun phrase => findRenderedPhraseMatch isAlphanumeric text phrase
            turns (Bytes.size done)).isSome := by
          refine Total.mapM_isSome_iff.mpr fun phrase member => ?_
          obtain ⟨answer, value, -⟩ := each phrase member
          rw [value]
          rfl
        obtain ⟨answers, ended⟩ := Option.isSome_iff_exists.mp ends
        have pairs := Total.mapM_eq_some ended
        have answered : ∀ phrase ∈ phrases, ∃ answer ∈ answers,
            FirstFrom isAlphanumeric text phrase (Bytes.size done) answer := by
          intro phrase member
          obtain ⟨answer, held, value⟩ := Traverse.exists_right pairs member
          obtain ⟨other, same, first⟩ := each phrase member
          rw [value] at same
          cases same
          exact ⟨answer, held, first⟩
        rw [if_pos inside, ended, Option.bind_some]
        cases lead : (answers.filterMap id).foldl leader none with
        | none =>
            refine ⟨[], rfl, List.Pairwise.nil, nofun, nofun, ?_, nofun⟩
            intro phrase member before after admissible from_
            obtain ⟨answer, held, first⟩ := answered phrase member
            cases answer with
            | none => exact .inr (first before after admissible from_)
            | some range =>
                have kept : range ∈ answers.filterMap id := List.mem_filterMap.mpr ⟨_, held, rfl⟩
                rw [leader_eq.1 lead] at kept
                cases kept
        | some range =>
            obtain ⟨start, len⟩ := range
            obtain ⟨_, held, ⟨⟩⟩ := List.mem_filterMap.mp (leader_eq.2 _ lead).1
            obtain ⟨phrase, among, value⟩ := Traverse.exists_left pairs held
            obtain ⟨other, same, first⟩ := each phrase among
            rw [value] at same
            cases same
            obtain ⟨⟨before, after, stands, place⟩, length, low, -⟩ := first
            have onward : text = (before ++ phrase.text) ++ after := by
              rw [List.append_assoc]
              exact stands.stands
            have fewer : after.length < more := by
              obtain ⟨middle, -, there⟩ := behind (split.symm.trans stands.stands) (place ▸ low)
              have lengths := congrArg List.length there
              have := List.length_pos_of_ne_nil (nonempty phrase among)
              rw [List.length_append, List.length_append] at lengths
              omega
            obtain ⟨ranges, ends, covers⟩ := ih onward fewer
            rw [Bytes.size_append, place, ← length] at ends covers
            refine ⟨(start, start + len) :: ranges, ?_, ?_⟩
            · exact congrArg (Option.map _) ends
            · exact covers.cons nonempty answered lead among stands place length low
      · refine ⟨[], if_neg inside, List.Pairwise.nil, nofun, nofun, ?_, nofun⟩
        intro phrase member before after admissible from_
        have ends := congrArg Bytes.size admissible.stands
        have := Bytes.size_pos (nonempty phrase member)
        rw [Bytes.size_append, Bytes.size_append] at ends
        omega

/-- A phrase whose first character does not come back in it casts no shadow. -/
theorem not_shadowed {phrase : RenderedHighlightPhrase}
    (single : Search.unbordered phrase.text = true) {before after : Text}
    (stands : Stands text phrase before after) :
    ¬ Shadowed isAlphanumeric text phrase before := by
  rintro ⟨front, back, other, -, low, high⟩
  obtain ⟨middle, rfl, there⟩ := behind (other.symm.trans stands) (Nat.le_of_lt low)
  rw [Bytes.size_append] at low high
  rcases List.append_eq_append_iff.mp there with ⟨gap, rfl, -⟩ | ⟨gap, inside, begins⟩
  · rw [Bytes.size_append] at high
    omega
  · cases middle with
    | nil => simp at low
    | cons c middle =>
        cases gap with
        | nil =>
            have whole := congrArg Bytes.size inside
            rw [Bytes.size_append, Bytes.size_nil] at whole
            omega
        | cons d gap =>
            rw [inside, List.cons_append] at single begins
            obtain ⟨rfl, -⟩ := List.cons.inj begins
            simp [Search.unbordered] at single

end Matches

section Completeness

variable {isAlphanumeric : Char → Bool} {text : Text} {phrases : List RenderedHighlightPhrase}

/-- Ordered, disjoint ranges between characters, each an occurrence that respects its flag, of
which no other such occurrence stands clear, and the longest of those that begin where it does. -/
structure LeftmostLongest (isAlphanumeric : Char → Bool) (text : Text)
    (phrases : List RenderedHighlightPhrase) (ranges : List (Nat × Nat)) : Prop where
  ordered : ranges.Pairwise fun one other => one.2 ≤ other.1
  boundaries : ∀ range ∈ ranges, Bytes.Boundary text range.1 ∧ Bytes.Boundary text range.2
  each : ∀ range ∈ ranges, ∃ phrase ∈ phrases, ∃ before after,
    Admissible isAlphanumeric text phrase before after ∧
      range = (Bytes.size before, Bytes.size before + Bytes.size phrase.text)
  complete : ∀ phrase ∈ phrases, ∀ before after,
    Admissible isAlphanumeric text phrase before after → ∃ range ∈ ranges,
      Bytes.size before < range.2 ∧ range.1 < Bytes.size before + Bytes.size phrase.text
  longest : ∀ range ∈ ranges, ∀ phrase ∈ phrases, ∀ before after,
    Admissible isAlphanumeric text phrase before after → Bytes.size before = range.1 →
      Bytes.size before + Bytes.size phrase.text ≤ range.2

def wordPhrase (text : String) : RenderedHighlightPhrase := ⟨text.toList, true⟩

end Completeness

end SP42.Diff
