import SP42.Actions.Replacement
import SP42.Actions.Route
import SP42.Base.Template

/-!
Which tags of a claim are read back as what was written. The selection, the date and the reason are
put between the bars of a call as they are; only an equals sign in the selection is provided for.
-/
namespace SP42.Actions

open Template

section Splicing

/-- The reason that is written, if one is. -/
def givenReason (reason : Option Text) : Option Text :=
  (reason.map Text.trim).filter fun value => !value.isEmpty

theorem reasonParam_eq (reason : Option Text) :
    reasonParam reason =
      ((givenReason reason).map fun value => "|reason=".toList ++ value).getD [] := by
  rw [reasonParam, givenReason]
  cases reason.map Text.trim with
  | none => rfl
  | some value => cases value <;> rfl

theorem givenReason_trim {reason : Option Text} {value : Text}
    (given : givenReason reason = some value) : Text.trim value = value := by
  obtain ⟨there, -⟩ := Option.filter_eq_some_iff.mp given
  obtain ⟨written, -, rfl⟩ := Option.map_eq_some_iff.mp there
  exact Text.trim_trim written

/-- The call that a tag is meant to be. -/
def taggingCall (template selectedText date : Text) (reason : Option Text) : Template.Call where
  name := Text.trim template
  parameters :=
    ("1".toList, if '=' ∈ selectedText then Text.trim selectedText else selectedText) ::
      ("date".toList, Text.trim date) ::
        ((givenReason reason).map fun value => ("reason".toList, value)).toList

/-- The one occurrence of the selection is replaced by a call that is read so. -/
def WrapsExactly (pageText selectedText updated : Text) (call : Template.Call) : Prop :=
  ∃ before tag after, pageText = before ++ (selectedText ++ after) ∧
    updated = before ++ (tag ++ after) ∧
      (∀ position, OccursAt selectedText pageText position → position = Bytes.size before) ∧
        readCall (tag ++ after) = some (call, after)

/-- The template is a page's name, and in the selection, the date and the reason every bracket that
opens closes, no bar stands outside of brackets, and nothing there ends the call. -/
def Spliceable (template selectedText date : Text) (reason : Option Text) : Prop :=
  title template = true ∧ closed 0 [] selectedText ['|'] = true ∧
    match givenReason reason with
    | none => closed 0 [] date ['}', '}'] = true
    | some value => closed 0 [] date ['|'] = true ∧ closed 0 [] value ['}', '}'] = true

/-- The call as it is written. -/
def tagText (template selectedText date : Text) (reason : Option Text) : Text :=
  '{' :: '{' :: (template ++ '|' :: (textParam selectedText ++ '|' :: ("date=".toList ++ (date ++
    (reasonParam reason ++ ['}', '}'])))))

theorem applyCitationTemplate_eq (date pageText selectedText template : Text) :
    applyCitationTemplate date pageText selectedText template =
      replaceExactlyOnce pageText selectedText (tagText template selectedText date none) := by
  rw [applyCitationTemplate, tagText, reasonParam]
  simp

theorem applyConcernTemplate_eq (date : Text) (payload : SessionActionExecutionRequest)
    (pageText selectedText template : Text) :
    applyConcernTemplate date payload pageText selectedText template =
      replaceExactlyOnce pageText selectedText
        (tagText template selectedText date payload.reason) := by
  rw [applyConcernTemplate, tagText]
  simp

end Splicing

section Parameters

variable {selectedText : Text}

theorem textParam_closed :
    closed 0 [] (textParam selectedText) ['|'] = closed 0 [] selectedText ['|'] := by
  rw [textParam]
  split
  · exact closed_plain rfl selectedText ['|']
  · rfl

theorem textParam_parameter : parameter 1 (textParam selectedText) = ("1".toList,
    if '=' ∈ selectedText then Text.trim selectedText else selectedText) := by
  by_cases equals : '=' ∈ selectedText
  · have cut : splitEquals 0 [] ("1=".toList ++ selectedText) = some ("1".toList, selectedText) :=
      @splitEquals_plain "1".toList rfl selectedText
    rw [textParam, if_pos equals, if_pos equals, parameter, cut]
    rfl
  · rw [textParam, if_neg equals, if_neg equals, parameter, splitEquals_none equals]
    rfl

theorem textParam_count : (textParam selectedText).count '|' = selectedText.count '|' := by
  rw [textParam]
  split
  · rw [List.count_append]
    exact Nat.zero_add _
  · rfl

theorem date_parameter (index : Nat) (date : Text) :
    parameter index ("date=".toList ++ date) = ("date".toList, Text.trim date) := by
  have cut : splitEquals 0 [] ("date=".toList ++ date) = some ("date".toList, date) :=
    @splitEquals_plain "date".toList rfl date
  rw [parameter, cut]
  rfl

theorem reason_parameter (index : Nat) (reason : Text) :
    parameter index ("reason=".toList ++ reason) = ("reason".toList, Text.trim reason) := by
  have cut : splitEquals 0 [] ("reason=".toList ++ reason) = some ("reason".toList, reason) :=
    @splitEquals_plain "reason".toList rfl reason
  rw [parameter, cut]
  rfl

end Parameters

section Tags

variable {template selectedText date after : Text} {reason : Option Text}

/-- What follows the selection, when a reason is given and when none is. -/
theorem tagText_reason {value : Text} (given : givenReason reason = some value) :
    tagText template selectedText date reason ++ after =
      '{' :: '{' :: (template ++ '|' :: (textParam selectedText ++ '|' :: ("date=".toList ++ date ++
        '|' :: ("reason=".toList ++ value ++ '}' :: '}' :: after)))) := by
  rw [tagText, reasonParam_eq, given]
  simp

theorem tagText_plain (given : givenReason reason = none) :
    tagText template selectedText date reason ++ after =
      '{' :: '{' :: (template ++ '|' :: (textParam selectedText ++ '|' :: ("date=".toList ++ date ++
        '}' :: '}' :: after))) := by
  rw [tagText, reasonParam_eq, given]
  simp

/-- The call is read as it was meant if the parts of it are enclosed. -/
theorem Spliceable.readCall (fits : Spliceable template selectedText date reason) :
    readCall (tagText template selectedText date reason ++ after) =
      some (taggingCall template selectedText date reason, after) := by
  obtain ⟨named, selected, others⟩ := fits
  have first := textParam_closed.trans selected
  cases given : givenReason reason with
  | none =>
      rw [given] at others
      have dated := (@closed_plain "date=".toList rfl date ['}', '}']).trans others
      rw [tagText_plain given, readCall_eq_some]
      refine ⟨⟨template, [textParam selectedText, "date=".toList ++ date], after⟩, ?_, named,
        rfl, ?_⟩
      · rw [arguments_bar (title_closed named), arguments_bar first, arguments_close dated]
        rfl
      · rw [taggingCall, given, parameters, parameters, parameters, textParam_parameter,
          date_parameter]
        rfl
  | some value =>
      rw [given] at others
      have dated := (@closed_plain "date=".toList rfl date ['|']).trans others.1
      have reasoned := (@closed_plain "reason=".toList rfl value ['}', '}']).trans others.2
      rw [tagText_reason given, readCall_eq_some]
      refine ⟨⟨template, [textParam selectedText, "date=".toList ++ date,
        "reason=".toList ++ value], after⟩, ?_, named, rfl, ?_⟩
      · rw [arguments_bar (title_closed named), arguments_bar first, arguments_bar dated,
          arguments_close reasoned]
        rfl
      · rw [taggingCall, given, parameters, parameters, parameters, parameters,
          textParam_parameter, date_parameter, reason_parameter, givenReason_trim given]
        rfl

/-- An argument with the bars of its value. -/
theorem parameters_cons {index : Nat} {others : List Text} {name value : Text}
    {later : List (Text × Text)} (read : parameters index others = (name, value) :: later)
    (bare : name.count '|' = 0) : ∃ argument rest next, others = argument :: rest ∧
      argument.count '|' = value.count '|' ∧ parameters next rest = later := by
  cases others with
  | nil => cases read
  | cons argument rest =>
      obtain ⟨here, there⟩ := List.cons.inj read
      exact ⟨argument, rest, _, rfl, parameter_count here bare, there⟩

/-- A reading of what was meant reads the first two arguments as they were written. -/
theorem front_arguments {tail : Text} {reading : Reading} {later : List (Text × Text)}
    (read : arguments 0 [] (template ++ '|' :: (textParam selectedText ++ '|' :: tail)) =
      some reading)
    (named : Text.trim template = Text.trim reading.first) (several : later ≠ [])
    (same : ("1".toList, if '=' ∈ selectedText then Text.trim selectedText else selectedText) ::
      later = parameters 1 reading.others) :
    reading.first = template ∧ closed 0 [] selectedText ['|'] = true ∧ ∃ next index,
      arguments 0 [] tail = some next ∧ next.rest = reading.rest ∧
        parameters index (next.first :: next.others) = later := by
  obtain ⟨second, others, index, split, bars, rest⟩ := parameters_cons same.symm rfl
  have nameBars : reading.first.count '|' = template.count '|' := by
    rw [← count_trim reading.first, ← named, count_trim]
  have inhabited : reading.others ≠ [] := split ▸ List.cons_ne_nil _ _
  obtain ⟨-, middle, readMiddle, rfl⟩ := next_argument read inhabited nameBars
  obtain ⟨rfl, rfl⟩ := List.cons.inj split
  have valueBars : middle.first.count '|' = (textParam selectedText).count '|' := by
    rw [textParam_count, bars]
    split
    · exact count_trim selectedText
    · rfl
  have more : middle.others ≠ [] := by
    intro none_
    rw [none_] at rest
    exact several rest.symm
  obtain ⟨selected, last, readLast, rfl⟩ := next_argument readMiddle more valueBars
  exact ⟨rfl, textParam_closed.symm.trans selected, last, index, readLast, rfl, rest⟩

theorem spliceable_of_readCall
    (read : readCall (tagText template selectedText date reason ++ after) =
      some (taggingCall template selectedText date reason, after)) :
    Spliceable template selectedText date reason := by
  have dateBars : ∀ value : Text, ("date=".toList ++ value).count '|' = value.count '|' :=
    fun value => List.count_append.trans (Nat.zero_add _)
  rw [Spliceable]
  cases given : givenReason reason with
  | none =>
      rw [tagText_plain given] at read
      obtain ⟨reading, found, named, rest, same⟩ := readCall_eq_some.mp read
      rw [taggingCall, given] at same
      obtain ⟨names, values⟩ := Template.Call.mk.inj same
      obtain ⟨rfl, selected, last, index, readLast, behind, dates⟩ :=
        front_arguments found names (List.cons_ne_nil _ _) values
      obtain ⟨argument, none_, next, split, -, ends⟩ := parameters_cons dates rfl
      have alone : last.others = [] := by
        rw [(List.cons.inj split).2]
        cases none_ with
        | nil => rfl
        | cons => cases ends
      have dated := (last_argument readLast alone (behind.trans rest.symm)).1
      exact ⟨named, selected, (@closed_plain "date=".toList rfl date _).symm.trans dated⟩
  | some value =>
      rw [tagText_reason given] at read
      obtain ⟨reading, found, named, rest, same⟩ := readCall_eq_some.mp read
      rw [taggingCall, given] at same
      obtain ⟨names, values⟩ := Template.Call.mk.inj same
      obtain ⟨rfl, selected, dateRead, index, readDate, behind, dates⟩ :=
        front_arguments found names (List.cons_ne_nil _ _) values
      obtain ⟨argument, others, next, split, bars, reasons⟩ := parameters_cons dates rfl
      obtain ⟨rfl, rfl⟩ := List.cons.inj split
      obtain ⟨second, none_, next', split', -, ends⟩ := parameters_cons reasons rfl
      have several : dateRead.others ≠ [] := split' ▸ List.cons_ne_nil _ _
      have count : dateRead.first.count '|' = ("date=".toList ++ date).count '|' := by
        rw [dateBars, bars, count_trim]
      obtain ⟨dated, last, readLast, rfl⟩ := next_argument readDate several count
      have alone : last.others = [] := by
        rw [(List.cons.inj split').2]
        cases none_ with
        | nil => rfl
        | cons => cases ends
      have reasoned := (last_argument readLast alone (behind.trans rest.symm)).1
      exact ⟨named, selected, (@closed_plain "date=".toList rfl date _).symm.trans dated,
        (@closed_plain "reason=".toList rfl value _).symm.trans reasoned⟩

theorem wrapsExactly_iff {pageText updated : Text}
    (done : replaceExactlyOnce pageText selectedText (tagText template selectedText date reason) =
      .ok updated) :
    WrapsExactly pageText selectedText updated (taggingCall template selectedText date reason) ↔
      ¬ Crowded selectedText pageText ∧ Spliceable template selectedText date reason := by
  obtain ⟨-, before, after, leftmost, clear, rfl⟩ := replaceExactlyOnce_ok.mp done
  constructor
  · rintro ⟨front, tag, back, whole, same, alone, read⟩
    have place := alone _ ⟨before, after, leftmost.whole, rfl⟩
    obtain ⟨rfl, tail⟩ := Bytes.cut_unique (leftmost.whole.symm.trans whole) place
    obtain rfl := List.append_cancel_left tail
    have call := List.append_cancel_left same
    refine ⟨?_, spliceable_of_readCall (call ▸ read)⟩
    rintro ⟨first, later, less, here, there, -⟩
    exact absurd ((alone first here).trans (alone later there).symm) (Nat.ne_of_lt less)
  · rintro ⟨spread, fits⟩
    exact ⟨before, _, after, leftmost.whole, rfl, fun _ => leftmost.alone clear spread,
      fits.readCall⟩

end Tags

end SP42.Actions
