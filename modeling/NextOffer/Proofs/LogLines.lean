import NextOffer.Log.Line
import NextOffer.Proofs.Json.Texts
import NextOffer.Proofs.Writing

/-! # What log lines hold

A log line is one JSON object on one line in basic Latin, whatever the message and the further
fields are. It holds the message and every further field that is not passed over. Time, level and
logger share one object with the further fields, though, and are told unless one of those has
their name.
-/

namespace NextOffer.Log

open Json

namespace Entry

/-- What a line tells of the record besides its message. -/
def heading (entry : Entry) (time : String) : Fields Value := [
  ("ts", .string time),
  ("level", entry.ownField "levelname" (.string entry.level)),
  ("logger", entry.ownField "name" (.string entry.logger))]

/-- The fields that a line begins with. -/
def opening (entry : Entry) (time message : String) (failure : Option String) : Fields Value :=
  entry.heading time ++ ("msg", .string message) :: failure.toList.map fun text =>
    ("exc", .string text)

/-- The further fields that are not passed over. -/
def furtherFields (entry : Entry) : Fields Value :=
  entry.extra.filter fun field => !isOwn field.1

/-- The fields of a line. -/
def lineFields (entry : Entry) (time message : String) (failure : Option String) : Fields Value :=
  entry.furtherFields.foldl (fun fields field => fields.set field.1 field.2)
    (entry.opening time message failure)

variable {entry : Entry} {time message name : String} {failure : Option String}

theorem names_opening (entry : Entry) (time message : String) (failure : Option String) :
    (entry.opening time message failure).names.Nodup := by
  cases failure <;> simp [opening, heading, Fields.names]

theorem names_furtherFields (distinct : entry.extra.names.Nodup) :
    entry.furtherFields.names.Nodup :=
  distinct.sublist (List.filter_sublist.map _)

theorem get?_lineFields (distinct : entry.extra.names.Nodup) :
    (entry.lineFields time message failure).get? name =
      (if isOwn name then none else entry.extra.get? name).or
        ((entry.opening time message failure).get? name) := by
  rw [lineFields, Fields.get?_foldl_set (names_furtherFields distinct), furtherFields,
    Fields.get?_filter (fun name => !isOwn name)]
  cases isOwn name <;> rfl

theorem get?_lineFields_msg (distinct : entry.extra.names.Nodup) :
    (entry.lineFields time message failure).get? "msg" = some (.string message) := by
  have own : isOwn "msg" = true := by decide
  rw [get?_lineFields distinct, own]
  rfl

theorem get?_lineFields_further (distinct : entry.extra.names.Nodup) {value : Value}
    (member : (name, value) ∈ entry.extra) (further : isOwn name = false) :
    (entry.lineFields time message failure).get? name = some value := by
  rw [get?_lineFields distinct, further, (Fields.get?_eq_some_iff distinct).mpr member]
  rfl

/-- The line tells what belongs to the record unless a further field of the name has another
value. -/
theorem get?_lineFields_heading (distinct : entry.extra.names.Nodup) :
    ∀ own ∈ entry.heading time,
      (entry.lineFields time message failure).get? own.1 = some own.2 ↔
        ∀ value, (own.1, value) ∈ entry.extra → value = own.2 := by
  intro own member
  have shown : isOwn "ts" = false ∧ isOwn "level" = false ∧ isOwn "logger" = false := by decide
  have further : isOwn own.1 = false := by
    simp only [heading, List.mem_cons, List.not_mem_nil, or_false] at member
    rcases member with rfl | rfl | rfl
    exacts [shown.1, shown.2.1, shown.2.2]
  have begins : (entry.opening time message failure).get? own.1 = some own.2 :=
    (Fields.get?_eq_some_iff (names_opening ..)).mpr (List.mem_append_left _ member)
  rw [get?_lineFields distinct, further, begins]
  simp only [← Fields.get?_eq_some_iff distinct]
  cases entry.extra.get? own.1 <;> simp

theorem everywhere_ownField {holds : Value → Prop} {own : Value}
    (extra : (Value.object entry.extra).Everywhere holds) (whole : own.Everywhere holds) :
    (entry.ownField name own).Everywhere holds := by
  unfold ownField
  cases found : entry.extra.get? name with
  | none => exact whole
  | some value => exact extra.entry (Fields.mem_of_get? found)

theorem legible_lineFields (legible : (Value.object entry.extra).Everywhere Value.IsLegible) :
    (Value.object (entry.lineFields time message failure)).Everywhere Value.IsLegible := by
  have string (text : String) : (Value.string text).Everywhere Value.IsLegible :=
    Value.everywhere_string.mpr ⟨trivial, trivial⟩
  have opening : ∀ field ∈ entry.opening time message failure,
      field.2.Everywhere Value.IsLegible := by
    simp only [opening, heading, List.cons_append, List.nil_append, List.forall_mem_cons,
      List.forall_mem_map]
    exact ⟨string _, everywhere_ownField legible (string _), everywhere_ownField legible (string _),
      string _, fun text _ => string text⟩
  have further : ∀ field ∈ entry.furtherFields, field.2.Everywhere Value.IsLegible :=
    fun field member => legible.entry (List.mem_of_mem_filter member)
  obtain ⟨distinct, inner⟩ :=
    Fields.foldl_set_induction entry.furtherFields (names_opening ..) opening further
  exact .ofEntries ⟨distinct, trivial⟩ inner

theorem jsonLine_eq (timed : timeText (entry.ownField "created" entry.created) = .ok time)
    (formatted : entry.messageText = .ok message) (failed : entry.ownFailure = .ok failure)
    (legible : (Value.object entry.extra).Everywhere Value.IsLegible) :
    entry.jsonLine = .ok (Form.spaced.text (.object (entry.lineFields time message failure))) := by
  have fields : entry.fields = .ok (entry.lineFields time message failure) := by
    rw [fields, timed, formatted, failed]
    rfl
  have writable := Value.isWritable_of_legible
    (@legible_lineFields entry time message failure legible)
  rw [jsonLine, fields, Outcome.ok_bind, Form.render_of_isWritable writable]
  rfl

/-- What a line with these fields tells of a record. -/
structure Tells (entry : Entry) (time message line : String) (fields : Fields Value) : Prop where
  /-- It is one line, and in basic Latin. -/
  latin : ∀ c ∈ line.toList, isLatin c = true
  parsed : parse line = .ok (.object fields)
  message : fields.get? "msg" = some (.string message)
  further : ∀ name value, (name, value) ∈ entry.extra → isOwn name = false →
    fields.get? name = some value
  /-- Time, level and logger are told unless a further field of the name has another value. -/
  heading : ∀ own ∈ entry.heading time, fields.get? own.1 = some own.2 ↔
    ∀ value, (own.1, value) ∈ entry.extra → value = own.2

/-- Every record whose time and message are made has a line that tells of it. -/
theorem jsonLine_tells (entry : Entry) {time message : String} {failure : Option String}
    (timed : timeText (entry.ownField "created" entry.created) = .ok time)
    (formatted : entry.messageText = .ok message) (failed : entry.ownFailure = .ok failure)
    (legible : (Value.object entry.extra).Everywhere Value.IsLegible) :
    ∃ line fields, entry.jsonLine = .ok line ∧ entry.Tells time message line fields := by
  have distinct : entry.extra.names.Nodup := legible.root.1
  have latin : ∀ c ∈ (Form.spaced.text (.object (entry.lineFields time message failure))).toList,
      isLatin c = true := by
    rw [Form.text, String.toList_ofList]
    exact Form.isLatin_of_mem_chars Form.regular_spaced rfl rfl _
  exact ⟨_, _, jsonLine_eq timed formatted failed legible,
    { latin
      parsed := parse_text Form.regular_spaced (legible_lineFields legible)
      message := get?_lineFields_msg distinct
      further := fun _ _ => get?_lineFields_further distinct
      heading := get?_lineFields_heading distinct }⟩

/-- A message with a line break, a fraction, a field that is passed over, and one that names the
level again. -/
def greeting : Entry where
  created := .int 1770316088
  level := "INFO"
  logger := "lobby"
  template := "hi %s"
  arguments := [.string "Zoë\n"]
  extra := [("share", .number (.real (Binary64.ofDecimal false ⟨25, -2⟩))), ("_seat", .null),
    ("level", .string "INFO")]

theorem jsonLine_tells_greeting :
    timeText (greeting.ownField "created" greeting.created) = .ok "2026-02-05T18:28:08Z" ∧
    greeting.messageText = .ok "hi Zoë\n" ∧ greeting.ownFailure = .ok none ∧
    (Value.object greeting.extra).Everywhere Value.IsLegible ∧
    ∃ line fields, greeting.jsonLine = .ok line ∧
      greeting.Tells "2026-02-05T18:28:08Z" "hi Zoë\n" line fields := by
  have timed : timeText (greeting.ownField "created" greeting.created) =
      .ok "2026-02-05T18:28:08Z" := by decide +kernel
  have formatted : greeting.messageText = .ok "hi Zoë\n" := by decide +kernel
  have failed : greeting.ownFailure = .ok none := rfl
  have legible : (Value.object greeting.extra).Everywhere Value.IsLegible := by
    simp [greeting, Value.IsLegible, Value.HasDistinctNames, Value.HasShortInteger, Fields.names]
  exact ⟨timed, formatted, failed, legible, jsonLine_tells greeting timed formatted failed legible⟩

/-- A record about a customer of some level. -/
def promotion : Entry where
  created := .int 1770316088
  level := "INFO"
  logger := "lobby"
  template := "welcome"
  extra := [("level", .string "gold")]

/-- The line of a record tells another level than the record has. -/
theorem jsonLine_promotion :
    timeText (promotion.ownField "created" promotion.created) = .ok "2026-02-05T18:28:08Z" ∧
    promotion.messageText = .ok "welcome" ∧
    ("level", .string "INFO") ∈ promotion.heading "2026-02-05T18:28:08Z" ∧
    ∃ line fields, promotion.jsonLine = .ok line ∧ parse line = .ok (.object fields) ∧
      Fields.get? fields "level" = some (.string "gold") := by
  have timed : timeText (promotion.ownField "created" promotion.created) =
      .ok "2026-02-05T18:28:08Z" := by decide +kernel
  have formatted : promotion.messageText = .ok "welcome" := by decide +kernel
  have legible : (Value.object promotion.extra).Everywhere Value.IsLegible := by
    simp [promotion, Value.IsLegible, Value.HasDistinctNames, Value.HasShortInteger, Fields.names]
  exact ⟨timed, formatted, .tail _ (.head _), _, _, jsonLine_eq timed formatted rfl legible,
    parse_text Form.regular_spaced (legible_lineFields legible), rfl⟩

end Entry

/-- A line that a command writes is one JSON object with the four fields of its record. -/
theorem Record.parse_jsonLine (record : Record) (time : String) :
    parse (record.jsonLine time) = .ok (.object [
      ("ts", .string time),
      ("level", .string record.level.name),
      ("logger", .string record.logger),
      ("msg", .string record.message)]) := by
  refine parse_text Form.regular_spaced ?_
  simp [Value.IsLegible, Value.HasDistinctNames, Value.HasShortInteger, Fields.names]

end NextOffer.Log
