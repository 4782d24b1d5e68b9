import ConversationSearch.Conversation
import ConversationSearch.Json.Printer

/-!
# Rules for documents

A document may be indexed when it keeps the rules of its kind. A message needs an id and the id of
its conversation. A conversation needs an id, at least two participants, each with a username and a
handle, and its owner among them. The rule about the owner is looked at only when the others are
kept.

A report lists the fields at fault. A field is at fault either itself or in its items, and there is
no report in which it is both: a conversation that has too few participants, one of which has an
empty name, cannot be reported on. Such a `Clash` ends the validation without a report.
-/

namespace ConversationSearch

/-- A rule that is broken. -/
inductive Violation
  /-- A text or an array is shorter than it may be. -/
  | tooShort (minimum : Nat) (value : Json)
  /-- The owner of a conversation is not among its participants. -/
  | ownerAbsent (id handle : String)
  deriving DecidableEq

namespace Violation

/-- The name of the rule. -/
def code : Violation → String
  | .tooShort _ _ => "length"
  | .ownerAbsent _ _ => "owner_not_participant"

/-- The wording of the violation, for rules that have one. -/
def message? : Violation → Option String
  | .tooShort _ _ => none
  | .ownerAbsent id handle =>
    some ("conversation " ++ id ++ " does not list its owner '" ++ handle ++ "' as a participant")

/-- What the rule was applied to. -/
def params : Violation → Json
  | .tooShort minimum value => .object [("min", .nat minimum), ("value", value)]
  | .ownerAbsent _ _ => .empty

/-- The violation in words. -/
def text (v : Violation) : String :=
  v.message?.getD ("Validation error: " ++ v.code ++ " " ++ v.params.compact)

/-- The violation as a JSON value. -/
def toJson (v : Violation) : Json :=
  .object
    [("code", .string v.code), ("message", .ofText? v.message?), ("params", v.params)]

end Violation

/-- The rule that a text is not empty. -/
def nonEmpty (field value : String) : List (String × Violation) :=
  if value.isEmpty then [(field, .tooShort 1 (.string value))] else []

/-- What is wrong with a field: a rule that the field itself breaks, or the rules that its items
break, with the positions of those items. -/
inductive FieldReport
  | itself (violation : Violation)
  | items (reports : List (Nat × List (String × Violation)))
  deriving DecidableEq

/-- Violations by field as a JSON value. -/
def violationsJson (vs : List (String × Violation)) : Json :=
  .ofMembers (vs.map fun v => (v.1, .array [v.2.toJson]))

namespace FieldReport

/-- The report in words, on the field with the given name. -/
def text (field : String) : FieldReport → String
  | .itself v => field ++ ": " ++ v.text
  | .items reports =>
    "; ".intercalate (reports.flatMap fun r => r.2.map fun v =>
      field ++ "[" ++ String.ofList (Text.digits r.1) ++ "]." ++ v.1 ++ ": " ++ v.2.text)

/-- The report as a JSON value. -/
def toJson : FieldReport → Json
  | .itself v => .array [v.toJson]
  | .items reports =>
    .ofMembers (reports.map fun r => (String.ofList (Text.digits r.1), violationsJson r.2))

end FieldReport

/-- The fields at fault. -/
abbrev Report := List (String × FieldReport)

namespace Report

/-- The report of violations that fields break themselves. -/
def ofViolations (vs : List (String × Violation)) : Report :=
  vs.map fun v => (v.1, .itself v.2)

/-- Whether nothing is at fault. -/
def isValid (r : Report) : Bool :=
  r.isEmpty

/-- The report in words. -/
def text (r : Report) : String :=
  "; ".intercalate (r.map fun f => f.2.text f.1)

/-- The report as a JSON value. -/
def toJson (r : Report) : Json :=
  .ofMembers (r.map fun f => (f.1, f.2.toJson))

end Report

/-- A field that is at fault itself and in its items. -/
structure Clash where
  field : String
  deriving DecidableEq, Repr

/-- The wording of a clash. -/
def Clash.message (_ : Clash) : String :=
  "Attempt to replace non-empty ValidationErrors entry"

/-- The rules that a participant breaks. -/
def Participant.violations (p : Participant) : List (String × Violation) :=
  nonEmpty "username" p.username ++ nonEmpty "handle" p.handle

/-- What is wrong with a participant. -/
def Participant.validate (p : Participant) : Report :=
  .ofViolations p.violations

/-- What is wrong with a message. -/
def Message.validate (m : Message) : Report :=
  .ofViolations (nonEmpty "id" m.id ++ nonEmpty "conversation_id" m.conversationId)

namespace Conversation

/-- The fewest participants of a conversation. -/
def minParticipants : Nat := 2

/-- The rules that participants break, with their positions, the first of which is given. -/
def badParticipants : (position : Nat) → List Participant →
    List (Nat × List (String × Violation))
  | _, [] => []
  | position, p :: rest =>
    (if p.violations.isEmpty then [] else [(position, p.violations)]) ++
      badParticipants (position + 1) rest

/-- The report on the participants. -/
def participantsReport (c : Conversation) : Except Clash Report :=
  let bad := badParticipants 0 c.participants
  if c.participants.length < minParticipants then
    if bad.isEmpty then
      .ok [("participants",
        .itself (.tooShort minParticipants (.array (c.participants.map Participant.toJson))))]
    else .error ⟨"participants"⟩
  else .ok (if bad.isEmpty then [] else [("participants", .items bad)])

/-- What is wrong with a conversation. -/
def validate (c : Conversation) : Except Clash Report := do
  let participants ← c.participantsReport
  let fields := .ofViolations (nonEmpty "id" c.id) ++ participants
  if fields.isEmpty && !c.ownerParticipates then
    return [("__all__", .itself (.ownerAbsent c.id c.handle))]
  else return fields

end Conversation
end ConversationSearch
