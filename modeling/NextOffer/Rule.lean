import NextOffer.Event

/-! # Rules

When an event of its kind happens and all conditions hold, a rule applies its effects in
order. Fields of conditions and effects may be missing: such a condition never holds and
such an effect changes nothing. Only the kind of an effect has to be known.
-/

namespace NextOffer

inductive Scalar where
  | truth (value : Bool)
  | number (value : Number)
  | text (value : String)
  deriving DecidableEq

inductive Literal where
  | scalar (value : Scalar)
  | list (items : List Scalar)
  deriving DecidableEq

/-- One comparison between the value at a path and a literal. -/
structure Condition where
  source : String := ""
  /-- The operator's sign, which may be none of the known ones. -/
  sign : String := ""
  literal : Option Literal := none
  deriving DecidableEq

inductive Effect where
  | scoreDelta (score : Option String) (delta : Option Number)
  | addTag (tag : Option String)
  | removeTag (tag : Option String)
  deriving DecidableEq

/-- Hints for targeting; rules are evaluated without them. -/
structure Scopes where
  channels : List String := []
  segments : List String := []
  validFrom : Option Timestamp := none
  validTo : Option Timestamp := none

structure Authorship where
  owner : Option String := none
  lastEditedBy : Option String := none
  notes : Option String := none

structure Rule where
  id : String
  name : String
  status : Status := .draft
  priority : Int := 50
  event : EventKind
  conditions : List Condition := []
  effects : List Effect := []
  scopes : Option Scopes := none
  metadata : Option Authorship := none
  version : Int := 1

namespace Scalar

def toJson : Scalar → Json.Value
  | truth value => .bool value
  | number value => .number value
  | text value => .string value

def ofJson? : Json.Value → Option Scalar
  | .bool value => some (truth value)
  | .number value => some (number value)
  | .string value => some (text value)
  | _ => none

end Scalar

namespace Literal

def toJson : Literal → Json.Value
  | scalar value => value.toJson
  | list items => .array (items.map Scalar.toJson)

end Literal

namespace Condition

/-- What the condition compares with; null when it is missing. -/
def target (condition : Condition) : Json.Value :=
  match condition.literal with
  | none => .null
  | some literal => literal.toJson

end Condition

namespace Effect

def kind : Effect → EffectKind
  | scoreDelta _ _ => .scoreDelta
  | addTag _ => .addTag
  | removeTag _ => .removeTag

end Effect

namespace Rule

def isActive (rule : Rule) : Bool := rule.status == .active

end Rule

open Schema

namespace Scalar

/-- Read one item of a list of literals; whatever fails, fails as each kind of scalar. -/
def reader : Reader Scalar := fun value =>
  match ofJson? value with
  | some scalar => .accepted scalar
  | none =>
      .rejected [⟨["str"], .textExpected⟩, ⟨["int"], .integerExpected⟩,
        ⟨["float"], .numberExpected⟩, ⟨["bool"], .truthExpected⟩]

end Scalar

namespace Literal

/-- Issues of a value that is no single literal. -/
def scalarIssues : List Issue :=
  [⟨["bool"], .truthExpected⟩, ⟨["int"], .integerExpected⟩, ⟨["float"], .numberExpected⟩,
    ⟨["str"], .textExpected⟩]

def listStep : String := "list[union[str,int,float,bool]]"

def reader : Reader Literal := fun value =>
  match Scalar.ofJson? value, Reader.list Scalar.reader value with
  | some single, _ => .accepted (.scalar single)
  | none, .accepted items => .accepted (.list items)
  | none, .rejected issues => .rejected (scalarIssues ++ issues.map (Issue.under listStep))

end Literal

namespace Condition

def reader : Reader Condition :=
  Reader.record "Condition" fun entries =>
    Condition.mk
      <$> Reader.optional entries (.plain "source") "" Reader.text
      <*> Reader.optional entries (.plain "op") "" Reader.text
      <*> Reader.optional entries (.plain "value") none (Reader.nullable Literal.reader)

end Condition

namespace Effect

/-- Read the fields of an effect of a known kind. -/
def fieldsReader (entries : Fields Json.Value) : EffectKind → Checked Effect
  | .scoreDelta =>
      Effect.scoreDelta
        <$> Reader.optional entries (.plain "score") none (Reader.nullable Reader.text)
        <*> Reader.optional entries (.plain "delta") none (Reader.nullable Reader.number)
  | .addTag =>
      Effect.addTag
        <$> Reader.optional entries (.plain "tag") none (Reader.nullable Reader.text)
  | .removeTag =>
      Effect.removeTag
        <$> Reader.optional entries (.plain "tag") none (Reader.nullable Reader.text)

def kindOf? : Json.Value → Option EffectKind
  | .string tag => EffectKind.ofWord? tag
  | _ => none

def reader : Reader Effect
  | .object entries =>
      match Fields.get? entries "type" with
      | none => .reject .tagMissing
      | some tag =>
          match kindOf? tag with
          | some kind => (fieldsReader entries kind).under kind.word
          | none => .reject (.tagUnknown tag.display (EffectKind.all.map EffectKind.word))
  | _ => .reject .memberExpected

end Effect

namespace Scopes

def reader : Reader Scopes :=
  Reader.record "RuleScopes" fun entries =>
    Scopes.mk
      <$> Reader.optional entries (.plain "channels") [] (Reader.list Reader.text)
      <*> Reader.optional entries (.plain "segments") [] (Reader.list Reader.text)
      <*> Reader.optional entries ⟨"valid_from", "validFrom"⟩ none (Reader.nullable Reader.moment)
      <*> Reader.optional entries ⟨"valid_to", "validTo"⟩ none (Reader.nullable Reader.moment)

end Scopes

namespace Authorship

def reader : Reader Authorship :=
  Reader.record "RuleMetadata" fun entries =>
    Authorship.mk
      <$> Reader.optional entries (.plain "owner") none (Reader.nullable Reader.text)
      <*> Reader.optional entries ⟨"last_edited_by", "lastEditedBy"⟩ none
        (Reader.nullable Reader.text)
      <*> Reader.optional entries (.plain "notes") none (Reader.nullable Reader.text)

end Authorship

namespace Rule

def reader : Reader Rule :=
  Reader.record "Rule" fun entries =>
    Rule.mk
      <$> Reader.required entries (.plain "id") Reader.text
      <*> Reader.required entries (.plain "name") Reader.text
      <*> Reader.optional entries (.plain "status") .draft
        (Reader.word (Status.all.map Status.word) Status.ofWord?)
      <*> Reader.optional entries (.plain "priority") 50 Reader.integer
      <*> Reader.required entries (.plain "event") EventKind.reader
      <*> Reader.optional entries (.plain "conditions") [] (Reader.list Condition.reader)
      <*> Reader.optional entries (.plain "effects") [] (Reader.list Effect.reader)
      <*> Reader.optional entries (.plain "scopes") none (Reader.nullable Scopes.reader)
      <*> Reader.optional entries (.plain "metadata") none (Reader.nullable Authorship.reader)
      <*> Reader.optional entries (.plain "version") 1 Reader.integer

end Rule

end NextOffer
