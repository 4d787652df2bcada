/-! # The vocabulary of rules

Closed sets of words that rules, events and recommendations use, with the labels and
suggestions shown to authors. A condition may carry an operator outside its set; such
a condition never holds.
-/

namespace NextOffer

inductive Status where
  /-- Being authored; never evaluated. -/
  | draft
  /-- Published; takes part in evaluation. -/
  | active
  /-- Disabled after publication; never evaluated. -/
  | inactive
  deriving DecidableEq, Repr

inductive EventKind where
  | login
  | salaryCredit
  | transferPosted
  | marketplaceView
  deriving DecidableEq, Repr

inductive Operator where
  | greater
  | less
  | greaterOrEqual
  | lessOrEqual
  | equal
  | contains
  | isIn
  deriving DecidableEq, Repr

inductive EffectKind where
  | scoreDelta
  | addTag
  | removeTag
  deriving DecidableEq, Repr

inductive Decision where
  | shown
  | hidden
  deriving DecidableEq, Repr

namespace Status

def all : List Status := [draft, active, inactive]

def word : Status → String
  | draft => "DRAFT"
  | active => "ACTIVE"
  | inactive => "INACTIVE"

def ofWord? (word : String) : Option Status := all.find? (·.word = word)

end Status

namespace EventKind

def all : List EventKind := [login, salaryCredit, transferPosted, marketplaceView]

def word : EventKind → String
  | login => "LOGIN"
  | salaryCredit => "SALARY_CREDIT"
  | transferPosted => "TRANSFER_POSTED"
  | marketplaceView => "MARKETPLACE_VIEW"

def label : EventKind → String
  | login => "Login"
  | salaryCredit => "Salary Credit"
  | transferPosted => "Transfer Posted"
  | marketplaceView => "Marketplace View"

def ofWord? (word : String) : Option EventKind := all.find? (·.word = word)

end EventKind

namespace Operator

def all : List Operator :=
  [greater, less, greaterOrEqual, lessOrEqual, equal, contains, isIn]

def word : Operator → String
  | greater => ">"
  | less => "<"
  | greaterOrEqual => ">="
  | lessOrEqual => "<="
  | equal => "="
  | contains => "contains"
  | isIn => "in"

def name : Operator → String
  | greater => "GT"
  | less => "LT"
  | greaterOrEqual => "GTE"
  | lessOrEqual => "LTE"
  | equal => "EQ"
  | contains => "CONTAINS"
  | isIn => "IN"

def label : Operator → String
  | greater => "Greater than"
  | less => "Less than"
  | greaterOrEqual => "Greater or equal"
  | lessOrEqual => "Less or equal"
  | equal => "Equals"
  | contains => "Contains"
  | isIn => "In list"

/-- The operators in the order in which authors choose from them. -/
def menu : List Operator :=
  [greater, less, equal, greaterOrEqual, lessOrEqual, contains, isIn]

def ofWord? (word : String) : Option Operator := all.find? (·.word = word)

end Operator

namespace EffectKind

def all : List EffectKind := [scoreDelta, addTag, removeTag]

def word : EffectKind → String
  | scoreDelta => "scoreDelta"
  | addTag => "addTag"
  | removeTag => "removeTag"

def name : EffectKind → String
  | scoreDelta => "SCORE_DELTA"
  | addTag => "ADD_TAG"
  | removeTag => "REMOVE_TAG"

def ofWord? (word : String) : Option EffectKind := all.find? (·.word = word)

end EffectKind

namespace Decision

def all : List Decision := [shown, hidden]

def word : Decision → String
  | shown => "SHOWN"
  | hidden => "HIDDEN"

def ofWord? (word : String) : Option Decision := all.find? (·.word = word)

end Decision

/-- Names of scores suggested to authors; any other name is accepted too. -/
def knownScores : List String :=
  ["financialStability", "homeOwnershipIntent", "creditReadiness", "digitalEngagement"]

structure FieldSuggestion where
  path : String
  label : String
  valueKind : String
  deriving Repr

/-- Paths suggested to authors; any other path is accepted too. -/
def fieldSuggestions : List FieldSuggestion := [
  ⟨"event.amount", "Event Amount", "number"⟩,
  ⟨"event.counterpartyLabel", "Counterparty Label", "string"⟩,
  ⟨"event.frequency", "Event Frequency", "string"⟩,
  ⟨"event.category", "Event Category", "string"⟩,
  ⟨"profile.static.age", "Customer Age", "number"⟩,
  ⟨"profile.static.employment", "Employment Status", "string"⟩,
  ⟨"profile.static.hasHomeLoan", "Has Home Loan", "boolean"⟩,
  ⟨"profile.behavioral.salaryCreditsPerMonth", "Salary Credits/Month", "number"⟩,
  ⟨"profile.behavioral.rentPaymentsPerMonth", "Rent Payments/Month", "number"⟩,
  ⟨"profile.behavioral.marketplaceVisits", "Marketplace Visits", "number"⟩,
  ⟨"profile.scores.financialStability", "Financial Stability Score", "number"⟩,
  ⟨"profile.scores.homeOwnershipIntent", "Home Ownership Intent", "number"⟩,
  ⟨"profile.scores.creditReadiness", "Credit Readiness", "number"⟩,
  ⟨"profile.scores.digitalEngagement", "Digital Engagement", "number"⟩]

end NextOffer
