import NextOffer.Schema.Reader
import NextOffer.Vocabulary

/-! # Business events

An event triggers rules of its kind; its payload is addressed by conditions.
-/

namespace NextOffer

structure Event where
  kind : EventKind
  payload : Fields Json.Value := []

namespace EventKind

open Schema

def reader : Reader EventKind := Reader.word (all.map word) ofWord?

end EventKind

namespace Event

open Schema

def reader : Reader Event :=
  Reader.record "Event" fun entries =>
    Event.mk
      <$> Reader.required entries (.plain "type") EventKind.reader
      <*> Reader.optional entries (.plain "payload") [] (Reader.mapping Reader.anything)

def highSalary : List Event := [⟨.salaryCredit, [("amount", .int 150000)]⟩]

def renter : List Event := [
  ⟨.transferPosted,
    [("counterpartyLabel", .string "House Rent Payment"), ("frequency", .string "monthly")]⟩]

def combo : List Event := [
  ⟨.salaryCredit, [("amount", .int 65000)]⟩,
  ⟨.transferPosted,
    [("counterpartyLabel", .string "Rent - Mr. Sharma"), ("frequency", .string "monthly")]⟩]

def examples : Fields (List Event) :=
  [("high-salary", highSalary), ("renter", renter), ("combo", combo)]

end Event

end NextOffer
