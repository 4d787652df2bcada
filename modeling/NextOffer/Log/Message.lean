import NextOffer.Binary64.Notation
import NextOffer.Log.Conversion

/-! # Messages with arguments

A percent sign begins a place for an argument. Behind it may stand the name of an entry in
round brackets, flags, a width, a point with a number of places, and a letter for a size
that is passed over; then comes the letter of a conversion. An asterisk takes a width or a
number of places from the arguments. `%%` is a percent sign.
-/

namespace NextOffer.Log

inductive MessageFault where
  | argumentsLeft
  | argumentMissing
  | incomplete
  | incompleteName
  | namesMissing
  | indexRequired
  | unknownName (name : String)
  | unknownLetter (letter : Char) (index : Nat)
  | sizeRequired
  | widthTooBig
  | placesTooBig
  /-- An argument as a width that takes more than 64 bits. -/
  | widthTooWide
  /-- An argument as a number of places that takes more than 32 bits. -/
  | placesTooWide
  | noRoom
  | conversion (cause : ConversionFault)
  deriving DecidableEq, Repr

namespace MessageFault

/-- A letter in a message; those that do not show are a question mark. -/
def letterText (letter : Char) : Char :=
  if 31 ≤ letter.toNat ∧ letter.toNat ≤ 126 then letter else '?'

def message : MessageFault → String
  | argumentsLeft => "not all arguments converted during string formatting"
  | argumentMissing => "not enough arguments for format string"
  | incomplete => "incomplete format"
  | incompleteName => "incomplete format key"
  | namesMissing => "format requires a mapping"
  | indexRequired => "list indices must be integers or slices, not str"
  | unknownName name => name
  | unknownLetter letter index =>
      let code := String.ofList (Nat.toDigits 16 letter.toNat)
      s!"unsupported format character '{letterText letter}' (0x{code}) at index {index}"
  | sizeRequired => "* wants int"
  | widthTooBig => "width too big"
  | placesTooBig => "precision too big"
  | widthTooWide => "Python int too large to convert to C ssize_t"
  | placesTooWide => "Python int too large to convert to C int"
  | noRoom => ""
  | conversion cause => cause.message

end MessageFault

/-! ## Arguments -/

inductive Arguments where
  | several (values : List Json.Value)
  /-- One value for one place, which may also give names. -/
  | lone (value : Json.Value)

/-- The arguments in a list, if there are any. A single object that is not empty gives
    names. -/
def Arguments.ofList? : List Json.Value → Option Arguments
  | [] => none
  | [.object (entry :: rest)] => some (.lone (.object (entry :: rest)))
  | values => some (.several values)

/-- What fills the places of a template: values one after another, or by name from another
    value. That one may be left over. -/
structure Supply where
  pending : List Json.Value
  names : Option Json.Value

namespace Supply

def ofArguments : Arguments → Supply
  | .several values => ⟨values, none⟩
  | .lone (.object entries) => ⟨[.object entries], some (.object entries)⟩
  | .lone (.array items) => ⟨[.array items], some (.array items)⟩
  | .lone value => ⟨[value], none⟩

def select (supply : Supply) (name : String) : Except MessageFault Supply :=
  match supply.names with
  | none => .error .namesMissing
  | some (.object entries) =>
      match Fields.get? entries name with
      | none => .error (.unknownName name)
      | some value => .ok { supply with pending := [value] }
  | some _ => .error .indexRequired

def next (supply : Supply) : Except MessageFault (Json.Value × Supply) :=
  match supply.pending with
  | [] => .error .argumentMissing
  | value :: rest => .ok (value, { supply with pending := rest })

def isSpent (supply : Supply) : Bool := supply.pending.isEmpty || supply.names.isSome

end Supply

/-! ## Places -/

/-- What is left of a template and of its arguments. -/
structure Cursor where
  rest : List Char
  supply : Supply

namespace Cursor

def sees (cursor : Cursor) (c : Char) : Bool := cursor.rest.head? == some c

def skip (cursor : Cursor) : Cursor := { cursor with rest := cursor.rest.tail }

end Cursor

/-- The name in round brackets behind the opening one, which `depth` others inside it may
    follow, and the text behind it. -/
def takeName (depth : Nat) : List Char → Option (List Char × List Char)
  | [] => none
  | c :: rest =>
      if c = ')' ∧ depth = 0 then some ([], rest)
      else
        let inner := if c = '(' then depth + 1 else if c = ')' then depth - 1 else depth
        (takeName inner rest).map fun found => (c :: found.1, found.2)

/-- Select the entry whose name stands in round brackets behind a percent sign. -/
def selectNamed (cursor : Cursor) : Except MessageFault Cursor :=
  if !cursor.sees '(' then .ok cursor
  else if cursor.supply.names.isNone then .error .namesMissing
  else
    match takeName 0 cursor.rest.tail with
    | none => .error .incompleteName
    | some (name, rest) => do return ⟨rest, ← cursor.supply.select (String.ofList name)⟩

/-- A kind of size in a template: how many bits it has besides its sign, and the faults of
    larger ones. -/
structure SizeKind where
  bits : Nat
  tooBig : MessageFault
  tooWide : MessageFault

def SizeKind.width : SizeKind := ⟨63, .widthTooBig, .widthTooWide⟩

def SizeKind.places : SizeKind := ⟨31, .placesTooBig, .placesTooWide⟩

/-- A size in digits, or an asterisk for the next argument. None when there is neither. -/
def takeSize (kind : SizeKind) (cursor : Cursor) : Except MessageFault (Option Int × Cursor) := do
  let limit := Nat.pow 2 kind.bits
  if cursor.sees '*' then
    let (value, supply) ← cursor.supply.next
    match numberOf? value with
    | some (.int n) =>
        if n < -(limit : Int) ∨ (limit : Int) ≤ n then throw kind.tooWide
        return (some n, ⟨cursor.rest.tail, supply⟩)
    | _ => throw .sizeRequired
  else
    let digits := leadingDigits cursor.rest
    let size := Nat.ofDigitChars 10 digits 0
    if limit ≤ size then throw kind.tooBig
    return (if digits = [] then none else some size,
      { cursor with rest := cursor.rest.drop digits.length })

/-- The number of places behind a point, if there is a point. -/
def takePlaces (cursor : Cursor) : Except MessageFault (Option Nat × Cursor) := do
  if cursor.sees '.' then
    let (places, cursor) ← takeSize .places cursor.skip
    return (some (places.getD 0).toNat, cursor)
  else return (none, cursor)

/-- The layout behind a percent sign. A width below zero counts like a hyphen, and the least
    one, whose size takes more than 63 bits, like none. -/
def takeSlot (cursor : Cursor) : Except MessageFault (Slot × Cursor) := do
  let cursor ← selectNamed cursor
  let flags := cursor.rest.takeWhile fun c => "-+ #0".toList.contains c
  let (width, cursor) ← takeSize .width { cursor with rest := cursor.rest.drop flags.length }
  let (places, cursor) ← takePlaces cursor
  let width := width.getD 0
  let flags := if width < 0 then '-' :: flags else flags
  let sized := cursor.sees 'h' || cursor.sees 'l' || cursor.sees 'L'
  return (⟨flags, width.natAbs % Nat.pow 2 63, places⟩, if sized then cursor.skip else cursor)

/-- The least width of a place that does not fit into memory. -/
def hugeWidth : Nat := Nat.pow 2 40

/-- An argument as a text in the place of a letter. A place that does not fit into memory
    still shows whether there is a text. -/
def placedText (conversion : Conversion) (slot : Slot) (letter : Char) (value : Json.Value) :
    Except MessageFault String := do
  if slot.width < hugeWidth then (conversion.text slot letter value).mapError .conversion
  else
    let _ ← (conversion.text { slot with width := 0 } letter value).mapError .conversion
    throw .noRoom

/-- The text of the place behind a percent sign in a template of some length. -/
def takePlace (length : Nat) (cursor : Cursor) : Except MessageFault (String × Cursor) := do
  let (slot, cursor) ← takeSlot cursor
  let some letter := cursor.rest.head? | throw .incomplete
  let (value, supply) ← cursor.supply.next
  match Conversion.ofLetter? letter with
  | none => throw (.unknownLetter letter (length - cursor.rest.length))
  | some conversion =>
      return (← placedText conversion slot letter value, ⟨cursor.rest.tail, supply⟩)

/-! ## Templates -/

/-- Fill the places of a template of some length; `fuel` bounds the number of places. -/
def fillFrom (length : Nat) : Nat → Cursor → Except MessageFault String
  | 0, _ => .error .incomplete
  | fuel + 1, cursor => do
      let plain := cursor.rest.takeWhile (· != '%')
      match cursor.rest.drop plain.length with
      | [] =>
          if cursor.supply.isSpent then return String.ofList plain else throw .argumentsLeft
      | _ :: rest =>
          let cursor := { cursor with rest }
          if cursor.sees '%' then
            return String.ofList plain ++ "%" ++ (← fillFrom length fuel cursor.skip)
          let (text, cursor) ← takePlace length cursor
          return String.ofList plain ++ text ++ (← fillFrom length fuel cursor)

/-- A template with its places filled. A template without arguments stays as it is. -/
def fill (template : String) : Option Arguments → Except MessageFault String
  | none => .ok template
  | some arguments =>
      let cs := template.toList
      fillFrom cs.length (cs.length + 1) ⟨cs, .ofArguments arguments⟩

end NextOffer.Log
