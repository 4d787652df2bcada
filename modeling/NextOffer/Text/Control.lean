/-! # Control sequences of terminals

A sequence that sets colours or moves the cursor begins with the escape character and an
opening square bracket; digits, semicolons and question marks may follow, and a basic Latin
letter ends it.
-/

namespace NextOffer.Text

/-- The character stands between the bracket and the letter of a control sequence. -/
def isParameter (c : Char) : Bool := c == ';' || c == '?' || c.isDigit

/-- The length of the control sequence at the beginning, zero if there is none. -/
def controlLength : List Char → Nat
  | escape :: bracket :: rest =>
      if escape = '\x1b' ∧ bracket = '[' then
        let parameters := rest.takeWhile isParameter
        match rest.drop parameters.length with
        | last :: _ => if last.isAlpha then parameters.length + 3 else 0
        | [] => 0
      else 0
  | _ => 0

/-- The text without control sequences, the first `covered` characters being the rest of
    one. -/
def withoutControlsFrom (covered : Nat) : List Char → List Char
  | [] => []
  | c :: rest =>
      match covered with
      | left + 1 => withoutControlsFrom left rest
      | 0 =>
          match controlLength (c :: rest) with
          | 0 => c :: withoutControlsFrom 0 rest
          | left + 1 => withoutControlsFrom left rest

def withoutControls (text : String) : String := String.ofList (withoutControlsFrom 0 text.toList)

end NextOffer.Text
