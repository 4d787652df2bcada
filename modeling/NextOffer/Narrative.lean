import NextOffer.Recommendation

/-! # The story of a simulation -/

namespace NextOffer.Narrative

/-- The headline over rules that fired, and one line for each. -/
def traceLines (trace : List TraceEntry) : List String :=
  if trace = [] then ["No rules were triggered by the provided events."]
  else
    let plural := if trace.length > 1 then "s" else ""
    s!"{trace.length} rule{plural} matched:" ::
      trace.map fun entry => s!"• \"{entry.ruleName}\": {entry.effectDescription}"

/-- A line with names, unless there are none. -/
def namesLine (title : String) (names : List String) : List String :=
  if names = [] then [] else [title ++ ": " ++ ", ".intercalate names]

/-- The lines about products, by name and decision in the order of their ranks. -/
def productLines (products : List (String × Decision)) : List String :=
  let named (decision : Decision) := (products.filter (·.2 = decision)).map (·.1)
  "Recommendation Summary:" ::
    namesLine "Showing" (named .shown) ++ namesLine "Hidden" (named .hidden)

def text (trace : List TraceEntry) (products : List (String × Decision)) : String :=
  "\n".intercalate (traceLines trace ++ "" :: productLines products)

def ofRanking (trace : List TraceEntry) (ranked : List Recommendation) : String :=
  text trace (ranked.map fun r => (r.product.name, r.decision))

end NextOffer.Narrative
