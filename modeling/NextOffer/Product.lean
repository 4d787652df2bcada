import NextOffer.Schema.Reader

/-! # Products -/

namespace NextOffer

structure Product where
  id : String
  name : String
  requiredScores : Fields Number := []
  weightByScore : Fields Number := []
  /-- Tags that hide the product, in the order of checking. -/
  exclusions : List String := []
  /-- Products that are not active are left out altogether. -/
  active : Bool := true

namespace Product

open Schema

def reader : Reader Product :=
  Reader.record "Product" fun entries =>
    Product.mk
      <$> Reader.required entries (.plain "id") Reader.text
      <*> Reader.required entries (.plain "name") Reader.text
      <*> Reader.optional entries ⟨"required_scores", "requiredScores"⟩ []
        (Reader.mapping Reader.number)
      <*> Reader.optional entries ⟨"weight_by_score", "weightByScore"⟩ []
        (Reader.mapping Reader.number)
      <*> Reader.optional entries (.plain "exclusions") [] (Reader.list Reader.text)
      <*> Reader.optional entries (.plain "active") true Reader.truth

end Product

end NextOffer
