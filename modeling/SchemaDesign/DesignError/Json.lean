import SchemaDesign.DesignError
import SchemaDesign.Model.Codec

/-!
# Refusals as JSON

A naming rule is `{"rule": "length", "min", "max"}` or `{"rule": "format"}`; the details of a
refusal are an object of its fields; a refusal is `{"code", "message", "details"}`.
-/

namespace SchemaDesign

/-- The rule as JSON. -/
def NameRule.toJson : NameRule → Json
  | .length min max => .obj [("rule", .str "length"), ("min", .nat min), ("max", .nat max)]
  | .format => .obj [("rule", .str "format")]

/-- A detail as JSON. -/
def Detail.toJson : Detail → Json
  | .text s => .str s
  | .num n => .nat n
  | .rule r => r.toJson
  | .lengthScale ls => ls.toJson

namespace DesignError

/-- The fields of the refusal as an object. -/
def detailsJson (e : DesignError) : Json := .obj (e.details.map fun (k, d) => (k, d.toJson))

/-- The refusal as `{"code", "message", "details"}`. -/
def toJson (e : DesignError) : Json :=
  .obj [("code", .str e.code), ("message", .str e.message), ("details", e.detailsJson)]

end DesignError

end SchemaDesign
