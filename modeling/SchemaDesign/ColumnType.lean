import SchemaDesign.Vendor
import SchemaDesign.DesignError

/-!
# Column types

A column may have a data type and a length or precision. The pair is accepted when the vendor
supports the type and the descriptor suits it:

- a type that requires a length (`VARCHAR`, `CHAR`) has a positive one;
- a type that requires precision and scale (`DECIMAL`, `NUMERIC`) has a positive precision and
  a scale not above it;
- a type with an optional length has none, or a positive one;
- any other type has none; a descriptor without a type is refused as well.

A foreign-key column suits the column it references when either has no type, or both types are
equal up to the case of ASCII letters and both descriptors are equal.
-/

namespace SchemaDesign

/-- Whether two texts are equal up to the case of ASCII letters. -/
def eqIgnoreAsciiCase (a b : String) : Bool := upperAscii a = upperAscii b

/-- Refuses a data type and descriptor that do not suit each other or the vendor. -/
def checkDataType (vendor : Vendor) (dataType : Option String) (ls : Option LengthScale) :
    Except DesignError Unit :=
  match dataType with
  | none =>
    match ls with
    | some _ => .error (.columnLengthScaleNotApplicable "")
    | none => .ok ()
  | some dt =>
    if !vendor.supportsDataType dt then .error (.columnDataTypeInvalid dt vendor)
    else
      match TypeParams.ofType dt, ls with
      | .length, none => .error (.columnLengthRequired dt)
      | .precisionScale, none => .error (.columnPrecisionRequired dt)
      | .length, some (.length n) | .optionalLength, some (.length n) =>
        if n = 0 then .error (.columnLengthScaleInvalid dt (.length n)) else .ok ()
      | .precisionScale, some (.precisionScale p s) =>
        if p = 0 ∨ s > p then .error (.columnLengthScaleInvalid dt (.precisionScale p s))
        else .ok ()
      | .none, some _ => .error (.columnLengthScaleNotApplicable dt)
      | _, some l => .error (.columnLengthScaleInvalid dt l)
      | .optionalLength, none | .none, none => .ok ()

/-- Whether a foreign-key column's type suits the type of the column it references. -/
def typesCompatible (fk pk : Column) : Bool :=
  match fk.dataType, pk.dataType with
  | some a, some b => eqIgnoreAsciiCase a b && fk.lengthScale == pk.lengthScale
  | _, _ => true

end SchemaDesign
