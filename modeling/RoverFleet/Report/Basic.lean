import RoverFleet.Validation
import RoverFleet.Json.Printer

/-!
# Reports

A report says whether an operation went well and carries its data, or the error that ended it.
Data, error details and remarks are trees of values.
-/
namespace RoverFleet

structure ErrorReport where
  code : String
  message : String
  detail : Fields

structure Report where
  ok : Bool
  operation : String
  data : Fields
  error : Option ErrorReport
  remarks : Option Fields

namespace ErrorReport

def toValue (e : ErrorReport) : Value :=
  .object [("code", .string e.code), ("message", .string e.message), ("detail", .object e.detail)]

def ofFields (fields : Fields) : Checked ErrorReport := do
  let (code, message, detail) ←
    (Validation.required fields "code" Validation.toText).both
      ((Validation.required fields "message" Validation.toText).both
        (Validation.optional fields "detail" [] Validation.toFields))
  return ⟨code, message, detail⟩

end ErrorReport

namespace Report

def toValue (r : Report) : Value :=
  .object [("ok", .bool r.ok), ("op", .string r.operation), ("data", .object r.data),
    ("error", (r.error.map ErrorReport.toValue).getD .null),
    ("meta", (r.remarks.map Value.object).getD .null)]

def readError (fields : Fields) : Checked (Option ErrorReport) :=
  match fields.lookup "error" with
  | none | some .null => .ok none
  | some (.object inner) => ((ErrorReport.ofFields inner).within "error").map some
  | some _ => .error [⟨.modelType, ["error"]⟩]

/-- The report that the fields describe; fields of other names do not count. -/
def ofFields (fields : Fields) : Checked Report := do
  let (ok, operation, data, error, remarks) ←
    (Validation.required fields "ok" Validation.toBool).both
      ((Validation.required fields "op" Validation.toText).both
        ((Validation.optional fields "data" [] Validation.toFields).both
          ((readError fields).both
            (Validation.optional fields "meta" none (Validation.orNull Validation.toFields)))))
  return ⟨ok, operation, data, error, remarks⟩

end Report

end RoverFleet
