/-
The formats that records can be written in.
-/
import UrlReservations.Json
import UrlReservations.Yaml.Sheet

namespace UrlReservations

/-- The formats of the output. -/
inductive Format where
  | yaml
  | json
  deriving DecidableEq

namespace Format

instance : Choice Format := ⟨[("yaml", yaml), ("json", json)]⟩

/-- Write records in a format. -/
def render (format : Format) (records : RecordSet) : String :=
  String.ofList <| match format with
    | yaml => Yaml.render records.sheets
    | json => Json.render records.sheets

end Format

end UrlReservations
