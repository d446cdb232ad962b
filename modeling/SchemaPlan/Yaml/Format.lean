import SchemaPlan.Document.TextFormat
import SchemaPlan.Yaml.Read
import SchemaPlan.Yaml.Write

/-!
# YAML as a text format
-/

namespace SchemaPlan.Yaml

/-- How many lists and mappings a document may have inside one another. -/
def depthLimit : Nat := 128

/-- The format of schema files, recorded catalogs and test cases. -/
def format : TextFormat where
  read text :=
    let outcome := Outcome.ofText text
    { document := outcome.tree.document depthLimit
      fault := outcome.fault.map Fault.message
      locate := outcome.tree.locate none }
  write := write

end SchemaPlan.Yaml
